import RingAllReduce.BlockLayout
import RingAllReduce.ReductionOps

/-!
`ring_collectives.cpp`. Which operations a rank performs, and in which order, depends on its
arguments and never on the data, so a collective is modelled by the list of its operations. A
`ret` leaves the function and what stands behind it in the list is not performed.
-/

namespace RingAllReduce

def kDefaultPieceBytes : Nat := 64 * 1024
def kDefaultMaxInflight : Nat := 4
def kMaxInflightLimit : Nat := 1024

def kPieceBits : UInt32 := 12
def kStepBits : UInt32 := 7
def kPhaseBits : UInt32 := 1
def kSequenceBits : UInt32 := 12

def kPieceMask : UInt32 := (1 <<< kPieceBits) - 1
def kStepMask : UInt32 := (1 <<< kStepBits) - 1
def kSequenceMask : UInt32 := (1 <<< kSequenceBits) - 1

def kStepShift : UInt32 := kPieceBits
def kPhaseShift : UInt32 := kPieceBits + kStepBits
def kSequenceShift : UInt32 := kPieceBits + kStepBits + kPhaseBits

/-- `%` truncates towards zero in C++. -/
def positiveMod (value modulus : Int) : Int :=
  let result := value.tmod modulus
  if result < 0 then result + modulus else result

def makeTag (sequence : UInt32) (phase : CollectivePhase) (step : Int) (piece : Nat) :
    Except Status UInt32 :=
  if step < 0 ∨ kStepMask.toNat < step.toNat ∨ kPieceMask.toNat < piece then .error .tagRange
  else .ok (((sequence &&& kSequenceMask) <<< kSequenceShift) |||
    ((phase.code &&& 1) <<< kPhaseShift) |||
    ((UInt32.ofNat step.toNat &&& kStepMask) <<< kStepShift) |||
    (UInt32.ofNat piece &&& kPieceMask))

def pieceElementsFor (config : Config) (elementSize : Nat) : Nat :=
  let requestedBytes :=
    if config.pipelinePieceBytes = 0 then kDefaultPieceBytes else config.pipelinePieceBytes
  max 1 (requestedBytes / elementSize)

def pieceCountFor (elementCount pieceElements : Nat) : Nat :=
  if elementCount = 0 then 0 else (elementCount + pieceElements - 1) / pieceElements

/-- `ring_collective_context`. The layout is recomputed by every call and the temporary buffer is
part of the rank's memory; `call` numbers the calls made on the context, for `Piece.call` only. -/
structure Context where
  config : Config
  rank : Nat
  worldSize : Nat
  sequence : UInt32
  call : Nat
  deriving DecidableEq, Repr

def effectiveConfig (config : Option Config) : Config :=
  match config with
  | none => { pipelinePieceBytes := kDefaultPieceBytes, maxInflight := kDefaultMaxInflight,
              transferMode := .auto }
  | some config =>
      { pipelinePieceBytes :=
          if config.pipelinePieceBytes = 0 then kDefaultPieceBytes else config.pipelinePieceBytes
        maxInflight :=
          if config.maxInflight = 0 then kDefaultMaxInflight
          else min config.maxInflight kMaxInflightLimit
        transferMode := config.transferMode }

/-- `rank` and `size` are what the transport reports. -/
def ringCollectiveCreate (rank size : Int) (config : Option Config) : Except Status Context :=
  if rank < 0 ∨ size ≤ 0 ∨ size ≤ rank then .error .transport
  else .ok { config := effectiveConfig config, rank := rank.toNat, worldSize := size.toNat,
             sequence := 0, call := 0 }

inductive Instr where
  /-- The caller hands over the buffers of a call. -/
  | load (call : Nat)
  /-- `memcpy(recvbuf, sendbuf, ..)` of an out-of-place call. -/
  | copyInput (count : Nat)
  | postRecv (post : Post)
  | postSend (post : Post)
  | waitRecv (post : Post)
  /-- `reduce_in_place` on `workbuf` from `destination` and the temporary buffer from `source`. -/
  | reduce (destination source count : Nat) (datatype : Datatype) (operation : Operation)
  | waitSend (post : Post)
  | storeOwned (block : Int)
  | advanceSequence
  | ret (status : Status)
  deriving DecidableEq, Repr

/-- One direction of a step: the block that moves and where its elements lie in this rank's
memory. -/
structure Flow where
  block : Nat
  blockCount : Nat
  buffer : Buffer
  start : Nat
  deriving DecidableEq, Repr

section Step

variable (context : Context) (phase : CollectivePhase) (step elementSize pieceElements : Nat)

/-- One turn of a posting loop, up to the post itself. -/
def postFor (flow : Flow) (piece : Nat) : Except Status Post :=
  let elementOffset := piece * pieceElements
  let elements := min pieceElements (flow.blockCount - elementOffset)
  let bytes := elements * elementSize
  match makeTag context.sequence phase step piece with
  | .error status => .error status
  | .ok tag => .ok
      { call := context.call, phase := phase, step := step, block := flow.block,
        pieceIndex := piece, elementOffset := elementOffset, elementCount := elements,
        bytes := bytes, tag := tag, mode := context.config.transferMode,
        buffer := flow.buffer, start := flow.start + elementOffset }

def batchPosts (flow : Flow) (batch : Nat) : List (Except Status Post) :=
  let batchCapacity := context.config.maxInflight
  let beginPiece := batch * batchCapacity
  let endPiece := beginPiece + batchCapacity
  let pieces := pieceCountFor flow.blockCount pieceElements
  (List.range' beginPiece (min endPiece pieces - beginPiece)).map
    (postFor context phase step elementSize pieceElements flow)

/-- The operations of a posting loop: a tag out of range leaves the function. -/
def postAll (make : Post → Instr) (posts : List (Except Status Post)) : List Instr :=
  posts.map fun
    | .ok post => make post
    | .error status => .ret status

/-- `recv_requests` or `send_requests` after the posting loop. -/
def posted (posts : List (Except Status Post)) : List Post :=
  posts.filterMap Except.toOption

/-- The body of the batch loop; `afterWait` is the body of the loop over `recv_requests`. -/
def batchBody (recv send : Flow) (afterWait : Post → List Instr) (batch : Nat) : List Instr :=
  let recvs := batchPosts context phase step elementSize pieceElements recv batch
  let sends := batchPosts context phase step elementSize pieceElements send batch
  postAll .postRecv recvs ++ postAll .postSend sends ++
    (posted recvs).flatMap afterWait ++ (posted sends).map .waitSend

def stepBody (recv send : Flow) (afterWait : Post → List Instr) : List Instr :=
  let batchCapacity := context.config.maxInflight
  let sendPieces := pieceCountFor send.blockCount pieceElements
  let recvPieces := pieceCountFor recv.blockCount pieceElements
  let totalBatches := (max sendPieces recvPieces + batchCapacity - 1) / batchCapacity
  (List.range totalBatches).flatMap
    (batchBody context phase step elementSize pieceElements recv send afterWait)

end Step

def Flow.ofBlock (layout : BlockLayout) (block : Nat) : Flow :=
  { block := block, blockCount := layout.counts.getD block 0, buffer := .workbuf,
    start := layout.offsets.getD block 0 }

/-- A step of the Reduce-Scatter: receive into the temporary buffer and reduce from there. -/
def reduceScatterStep (context : Context) (layout : BlockLayout) (datatype : Datatype)
    (operation : Operation) (step : Nat) : List Instr :=
  let elementSize := datatypeSize datatype
  let pieceElements := pieceElementsFor context.config elementSize
  let sendBlock := (positiveMod (context.rank - step) context.worldSize).toNat
  let recvBlock := (positiveMod (context.rank - step - 1) context.worldSize).toNat
  let send := Flow.ofBlock layout sendBlock
  let recv : Flow := { block := recvBlock, blockCount := layout.counts.getD recvBlock 0,
                       buffer := .temporary, start := 0 }
  stepBody context .reduceScatter step elementSize pieceElements recv send fun post =>
    [.waitRecv post,
     .reduce (layout.offsets.getD recvBlock 0 + post.elementOffset) post.elementOffset
       post.elementCount datatype operation]

/-- A step of the All-Gather: receive into the block's final place. -/
def allGatherStep (context : Context) (layout : BlockLayout) (datatype : Datatype) (step : Nat) :
    List Instr :=
  let elementSize := datatypeSize datatype
  let pieceElements := pieceElementsFor context.config elementSize
  let sendBlock := (positiveMod (context.rank - step + 1) context.worldSize).toNat
  let recvBlock := (positiveMod (context.rank - step) context.worldSize).toNat
  stepBody context .allGather step elementSize pieceElements (Flow.ofBlock layout recvBlock)
    (Flow.ofBlock layout sendBlock) fun post => [.waitRecv post]

/-- The block `ring_reduce_scatter_inplace` reports through `owned_block`. -/
def ownedBlock (context : Context) : Int := positiveMod (context.rank + 1) context.worldSize

/-- `ring_reduce_scatter_inplace`, up to its final `return PG_SUCCESS`. -/
def ringReduceScatterInplace (context : Context) (count : Nat) (datatype : Datatype)
    (operation : Operation) : List Instr :=
  if datatypeSize datatype = 0 then [.ret .unsupportedDatatype]
  else match computeBlockLayout count context.worldSize with
    | .error status => [.ret status]
    | .ok layout =>
        (List.range (context.worldSize - 1)).flatMap
          (reduceScatterStep context layout datatype operation) ++
        [.storeOwned (ownedBlock context)]

/-- `ring_all_gather_inplace`, up to its final `return PG_SUCCESS`. -/
def ringAllGatherInplace (context : Context) (count : Nat) (datatype : Datatype) (owned : Int) :
    List Instr :=
  if owned < 0 ∨ (context.worldSize : Int) ≤ owned then [.ret .invalidArgument]
  else if owned ≠ positiveMod (context.rank + 1) context.worldSize then [.ret .invalidArgument]
  else if datatypeSize datatype = 0 then [.ret .unsupportedDatatype]
  else match computeBlockLayout count context.worldSize with
    | .error status => [.ret status]
    | .ok layout =>
        (List.range (context.worldSize - 1)).flatMap (allGatherStep context layout datatype)

/-- `ring_all_reduce`. The All-Gather is given the block the Reduce-Scatter reported. -/
def ringAllReduce (context : Context) (inPlace : Bool) (count : Nat) (datatype : Datatype)
    (operation : Operation) : List Instr :=
  if count = 0 then [.ret .invalidArgument]
  else if datatypeSize datatype = 0 then [.ret .unsupportedDatatype]
  else
    (if inPlace then [] else [.copyInput count]) ++
    ringReduceScatterInplace context count datatype operation ++
    ringAllGatherInplace context count datatype (ownedBlock context) ++
    [.advanceSequence, .ret .success]

end RingAllReduce
