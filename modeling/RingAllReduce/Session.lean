import RingAllReduce.EndpointCollectives
import RingAllReduce.EndpointLife
import RingAllReduce.ProcessGroupLifetime

/-!
A whole session: every process connects its process group by its environment, all make the same calls
of `pg_all_reduce`, and each closes its group.
-/

namespace RingAllReduce.ProcessGroup

open EndpointRing VerbsTransport

variable {Value : Type}

/-- `pg_all_reduce`, with pointers that are not null. -/
def pgAllReduce (context : Context) (inPlace : Bool) (count : Int) (datatype : Datatype)
    (operation : Operation) : List Instr :=
  if count ≤ 0 then [.ret .invalidArgument]
  else ringAllReduce context inPlace count.toNat datatype operation

/-- A call of `pg_all_reduce` as all processes make it; the buffers are as for `Call`. -/
structure PgCall (Value : Type) where
  count : Int
  datatype : Datatype
  operation : Operation
  inPlace : Nat → Bool
  sendbuf : Nat → Nat → Value
  recvbuf : Nat → Nat → Value

def PgCall.collective (call : PgCall Value) : Call Value :=
  { kind := .allReduce, count := call.count.toNat, datatype := call.datatype
    operation := call.operation, inPlace := call.inPlace, owned := fun _ => 0
    sendbuf := call.sendbuf, workbuf := call.recvbuf }

theorem PgCall.code (call : PgCall Value) (context : Context) : callCode context call.collective =
    .load context.call :: pgAllReduce context (call.inPlace context.rank) call.count call.datatype
      call.operation := by
  simp only [callCode, PgCall.collective, pgAllReduce]
  split
  · rename_i none
    have zero : call.count.toNat = 0 := by omega
    rw [ringAllReduce, if_pos zero]
  · rfl

/-- Processes with the ranks of one ring, each with its process group. -/
structure Session (Value : Type) where
  worldSize : Nat
  environment : Nat → Environment
  servername : Nat → Option Text
  answers : Nat → Answers
  group : Nat → Group
  calls : List (PgCall Value)
  element : Datatype → Operation → Value → Value → Value
  memory : Nat → Memory Value
  positive : 0 < worldSize
  placed : ∀ rank < worldSize, environmentRank (environment rank) = rank ∧
    environmentWorldSize (environment rank) = worldSize
  connected : ∀ rank < worldSize, (connectProcessGroup (environment rank) (servername rank) true
    (answers rank)).result = .ok (group rank)

def Session.setup (session : Session Value) : Setup Value :=
  { worldSize := session.worldSize, positive := session.positive
    config := fun rank => (collectiveConfig (session.environment rank)).toOption
    element := session.element, calls := session.calls.map PgCall.collective
    memory := session.memory }

/-! What a process group is made of. -/

section Group

/-- A context runs with the configuration of its process' environment. -/
theorem Session.context (session : Session Value) {rank : Nat} (bound : rank < session.worldSize) :
    (session.group rank).collectives = session.setup.context rank 0 0 := by
  obtain ⟨-, -, -, config, isConfig, created⟩ :=
    connectProcessGroup_group (session.connected rank bound)
  obtain ⟨isRank, isSize⟩ := session.placed rank bound
  have alike := @Setup.context_created _ session.setup rank bound
  have same : session.setup.config rank = some config := by
    simp only [Session.setup, isConfig]
    rfl
  rw [same] at alike
  rw [isRank, isSize] at created
  exact Except.ok.inj (created.symm.trans alike)

/-- The code of a call of `pg_all_reduce` with the context of the process' group. -/
def Session.pgCode (session : Session Value) (rank number : Nat) : List Instr :=
  match session.calls[number]? with
  | some call =>
      .load number :: pgAllReduce
        { (session.group rank).collectives with
          sequence := session.setup.sequenceAt number, call := number }
        (call.inPlace rank) call.count call.datatype call.operation
  | none => []

/-- The runs of a session are those of its processes' groups. -/
theorem Session.code_eq (session : Session Value) {rank : Nat} (bound : rank < session.worldSize) :
    session.setup.code rank = session.pgCode rank := by
  funext number
  have isCall : session.setup.calls[number]? = session.calls[number]?.map PgCall.collective :=
    List.getElem?_map ..
  rw [Setup.code, Session.pgCode, isCall, session.context bound]
  cases session.calls[number]? with
  | none => rfl
  | some call => exact call.code _

end Group

/-! The configurations of the processes. -/

section Configs

variable {environment : Environment} {config : Config}

theorem parsed_positive {name : String} {value : Option Text} {defaultValue parsed : Int}
    (read : parsePositiveEnvironmentInt name value defaultValue = .ok parsed)
    (inside : 0 < defaultValue ∧ defaultValue ≤ intMax) : 0 < parsed ∧ parsed ≤ intMax := by
  unfold parsePositiveEnvironmentInt at read
  split at read
  · obtain rfl := Except.ok.inj read
    exact inside
  · obtain rfl := Except.ok.inj read
    exact inside
  · simp only at read
    split at read
    · cases read
    · rename_i accepted
      obtain rfl := Except.ok.inj read
      omega

theorem parsed_mode {value : Option Text} {mode : TransferMode}
    (read : parseTransferModeEnvironment value = .ok mode) (bytes : Nat) :
    ∃ chosen, chooseMode mode bytes = .ok chosen := by
  unfold parseTransferModeEnvironment at read
  split at read
  · obtain rfl := Except.ok.inj read
    exact ⟨_, rfl⟩
  · split at read
    · obtain rfl := Except.ok.inj read
      exact ⟨_, rfl⟩
    · split at read
      · obtain rfl := Except.ok.inj read
        exact ⟨_, rfl⟩
      · split at read
        · obtain rfl := Except.ok.inj read
          exact ⟨_, rfl⟩
        · cases read

theorem read_ok {Item Result : Type} {read : Except String Item} {rest : Item → Except String Result}
    {result : Result} (done : read >>= rest = .ok result) :
    ∃ item, read = .ok item ∧ rest item = .ok result := by
  cases read with
  | error text => cases done
  | ok item => exact ⟨item, rfl, done⟩

theorem collectiveConfig_ok (made : collectiveConfig environment = .ok config) :
    (∃ pieceBytes, parsePositiveEnvironmentInt "PG_PIPELINE_PIECE_BYTES" environment.pieceBytes
        (64 * 1024) = .ok pieceBytes ∧ config.pipelinePieceBytes = pieceBytes.toNat) ∧
      parseTransferModeEnvironment environment.transferMode = .ok config.transferMode := by
  unfold collectiveConfig at made
  obtain ⟨pieceBytes, readBytes, made⟩ := read_ok made
  obtain ⟨maxInflight, -, made⟩ := read_ok made
  obtain ⟨mode, readMode, made⟩ := read_ok made
  obtain rfl := Except.ok.inj made
  exact ⟨⟨pieceBytes, readBytes, rfl⟩, readMode⟩

theorem pieceBytes_bound (made : collectiveConfig environment = .ok config) :
    0 < config.pipelinePieceBytes ∧ config.pipelinePieceBytes < 2 ^ 31 := by
  obtain ⟨⟨bytes, read, same⟩, -⟩ := collectiveConfig_ok made
  obtain ⟨positive, small⟩ := parsed_positive read (by decide)
  simp only [intMax] at small
  omega

theorem pieceElementsFor_bytes (positive : 0 < config.pipelinePieceBytes) (elementSize : Nat) :
    pieceElementsFor (effectiveConfig (some config)) elementSize * elementSize ≤
      max elementSize config.pipelinePieceBytes := by
  have set : config.pipelinePieceBytes ≠ 0 := by omega
  simp only [effectiveConfig, pieceElementsFor, set, if_false]
  rcases Nat.le_total (config.pipelinePieceBytes / elementSize) 1 with single | many
  · rw [Nat.max_eq_left single, Nat.one_mul]
    exact Nat.le_max_left _ _
  · rw [Nat.max_eq_right many]
    exact (Nat.div_mul_le_self _ _).trans (Nat.le_max_right _ _)

end Configs

/-- The processes cut their blocks alike, their queues hold what they keep in flight, and the calls are
ones the collectives have tags for. -/
structure Session.Fits (session : Session Value) : Prop where
  ranks : session.worldSize ≤ 129
  alike : ∀ rank < session.worldSize,
    (session.environment rank).pieceBytes = (session.environment 0).pieceBytes ∧
      (session.environment rank).transferMode = (session.environment 0).transferMode
  inflight : ∀ rank < session.worldSize, ∀ config,
    collectiveConfig (session.environment rank) = .ok config →
      config.maxInflight ≤ VerbsRing.maxWorkRequests
  calls : ∀ call ∈ session.calls,
    0 < call.count ∧ call.datatype.supported = true ∧ call.operation.supported = true
  pieces : ∀ call ∈ session.calls, ∀ rank < session.worldSize, ∀ block < session.worldSize,
    pieceCountFor (blockCount call.count.toNat session.worldSize block)
      (session.setup.pieceElements rank call.datatype) ≤ 4096

section Fits

variable {session : Session Value} {rank : Nat}

theorem Session.exists_config (session : Session Value) (bound : rank < session.worldSize) :
    ∃ config, collectiveConfig (session.environment rank) = .ok config ∧
      session.setup.config rank = some config := by
  obtain ⟨-, -, -, config, isConfig, -⟩ := connectProcessGroup_group (session.connected rank bound)
  refine ⟨config, isConfig, ?_⟩
  simp only [Session.setup, isConfig]
  rfl

theorem Session.mem_calls {args : Call Value} (member : args ∈ session.setup.calls) :
    ∃ call ∈ session.calls, call.collective = args := List.mem_map.mp member

variable (fits : session.Fits)

include fits

theorem Session.Fits.alike_config (bound : rank < session.worldSize) : ∃ config first,
    session.setup.config rank = some config ∧ session.setup.config 0 = some first ∧
      config.pipelinePieceBytes = first.pipelinePieceBytes ∧
      config.transferMode = first.transferMode := by
  obtain ⟨config, made, isConfig⟩ := session.exists_config bound
  obtain ⟨first, madeFirst, isFirst⟩ := session.exists_config session.positive
  obtain ⟨⟨bytes, readBytes, isBytes⟩, readMode⟩ := collectiveConfig_ok made
  obtain ⟨⟨bytes', readBytes', isBytes'⟩, readMode'⟩ := collectiveConfig_ok madeFirst
  obtain ⟨sameBytes, sameMode⟩ := fits.alike rank bound
  rw [sameBytes, readBytes', Except.ok.injEq] at readBytes
  rw [sameMode, readMode', Except.ok.injEq] at readMode
  exact ⟨config, first, isConfig, isFirst, by rw [isBytes, isBytes', readBytes], readMode.symm⟩

theorem Session.Fits.pieceElements (bound : rank < session.worldSize) (datatype : Datatype) :
    session.setup.pieceElements rank datatype = session.setup.pieceElements 0 datatype := by
  obtain ⟨config, first, isConfig, isFirst, sameBytes, -⟩ := fits.alike_config bound
  simp only [Setup.pieceElements, isConfig, isFirst, effectiveConfig, pieceElementsFor, sameBytes]

omit fits in
theorem Session.small (session : Session Value) (bound : rank < session.worldSize) {piece : Piece}
    (member : piece ∈ session.setup.sent rank) : piece.bytes ≤ maxUInt32 := by
  obtain ⟨post, postIn, rfl⟩ := List.mem_map.mp member
  obtain ⟨batch, batchIn, sendIn⟩ := List.mem_flatMap.mp postIn
  obtain ⟨call, args, stage, index, -, -, -, rfl⟩ := session.setup.mem_plan batchIn
  obtain ⟨turn, -, made⟩ := mem_flowPosts.mp ((stageBatch_subset _ _ _ _ index).2 sendIn)
  obtain ⟨tag, -, rfl⟩ := postFor_ok made
  obtain ⟨config, isMade, isConfig⟩ := session.exists_config bound
  obtain ⟨positive, few⟩ := pieceBytes_bound isMade
  have within := pieceElementsFor_bytes positive (datatypeSize args.datatype)
  have size : datatypeSize args.datatype ≤ 8 := by cases args.datatype <;> simp [datatypeSize]
  have same : (session.setup.context rank (session.setup.sequenceAt call) call).config =
      effectiveConfig (some config) := by rw [Setup.context, isConfig]
  simp only [same]
  calc _ ≤ pieceElementsFor (effectiveConfig (some config)) (datatypeSize args.datatype) *
        datatypeSize args.datatype := Nat.mul_le_mul_right _ (Nat.min_le_left _ _)
    _ ≤ max (datatypeSize args.datatype) config.pipelinePieceBytes := within
    _ ≤ maxUInt32 := by simp only [maxUInt32]; omega

theorem Session.Fits.uniform : VerbsRing.Uniform session.setup := by
  constructor
  case samePieces =>
    intro rank bound args member
    exact (fits.pieceElements bound _).trans
      (fits.pieceElements (Rotation.next_lt session.positive rank) _).symm
  case mode =>
    obtain ⟨first, made, isFirst⟩ := session.exists_config session.positive
    obtain ⟨-, readMode⟩ := collectiveConfig_ok made
    refine ⟨first.transferMode, fun bytes => parsed_mode readMode bytes, fun rank bound => ?_⟩
    obtain ⟨config, other, isConfig, isOther, -, sameMode⟩ := fits.alike_config bound
    obtain rfl := Option.some.inj (isFirst.symm.trans isOther)
    rw [isConfig]
    exact sameMode
  case small => exact fun rank bound piece member => session.small bound member

theorem Session.Fits.acceptable : Acceptable session.setup := by
  constructor
  case ranks => exact fits.ranks
  case known =>
    intro args member _
    obtain ⟨call, isCall, rfl⟩ := Session.mem_calls member
    exact (fits.calls call isCall).2.2
  case calls =>
    intro args member rank bound
    obtain ⟨call, isCall, rfl⟩ := Session.mem_calls member
    obtain ⟨positive, typed, -⟩ := fits.calls call isCall
    refine ⟨typed, ?_⟩
    simp only [PgCall.collective]
    omega
  case pieces =>
    intro args member rank bound block blockBound
    obtain ⟨call, isCall, rfl⟩ := Session.mem_calls member
    exact fits.pieces call isCall rank bound block blockBound

theorem Session.Fits.shallow : VerbsRing.AllShallow session.setup := by
  intro rank bound args member block blockBound deep
  obtain ⟨config, made, isConfig⟩ := session.exists_config bound
  have many := lt_of_lt_of_le deep.many (Nat.min_le_left _ _)
  have few := fits.inflight rank bound config made
  rw [isConfig] at many
  simp only [effectiveConfig] at many
  split at many
  · exact absurd many (by decide)
  · omega

end Fits

/-! Runs of a session. -/

def Session.start (session : Session Value) : Ring :=
  { endpoints := fun rank =>
      if rank < session.worldSize then (session.group rank).transport else unused true true 0 0
    control := fun _ => [], sends := fun _ => [], recvs := fun _ => [], cq := fun _ => [] }

def Session.Reachable (session : Session Value) (platform : Platform) (room : Nat → Bool)
    (world : EndpointWorld Value) : Prop :=
  RingAllReduce.Reachable session.setup
    (endpointTransport Value platform room session.worldSize) session.start world

theorem Session.exists_sockets (session : Session Value) :
    ∃ sockets, session.start = EndpointRing.connected sockets := by
  have each : ∀ rank, ∃ pair : Nat × Nat,
      session.start.endpoints rank = unused true true pair.1 pair.2 := by
    intro rank
    by_cases bound : rank < session.worldSize
    · obtain ⟨-, -, ⟨nextSocket, previousSocket, same⟩, -⟩ :=
        connectProcessGroup_group (session.connected rank bound)
      exact ⟨(nextSocket, previousSocket), (if_pos bound).trans same⟩
    · exact ⟨(0, 0), if_neg bound⟩
  choose sockets isUnused using each
  refine ⟨sockets, ?_⟩
  rw [EndpointRing.connected, ← funext isUnused]
  rfl

variable {platform : Platform} {room : Nat → Bool}

/-- From the environment variables to the results: where the processes cut their blocks alike and do
not keep too much in flight, every run of a session ends, with all calls of `pg_all_reduce` successful
and the reduction of all inputs in every receive buffer. -/
theorem session_correct (session : Session Value) (fits : session.Fits)
    (wide : VerbsRing.Wide room) :
    (∀ rank < session.worldSize, session.setup.code rank = session.pgCode rank) ∧
    (∀ run : Nat → EndpointWorld Value, run 0 = initialWorld session.setup session.start →
      ¬ ∀ index, RingAllReduce.Step session.setup
        (endpointTransport Value platform room session.worldSize) (run index) (run (index + 1))) ∧
    (∀ world, session.Reachable platform room world →
      Runs.Terminal (RingAllReduce.Step session.setup
        (endpointTransport Value platform room session.worldSize)) world →
          ∀ rank < session.worldSize, (world.rank rank).todo = [] ∧
            (world.rank rank).results = List.replicate session.calls.length .success) ∧
    ∀ world, session.Reachable platform room world → ∀ rank < session.worldSize,
      ∀ number call, session.calls[number]? = some call →
        (world.rank rank).Returned number .success → ∀ block < session.worldSize, ∀ index,
          call.collective.inBlock session.worldSize block index →
            world.memory rank .workbuf index =
              ringFold (session.element call.datatype call.operation) (call.collective.input · index)
                session.worldSize block (session.worldSize - 1) := by
  obtain ⟨sockets, start⟩ := session.exists_sockets
  have lockstep := @endpoints_lockstep _ session.setup platform room fits.uniform wide fits.shallow
  refine ⟨fun rank bound => session.code_eq bound, ?_, ?_, ?_⟩
  · intro run begins
    apply lockstep.no_infinite (VerbsRing.workLeft session.setup)
      (fun _ _ reached step => VerbsRing.workLeft_decreases reached step)
    rw [begins, start]
    exact twin_start platform sockets session.setup
  · intro world reachable terminal rank bound
    rw [Session.Reachable, start] at reachable
    have ended := endpoints_ended fits.uniform wide fits.shallow fits.acceptable reachable terminal
      bound
    rwa [show session.setup.calls.length = session.calls.length from List.length_map _] at ended
  · intro world reachable rank bound number call found returned block blockBound index inside
    rw [Session.Reachable, start] at reachable
    have isCall : session.setup.calls[number]? = some call.collective :=
      (List.getElem?_map ..).trans (congrArg (Option.map PgCall.collective) found)
    have known : call.collective.known := fun _ => (fits.calls call (List.mem_of_getElem? found)).2.2
    exact endpoints_result fits.uniform wide fits.shallow reachable bound isCall returned known
      blockBound inside

def secondOfTwo : Environment := { firstOfTwo with rank := some ['1'] }

def ofTwo (rank : Nat) : Environment := if rank = 0 then firstOfTwo else secondOfTwo

theorem ofTwo_placed : ∀ rank < 2,
    environmentRank (ofTwo rank) = rank ∧ environmentWorldSize (ofTwo rank) = (2 : Nat) := by
  intro rank bound
  obtain rfl | rfl : rank = 0 ∨ rank = 1 := by omega
  all_goals decide

def groupOfTwo (rank : Nat) : Group :=
  { transport := unused true true 8 9
    collectives :=
      { config := { pipelinePieceBytes := 64 * 1024, maxInflight := 4, transferMode := .auto }
        rank := rank, worldSize := 2, sequence := 0, call := 0 }
    ownsTransport := true }

theorem ofTwo_connected : ∀ rank < 2,
    (connectProcessGroup (ofTwo rank) none true lateAnswers).result = .ok (groupOfTwo rank) := by
  intro rank bound
  obtain rfl | rfl : rank = 0 ∨ rank = 1 := by omega
  all_goals rfl

/-- Two processes, and one sum of four elements. -/
def pairSession : Session Nat :=
  { worldSize := 2, environment := ofTwo, servername := fun _ => none
    answers := fun _ => lateAnswers, group := groupOfTwo
    calls :=
      [{ count := 4, datatype := .int32, operation := .sum, inPlace := fun _ => false
         sendbuf := fun rank index => 10 * rank + index, recvbuf := fun _ _ => 0 }]
    element := fun _ _ destination source => destination + source
    memory := fun _ _ _ => 0
    positive := Nat.two_pos, placed := ofTwo_placed, connected := ofTwo_connected }

theorem pairSession_fits : pairSession.Fits := by
  constructor
  case ranks => decide
  case alike =>
    intro rank bound
    have place : rank < 2 := bound
    obtain rfl | rfl : rank = 0 ∨ rank = 1 := by omega
    all_goals exact ⟨rfl, rfl⟩
  case inflight =>
    intro rank bound config made
    have place : rank < 2 := bound
    obtain rfl | rfl : rank = 0 ∨ rank = 1 := by omega
    all_goals
      obtain rfl := Except.ok.inj made
      decide
  case calls =>
    intro call member
    obtain rfl := List.mem_singleton.mp member
    decide
  case pieces =>
    intro call member rank bound block blockBound
    obtain rfl := List.mem_singleton.mp member
    have place : rank < 2 := bound
    have blockPlace : block < 2 := blockBound
    obtain rfl | rfl : rank = 0 ∨ rank = 1 := by omega
    all_goals
      obtain rfl | rfl : block = 0 ∨ block = 1 := by omega
      all_goals decide

theorem session_correct_pair : ∃ world,
    pairSession.Reachable plainPlatform VerbsRing.createQp world ∧
    ∀ rank < 2, (world.rank rank).results = [.success] ∧
      ∀ index < 2, world.memory rank .workbuf index = 10 + 2 * index := by
  obtain ⟨-, -, ended, value⟩ := @session_correct _ plainPlatform _ pairSession pairSession_fits
    VerbsRing.createQp_wide
  obtain ⟨sockets, start⟩ := pairSession.exists_sockets
  have lockstep := @endpoints_lockstep _ pairSession.setup plainPlatform _ pairSession_fits.uniform
    VerbsRing.createQp_wide pairSession_fits.shallow
  obtain ⟨world, reachable, terminal⟩ := lockstep.exists_terminal (VerbsRing.workLeft pairSession.setup)
    (fun _ _ reached step => VerbsRing.workLeft_decreases reached step) .refl
    (twin_start plainPlatform sockets pairSession.setup)
  rw [← start] at reachable
  refine ⟨world, reachable, fun rank bound => ?_⟩
  obtain ⟨idle, results⟩ := ended world reachable terminal rank bound
  refine ⟨results, fun index inside => ?_⟩
  have returned : (world.rank rank).Returned 0 .success :=
    ⟨idle, by rw [results]; rfl, by rw [results]; rfl⟩
  have held : world.memory rank .workbuf index = (10 * 1 + index) + (10 * 0 + index) :=
    value world reachable rank bound 0 _ rfl returned 0 (by decide) index ⟨Nat.zero_le _, inside⟩
  omega

/-- Whatever the processes call, and where a queue is full or descriptors do not fit too, each of them
can close its group at any time: nothing is left of what it acquired, and all of it was released once
and before what it rests on. -/
theorem session_closed (session : Session Value) {world : EndpointWorld Value}
    (reachable : session.Reachable platform room world) {rank : Nat}
    (bound : rank < session.worldSize) :
    session.setup.code rank = session.pgCode rank ∧
    ∀ order, order.Perm (world.net.endpoints rank).pendingRequests → ∃ closing,
      pgClose { session.group rank with transport := world.net.endpoints rank } order =
          some closing ∧
        Leases.ledger Resource.bases ∅
          ((connectProcessGroup (session.environment rank) (session.servername rank) true
            (session.answers rank)).actions ++
              resourceActions (world.net.endpoints rank).trace ++ closing) = some ∅ := by
  obtain ⟨sockets, start⟩ := session.exists_sockets
  rw [Session.Reachable, start] at reachable
  have used := endpoint_reachable reachable rank
  have isFirst : (session.group rank).transport =
      unused true true (sockets rank).1 (sockets rank).2 :=
    (if_pos bound).symm.trans (congrFun (congrArg Ring.endpoints start) rank)
  refine ⟨session.code_eq bound, fun order iterated => ?_⟩
  exact group_settled (session.connected rank bound) (by rw [isFirst]; exact used) iterated

/-- The second process closes its group with a receive and a send pending. -/
theorem session_closed_pending : ∃ world,
    pairSession.Reachable plainPlatform VerbsRing.createQp world ∧
    (world.net.endpoints 1).pendingRequests = [2, 1] ∧ ∃ closing,
      pgClose { pairSession.group 1 with transport := world.net.endpoints 1 } [1, 2] =
        some closing ∧
      Leases.ledger Resource.bases ∅ ((connectProcessGroup secondOfTwo none true lateAnswers).actions ++
        resourceActions (world.net.endpoints 1).trace ++ closing) = some ∅ := by
  have ran : (Runs.follow (fun rank world => if rank < 2 then rankStep pairSession.setup
      (endpointTransport Nat plainPlatform VerbsRing.createQp 2) rank world else none)
        [0, 0, 0, 0, 1, 1, 1, 1, 0, 1] (initialWorld pairSession.setup pairSession.start)).map
          (fun world => (world.net.endpoints 1).pendingRequests) = some [2, 1] := by
    decide +kernel
  obtain ⟨world, followed, pending⟩ := Option.map_eq_some_iff.mp ran
  have reachable : pairSession.Reachable plainPlatform VerbsRing.createQp world := by
    apply Runs.reachable_of_follow _ followed
    intro rank before after moved
    split at moved
    · exact .rank rank ‹_› moved
    · simp at moved
  obtain ⟨closing, closed, settled⟩ := (session_closed pairSession reachable
    (show 1 < pairSession.worldSize by decide)).2 [1, 2] (by rw [pending]; decide)
  exact ⟨world, reachable, pending, closing, closed, settled⟩

end RingAllReduce.ProcessGroup
