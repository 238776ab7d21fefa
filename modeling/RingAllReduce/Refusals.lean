import RingAllReduce.Acceptance

/-!
What becomes of an All-Reduce that all ranks make with the same arguments: all ranks carry it out,
all ranks return the same error, or some rank starves behind a neighbour that has returned one.
-/

namespace RingAllReduce

open Exchange Rotation

variable {Value : Type}

/-- All ranks have the same configuration and make All-Reduces. -/
structure Alike (setup : Setup Value) : Prop where
  config : ∀ rank < setup.worldSize, setup.config rank = setup.config 0
  calls : ∀ args ∈ setup.calls, args.kind = .allReduce

def Setup.blockPieces (setup : Setup Value) (args : Call Value) (block : Nat) : Nat :=
  pieceCountFor (blockCount args.count setup.worldSize block) (setup.pieceElements 0 args.datatype)

/-- All ranks carry the call out. -/
def Setup.Passes (setup : Setup Value) (args : Call Value) : Prop :=
  args.count ≠ 0 ∧ args.datatype.supported = true ∧ args.operation.supported = true ∧
    setup.worldSize ≤ 129 ∧ setup.blockPieces args 0 ≤ 4096

/-- Some ranks return an error before their successors have got from them what they wait for. -/
def Setup.Starves (setup : Setup Value) (args : Call Value) : Prop :=
  args.count ≠ 0 ∧ args.datatype.supported = true ∧
    if args.operation.supported then
      129 < setup.worldSize ∧ args.count ≤ 128 ∨
        4096 < setup.blockPieces args 0 ∧ setup.blockPieces args (setup.worldSize - 2) ≤ 4096
    else args.count < setup.worldSize

/-- All ranks return the error of a check that stands inside the loops. -/
def Setup.Refuses (setup : Setup Value) (args : Call Value) : Prop :=
  args.count ≠ 0 ∧ args.datatype.supported = true ∧
    if args.operation.supported then
      4096 < setup.blockPieces args (setup.worldSize - 2) ∨
        129 < setup.worldSize ∧ 129 ≤ args.count ∧ setup.blockPieces args 0 ≤ 4096
    else setup.worldSize ≤ args.count

section Blocks

variable {setup : Setup Value} {args : Call Value} {rank block : Nat}

theorem Alike.pieces_eq (alike : Alike setup) (bound : rank < setup.worldSize) (sequence : UInt32)
    (call : Nat) : (setup.context rank sequence call).pieces args.count args.datatype block =
      setup.blockPieces args block := by
  simp only [Context.pieces, Setup.blockPieces, Setup.context, Setup.pieceElements,
    alike.config rank bound]

theorem Setup.blockPieces_antitone (setup : Setup Value) (args : Call Value) {first second : Nat}
    (le : first ≤ second) : setup.blockPieces args second ≤ setup.blockPieces args first :=
  pieces_antitone (setup.context 0 0 0) args.count args.datatype le

theorem Setup.blockPieces_pos_iff (setup : Setup Value) (args : Call Value)
    (bound : block < setup.worldSize) : 0 < setup.blockPieces args block ↔ block < args.count :=
  pieces_pos_iff_lt (setup.context 0 0 0) args.count args.datatype bound

theorem Setup.blockPieces_le_one (setup : Setup Value) (args : Call Value)
    (few : args.count < setup.worldSize) (block : Nat) : setup.blockPieces args block ≤ 1 :=
  pieces_le_one (setup.context 0 0 0) args.datatype few block

theorem blockAt_eq_sub {worldSize rank stage : Nat} (le : stage ≤ rank) (bound : rank < worldSize) :
    blockAt worldSize rank stage = rank - stage := by
  rw [blockAt, Nat.mod_eq_of_lt (show stage < worldSize by omega),
    show rank + (worldSize - stage) = rank - stage + worldSize by omega, Nat.add_mod_right,
    Nat.mod_eq_of_lt (by omega)]

theorem blockAt_eq_add {worldSize rank stage : Nat} (less : rank < stage)
    (bound : stage < worldSize) : blockAt worldSize rank stage = rank + (worldSize - stage) := by
  rw [blockAt, Nat.mod_eq_of_lt bound, Nat.mod_eq_of_lt (by omega)]

/-- The three outcomes, besides the checks at the start of the call. -/
theorem Setup.outcomes (setup : Setup Value) {args : Call Value} (nonempty : args.count ≠ 0)
    (typed : args.datatype.supported = true) :
    setup.Passes args ∨ setup.Starves args ∨ setup.Refuses args := by
  by_cases known : args.operation.supported = true
  · have antitone := setup.blockPieces_antitone args (Nat.zero_le (setup.worldSize - 2))
    simp only [Passes, Starves, Refuses, nonempty, typed, known, if_true, ne_eq, not_false_eq_true,
      true_and]
    omega
  · simp only [Passes, Starves, Refuses, nonempty, typed, known, if_false, ne_eq,
      not_false_eq_true, true_and, Bool.false_eq_true, false_and, false_or]
    omega

end Blocks

/-- What the ranks wait for is what their predecessors send. -/
def Linked (setup : Setup Value) (code : Nat → List Instr) : Prop :=
  ∀ rank < setup.worldSize, ∀ post, .waitRecv post ∈ code (next setup.worldSize rank) →
    ∃ sent, .postSend sent ∈ code rank ∧ sent.toPiece = post.toPiece

section Linked

variable {setup : Setup Value} {left right : Nat → List Instr}

theorem Linked.append (linkedLeft : Linked setup left) (linkedRight : Linked setup right) :
    Linked setup fun rank => left rank ++ right rank := by
  intro rank bound post waits
  rcases List.mem_append.mp waits with inLeft | inRight
  · obtain ⟨sent, member, same⟩ := linkedLeft rank bound post inLeft
    exact ⟨sent, List.mem_append_left _ member, same⟩
  · obtain ⟨sent, member, same⟩ := linkedRight rank bound post inRight
    exact ⟨sent, List.mem_append_right _ member, same⟩

theorem Linked.flatMap {Index : Type} {indices : List Index} {code : Nat → Index → List Instr}
    (linked : ∀ index ∈ indices, Linked setup fun rank => code rank index) :
    Linked setup fun rank => indices.flatMap (code rank) := by
  intro rank bound post waits
  obtain ⟨index, indexIn, inCode⟩ := List.mem_flatMap.mp waits
  obtain ⟨sent, member, same⟩ := linked index indexIn rank bound post inCode
  exact ⟨sent, List.mem_flatMap.mpr ⟨index, indexIn, member⟩, same⟩

theorem Linked.of_no_wait (none : ∀ rank < setup.worldSize, ∀ post, .waitRecv post ∉ left rank) :
    Linked setup left := by
  intro rank bound post waits
  exact absurd waits (none _ (next_lt setup.positive rank) post)

theorem opening_no_wait (context : Context) (args : Call Value) (post : Post) :
    .waitRecv post ∉ Instr.load context.call :: args.copies context.rank := by
  unfold Call.copies
  split <;> simp

theorem opening_no_post (context : Context) (args : Call Value) (post : Post) :
    .postRecv post ∉ Instr.load context.call :: args.copies context.rank := by
  unfold Call.copies
  split <;> simp

end Linked

section Stages

variable {setup : Setup Value} (alike : Alike setup) (args : Call Value) (sequence : UInt32)
  (call : Nat)

include alike

theorem Alike.sendPost_of_recvPost {rank stage piece : Nat} (bound : rank < setup.worldSize)
    {post : Post} (made : recvPost (setup.context (next setup.worldSize rank) sequence call)
      args.count args.datatype stage piece = .ok post) :
    ∃ sent, sendPost (setup.context rank sequence call) args.count args.datatype stage piece =
      .ok sent ∧ sent.toPiece = post.toPiece := by
  have configs : setup.config (next setup.worldSize rank) = setup.config rank := by
    rw [alike.config _ (next_lt setup.positive rank), alike.config rank bound]
  have sameBlock := blockAt_next bound stage
  obtain ⟨tag, tagMade, rfl⟩ := postFor_ok made
  simp only [Setup.context] at tagMade
  cases sentMade : sendPost (setup.context rank sequence call) args.count args.datatype stage
      piece with
  | error status => simp [sendPost, postFor, Setup.context, tagMade] at sentMade
  | ok sent =>
      obtain ⟨tag', tagMade', rfl⟩ := postFor_ok sentMade
      obtain rfl : tag' = tag := by simpa [Setup.context, tagMade] using tagMade'.symm
      refine ⟨_, rfl, ?_⟩
      simp only [Setup.context, Context.received, Context.passedOn, receivedFlow_block,
        receivedFlow_blockCount, sentFlow, sameBlock, configs]

theorem Alike.sent_of_waited {rank stage turn : Nat} (bound : rank < setup.worldSize) {post : Post}
    (waits : .waitRecv post ∈ stageTurn (setup.context (next setup.worldSize rank) sequence call)
      args.count args.datatype args.operation stage turn) :
    ∃ piece sent, turn * (setup.context rank sequence call).config.maxInflight ≤ piece ∧
      piece < turn * (setup.context rank sequence call).config.maxInflight +
        (setup.context rank sequence call).config.maxInflight ∧
      piece < (setup.context rank sequence call).pieces args.count args.datatype
        ((setup.context rank sequence call).passedOn stage) ∧
      sendPost (setup.context rank sequence call) args.count args.datatype stage piece = .ok sent ∧
      sent.toPiece = post.toPiece := by
  obtain ⟨piece, lower, upper, inBlock, made⟩ := waitRecv_mem waits
  obtain ⟨sent, sentMade, same⟩ := alike.sendPost_of_recvPost args sequence call bound made
  have nextBound := next_lt setup.positive rank
  have sameBlock := blockAt_next bound stage
  have inFlight : (setup.context (next setup.worldSize rank) sequence call).config.maxInflight =
      (setup.context rank sequence call).config.maxInflight := by
    simp only [Setup.context, alike.config _ nextBound, alike.config rank bound]
  rw [inFlight] at lower upper
  refine ⟨piece, sent, lower, upper, ?_, sentMade, same⟩
  rw [alike.pieces_eq bound]
  rw [alike.pieces_eq nextBound] at inBlock
  simpa only [Context.received, Context.passedOn, Setup.context, sameBlock] using inBlock

theorem Alike.turn_linked (stage turn : Nat) : Linked setup fun rank =>
    stageTurn (setup.context rank sequence call) args.count args.datatype args.operation stage
      turn := by
  intro rank bound post waits
  obtain ⟨piece, sent, lower, upper, inBlock, made, same⟩ :=
    alike.sent_of_waited args sequence call bound waits
  exact ⟨sent, List.mem_append_left _ (List.mem_append_left _ (postSend_mem lower upper inBlock
    made)), same⟩

theorem Alike.stage_linked (stage : Nat) : Linked setup fun rank =>
    stageCode (setup.context rank sequence call) args.count args.datatype args.operation
      stage := by
  intro rank bound post waits
  simp only [stageCode_turns] at waits ⊢
  obtain ⟨_, -, inTurn⟩ := List.mem_flatMap.mp waits
  obtain ⟨piece, sent, -, -, inBlock, made, same⟩ :=
    alike.sent_of_waited args sequence call bound inTurn
  obtain ⟨turn, inside, lower, upper, -⟩ := exists_turn
    (effectiveConfig_maxInflight (setup.config rank)).1 (Or.inr inBlock)
  refine ⟨sent, List.mem_flatMap.mpr ⟨turn, List.mem_range.mpr inside, ?_⟩, same⟩
  exact List.mem_append_left _ (List.mem_append_left _ (postSend_mem lower upper inBlock made))

end Stages

def Instr.posts : Instr → Bool
  | .postRecv _ | .postSend _ => true
  | _ => false

/-- The calls of all ranks return the same error at a check, before which they only post after the
front part of the call; what a rank waits for in that part is what its predecessor sends in it. -/
structure Refusal (setup : Setup Value) (call : Nat) (status : Status) (front : Nat → List Instr) :
    Prop where
  error : status ≠ .success
  clear : ∀ rank < setup.worldSize, Clear (front rank)
  linked : Linked setup front
  split : ∀ rank < setup.worldSize, ∃ middle rest,
    setup.code rank call = front rank ++ (middle ++ rest) ∧
      (∃ instr ∈ middle, instr.rejection = some status) ∧
      ∀ instr ∈ middle, instr.posts = true ∨ instr.rejection = some status

section Code

variable {context : Context} {args : Call Value}

theorem callCode_scatter (bound : context.rank < context.worldSize)
    (kind : args.kind = .allReduce) (nonempty : args.count ≠ 0)
    (typed : args.datatype.supported = true) {early : Nat} (le : early ≤ context.worldSize - 1) :
    ∃ rest, callCode context args = (.load context.call :: args.copies context.rank ++
        (List.range early).flatMap
          (stageCode context args.count args.datatype args.operation)) ++
      ((List.range' early (context.worldSize - 1 - early)).flatMap
        (stageCode context args.count args.datatype args.operation) ++ rest) := by
  have accepted : args.accepted context.worldSize context.rank :=
    ⟨typed, by rw [kind]; exact nonempty⟩
  have stages : args.kind.scatterStages context.worldSize =
      List.range early ++ List.range' early (context.worldSize - 1 - early) := by
    have joined := @List.range'_append 0 early (context.worldSize - 1 - early) 1
    rw [kind, Kind.scatterStages, if_neg (by simp), List.range_eq_range', List.range_eq_range']
    simp only [Nat.zero_add, Nat.one_mul] at joined
    rw [joined, show early + (context.worldSize - 1 - early) = context.worldSize - 1 by omega]
  refine ⟨args.reports context ++ ((args.kind.gatherStages context.worldSize).flatMap
    (stageCode context args.count args.datatype args.operation) ++ args.kind.ending), ?_⟩
  rw [callCode_accepted context bound accepted, stages]
  simp only [List.cons_append, List.append_assoc, List.flatMap_append]

end Code

section Refusals

variable {setup : Setup Value} (alike : Alike setup) {call : Nat} {args : Call Value}
  (found : setup.calls[call]? = some args)

abbrev Setup.callContext (setup : Setup Value) (rank call : Nat) : Context :=
  setup.context rank (setup.sequenceAt call) call

include alike found

theorem Alike.code_clear (passes : setup.Passes args) {rank : Nat} (bound : rank < setup.worldSize) :
    Clear (setup.code rank call) := by
  obtain ⟨nonempty, typed, known, ranks, few⟩ := passes
  have kind := alike.calls args (List.mem_of_getElem? found)
  simp only [Setup.code, found]
  refine @callCode_clear _ (setup.callContext rank call) args bound ranks ⟨typed, ?_⟩ known ?_
  · rw [kind]
    exact nonempty
  · intro block _
    rw [alike.pieces_eq bound]
    exact (setup.blockPieces_antitone args (Nat.zero_le block)).trans few

theorem Alike.code_linked (nonempty : args.count ≠ 0) (typed : args.datatype.supported = true) :
    Linked setup fun rank => setup.code rank call := by
  have kind := alike.calls args (List.mem_of_getElem? found)
  have whole := fun rank (bound : rank < setup.worldSize) =>
    @callCode_accepted _ (setup.callContext rank call) args bound
      ⟨typed, by rw [kind]; exact nonempty⟩
  have staged := fun stages => @Linked.flatMap _ setup _ stages _
    fun stage _ => alike.stage_linked args (setup.sequenceAt call) call stage
  have linked : Linked setup fun rank => (.load call :: args.copies rank) ++
      ((args.kind.scatterStages setup.worldSize).flatMap (stageCode (setup.callContext rank call)
          args.count args.datatype args.operation) ++
        (args.reports (setup.callContext rank call) ++
          ((args.kind.gatherStages setup.worldSize).flatMap (stageCode
              (setup.callContext rank call) args.count args.datatype args.operation) ++
            args.kind.ending))) := by
    refine Linked.append (Linked.of_no_wait fun rank _ => opening_no_wait
      (setup.callContext rank call) args) ((staged _).append (Linked.append
        (Linked.of_no_wait fun rank _ post waits => ?_) ((staged _).append
          (Linked.of_no_wait fun rank _ post waits => ?_))))
    · unfold Call.reports at waits
      split at waits <;> simp at waits
    · rw [kind] at waits
      simp [Kind.ending] at waits
  intro rank bound post waits
  simp only [Setup.code, found] at waits ⊢
  rw [whole _ (next_lt setup.positive rank)] at waits
  rw [whole rank bound]
  exact linked rank bound post waits

omit alike in
/-- An empty array or an unknown type is rejected before the first step. -/
theorem code_at_entry (kind : args.kind = .allReduce)
    (rejected : ¬ (args.count ≠ 0 ∧ args.datatype.supported = true)) :
    ∃ status, (status = .invalidArgument ∨ status = .unsupportedDatatype) ∧
      ∀ rank, setup.code rank call = [.load call, .ret status] := by
  by_cases empty : args.count = 0
  · refine ⟨.invalidArgument, Or.inl rfl, fun rank => ?_⟩
    simp [Setup.code, found, callCode, kind, ringAllReduce, empty, Setup.context]
  · have untyped : datatypeSize args.datatype = 0 := by
      rw [datatypeSize_eq_zero]
      simpa [empty] using rejected
    refine ⟨.unsupportedDatatype, Or.inr rfl, fun rank => ?_⟩
    simp [Setup.code, found, callCode, kind, ringAllReduce, empty, untyped, Setup.context]

theorem Alike.refusal_at_entry (rejected : ¬ (args.count ≠ 0 ∧ args.datatype.supported = true)) :
    ∃ status, Refusal setup call status (fun _ => [.load call]) ∧ status ≠ .unsupportedOperation ∧
      status ≠ .tagRange := by
  obtain ⟨status, cause, code⟩ :=
    code_at_entry found (alike.calls args (List.mem_of_getElem? found)) rejected
  have error : status ≠ .success := by rcases cause with rfl | rfl <;> simp
  have others : status ≠ .unsupportedOperation ∧ status ≠ .tagRange := by
    rcases cause with rfl | rfl <;> simp
  have rejects : (Instr.ret status).rejection = some status := by simp [Instr.rejection, error]
  refine ⟨status, ⟨error, ?_, Linked.of_no_wait fun rank bound post waits => by simp at waits, ?_⟩,
    others⟩
  · intro rank bound instr member
    rw [List.mem_singleton.mp member]
    rfl
  · intro rank bound
    refine ⟨[.ret status], [], code rank, ⟨_, List.mem_singleton_self _, rejects⟩, ?_⟩
    intro instr member
    rw [List.mem_singleton.mp member]
    exact Or.inr rejects

omit alike found in
theorem stageStep_early {worldSize stage : Nat} (early : stage < worldSize - 1) :
    stageStep worldSize stage = stage := if_pos early

theorem Alike.code_at_turn (several : 2 ≤ setup.worldSize) (nonempty : args.count ≠ 0)
    (typed : args.datatype.supported = true) {rank turn : Nat} (bound : rank < setup.worldSize)
    (inside : turn < stageTurns (setup.callContext rank call) args.count args.datatype 0) :
    ∃ rest, setup.code rank call = (.load call :: args.copies rank ++ (List.range turn).flatMap
        (stageTurn (setup.callContext rank call) args.count args.datatype args.operation 0)) ++
      (stageTurn (setup.callContext rank call) args.count args.datatype args.operation 0 turn ++
        rest) := by
  have kind := alike.calls args (List.mem_of_getElem? found)
  obtain ⟨rest, code⟩ := @callCode_scatter _ (setup.callContext rank call) args bound kind nonempty
    typed 0 (Nat.zero_le _)
  obtain ⟨others, count⟩ := Nat.exists_eq_succ_of_ne_zero (show setup.worldSize - 1 - 0 ≠ 0 by omega)
  refine ⟨(List.range' (turn + 1) (stageTurns (setup.callContext rank call) args.count args.datatype 0 -
      (turn + 1))).flatMap (stageTurn (setup.callContext rank call) args.count args.datatype
        args.operation 0) ++ ((List.range' (0 + 1) others).flatMap (stageCode
          (setup.callContext rank call) args.count args.datatype args.operation) ++ rest), ?_⟩
  simp only [Setup.code, found]
  rw [code, show (setup.callContext rank call).worldSize - 1 - 0 = others + 1 from count,
    List.range'_succ, List.flatMap_cons, stageCode_split inside]
  simp only [List.range_zero, List.flatMap_nil, List.append_nil, List.cons_append, List.append_assoc]
  rfl

/-- What a rank performs of a call whose operation is unknown. -/
def operationFront (setup : Setup Value) (args : Call Value) (call rank : Nat) : List Instr :=
  (.load call :: args.copies rank) ++
    (turnPosting (setup.callContext rank call) args.count args.datatype 0 0 ++
      (posted [recvPost (setup.callContext rank call) args.count args.datatype 0 0]).map .waitRecv)

/-- An unknown operation is rejected at the first reduction, which no rank is without where no
block is empty. -/
theorem Alike.refusal_of_operation (several : 2 ≤ setup.worldSize)
    (typed : args.datatype.supported = true) (unknown : args.operation.supported = false)
    (full : setup.worldSize ≤ args.count) :
    Refusal setup call .unsupportedOperation (operationFront setup args call) := by
  have early : 0 < setup.worldSize - 1 := by omega
  have step : stageStep setup.worldSize 0 ≤ 127 := by rw [stageStep_early early]; omega
  have limit := fun rank => (effectiveConfig_maxInflight (setup.config rank))
  have limitEq : kMaxInflightLimit = 1024 := rfl
  have filled : ∀ rank < setup.worldSize, ∀ block < setup.worldSize,
      0 < (setup.callContext rank call).pieces args.count args.datatype block := by
    intro rank bound block blockBound
    rw [alike.pieces_eq bound, setup.blockPieces_pos_iff args blockBound]
    omega
  refine ⟨by simp, ?_, ?_, ?_⟩
  · intro rank bound
    apply Clear.append (opening_clear (setup.callContext rank call) args)
    apply Clear.append (turnPosting_clear fun piece inTurn => ⟨step, ?_⟩)
    · intro instr member
      obtain ⟨post, -, rfl⟩ := List.mem_map.mp member
      rfl
    · have upper := inTurn.2.1
      have most := (limit rank).2
      simp only [Setup.context, Nat.zero_mul, Nat.zero_add] at upper
      omega
  · intro rank bound post waits
    simp only [operationFront, List.mem_append] at waits
    rcases waits with opening | posting | waits
    · exact absurd opening (opening_no_wait (setup.callContext (next setup.worldSize rank) call) args
        post)
    · exact absurd posting (posting_no_wait post)
    · obtain ⟨other, postIn, isPost⟩ := List.mem_map.mp waits
      obtain rfl := Instr.waitRecv.inj isPost
      have made := List.mem_singleton.mp (mem_posted.mp postIn)
      obtain ⟨sent, sentMade, same⟩ := alike.sendPost_of_recvPost args _ call bound made.symm
      refine ⟨sent, List.mem_append_right _ (List.mem_append_left _ ?_), same⟩
      exact postSend_mem (by omega) (by have := (limit rank).1; simp only [Setup.context]; omega)
        (filled rank bound _ (blockAt_lt setup.positive _ _)) sentMade
  · intro rank bound
    have received := filled rank bound _ (blockAt_lt setup.positive rank (0 + 1))
    obtain ⟨post, later, made, turnEq, -⟩ := @stageCode_first _ _ _ args.operation _
      (limit rank).1 step received
    obtain ⟨turn, inside, -⟩ := exists_turn (limit rank).1 (Or.inl received)
    obtain ⟨rest, code⟩ := alike.code_at_turn found several (by omega) typed bound
      (Nat.lt_of_le_of_lt (Nat.zero_le turn) inside)
    have rejects := first_reduce_rejects received typed unknown made
    refine ⟨[.reduce (blockOffset args.count setup.worldSize
        ((setup.callContext rank call).received 0) + post.elementOffset) post.elementOffset
        post.elementCount args.datatype args.operation], later ++ rest, ?_,
      ⟨_, List.mem_singleton_self _, rejects _ _⟩, ?_⟩
    · have after : afterRecv (setup.callContext rank call) args.count args.datatype args.operation 0
          post = [.waitRecv post, _] := if_pos early
      rw [code, turnEq, after]
      simp only [operationFront, made, posted_ok, posted_nil, List.range_zero, List.flatMap_nil,
        List.append_nil, List.nil_append, List.cons_append, List.append_assoc, List.map_cons,
        List.map_nil]
      rfl
    · intro instr member
      rw [List.mem_singleton.mp member]
      exact Or.inr (rejects _ _)

def Setup.taggedTurns (setup : Setup Value) : Nat :=
  4096 / (effectiveConfig (setup.config 0)).maxInflight

/-- What a rank performs of a call whose blocks have too many pieces, before the batch in which it
comes to the first piece without a tag. -/
def piecesFront (setup : Setup Value) (args : Call Value) (call rank : Nat) : List Instr :=
  (.load call :: args.copies rank) ++ (List.range setup.taggedTurns).flatMap
    (stageTurn (setup.callContext rank call) args.count args.datatype args.operation 0)

theorem Alike.refusal_of_pieces (several : 2 ≤ setup.worldSize) (nonempty : args.count ≠ 0)
    (typed : args.datatype.supported = true) (known : args.operation.supported = true)
    (large : 4096 < setup.blockPieces args (setup.worldSize - 2)) :
    Refusal setup call .tagRange (piecesFront setup args call) := by
  have early : 0 < setup.worldSize - 1 := by omega
  have step : stageStep setup.worldSize 0 ≤ 127 := by rw [stageStep_early early]; omega
  have inflight := fun rank => (effectiveConfig_maxInflight (setup.config rank)).1
  have configs : ∀ rank < setup.worldSize, (setup.callContext rank call).config.maxInflight =
      (effectiveConfig (setup.config 0)).maxInflight := by
    intro rank bound
    simp only [Setup.context, alike.config rank bound]
  have below := Nat.div_mul_le_self 4096 (effectiveConfig (setup.config 0)).maxInflight
  have above := Nat.lt_mul_div_succ 4096 (inflight 0)
  rw [Nat.mul_succ, Nat.mul_comm] at above
  refine ⟨by simp, ?_, ?_, ?_⟩
  · intro rank bound
    apply Clear.append (opening_clear (setup.callContext rank call) args)
    intro instr member
    obtain ⟨turn, turnIn, inTurn⟩ := List.mem_flatMap.mp member
    have less := Nat.mul_le_mul_right (effectiveConfig (setup.config 0)).maxInflight
      (show turn + 1 ≤ setup.taggedTurns from List.mem_range.mp turnIn)
    refine stageTurn_clear typed (fun piece inPosts => ⟨step, ?_⟩) (fun _ _ => known) instr inTurn
    have upper := inPosts.2.1
    rw [configs rank bound] at upper
    rw [Nat.succ_mul, Setup.taggedTurns] at less
    omega
  · exact Linked.append
      (Linked.of_no_wait fun rank bound post =>
        opening_no_wait (setup.callContext rank call) args post)
      (Linked.flatMap fun turn _ => alike.turn_linked args _ call 0 turn)
  · intro rank bound
    have big : 4096 < (setup.callContext rank call).pieces args.count args.datatype
          ((setup.callContext rank call).received 0) ∨
        4096 < (setup.callContext rank call).pieces args.count args.datatype
          ((setup.callContext rank call).passedOn 0) := by
      rw [alike.pieces_eq bound, alike.pieces_eq bound]
      by_cases last : rank = setup.worldSize - 1
      · left
        have block : blockAt setup.worldSize rank (0 + 1) = setup.worldSize - 2 := by
          rw [blockAt_eq_sub (by omega) bound]
          omega
        change 4096 < setup.blockPieces args (blockAt setup.worldSize rank (0 + 1))
        rw [block]
        exact large
      · right
        have block : blockAt setup.worldSize rank 0 = rank := blockAt_eq_sub (Nat.zero_le _) bound
        have antitone := setup.blockPieces_antitone args (show rank ≤ setup.worldSize - 2 by omega)
        change 4096 < setup.blockPieces args (blockAt setup.worldSize rank 0)
        rw [block]
        omega
    have inTurn : Posts (setup.callContext rank call) args.count args.datatype 0 setup.taggedTurns
        4096 := ⟨by rw [configs rank bound]; exact below, by rw [configs rank bound]; exact above, big⟩
    obtain ⟨rest, code⟩ := alike.code_at_turn found several nonempty typed bound
      (turn_lt_of_posts (inflight rank) inTurn)
    refine ⟨turnPosting (setup.callContext rank call) args.count args.datatype 0 setup.taggedTurns,
      (posted (turnRecvs (setup.callContext rank call) args.count args.datatype 0
          setup.taggedTurns)).flatMap (afterRecv (setup.callContext rank call) args.count
            args.datatype args.operation 0) ++
        ((posted (turnSends (setup.callContext rank call) args.count args.datatype 0
          setup.taggedTurns)).map .waitSend ++ rest), ?_,
      ⟨_, posting_rejects inTurn (by omega), by simp [Instr.rejection]⟩, ?_⟩
    · rw [code]
      simp only [piecesFront, stageTurn, List.cons_append, List.append_assoc]
    · intro instr member
      rcases mem_turnPosting member with ⟨post, rfl | rfl⟩ | ⟨rfl, -⟩
      · exact Or.inl rfl
      · exact Or.inl rfl
      · exact Or.inr (by simp [Instr.rejection])

/-- What a rank performs of a call on too many ranks: the steps that have tags. -/
def ranksFront (setup : Setup Value) (args : Call Value) (call rank : Nat) : List Instr :=
  (.load call :: args.copies rank) ++ (List.range 128).flatMap
    (stageCode (setup.callContext rank call) args.count args.datatype args.operation)

theorem Alike.refusal_of_ranks (many : 129 < setup.worldSize) (full : 129 ≤ args.count)
    (typed : args.datatype.supported = true) (known : args.operation.supported = true)
    (few : setup.blockPieces args 0 ≤ 4096) :
    Refusal setup call .tagRange (ranksFront setup args call) := by
  have kind := alike.calls args (List.mem_of_getElem? found)
  have inflight := fun rank => (effectiveConfig_maxInflight (setup.config rank)).1
  have limited : ∀ rank < setup.worldSize, ∀ block,
      (setup.callContext rank call).pieces args.count args.datatype block ≤ 4096 := by
    intro rank bound block
    rw [alike.pieces_eq bound]
    exact (setup.blockPieces_antitone args (Nat.zero_le block)).trans few
  refine ⟨by simp, ?_, ?_, ?_⟩
  · intro rank bound
    apply Clear.append (opening_clear (setup.callContext rank call) args)
    intro instr member
    obtain ⟨stage, stageIn, inStage⟩ := List.mem_flatMap.mp member
    have less := List.mem_range.mp stageIn
    refine stageCode_clear typed (fun piece inBlock => ?_) (fun _ _ => known) instr inStage
    have received := limited rank bound ((setup.callContext rank call).received stage)
    have passedOn := limited rank bound ((setup.callContext rank call).passedOn stage)
    change stageStep setup.worldSize stage ≤ 127 ∧ _
    rw [stageStep_early (by omega)]
    omega
  · exact Linked.append
      (Linked.of_no_wait fun rank bound post =>
        opening_no_wait (setup.callContext rank call) args post)
      (Linked.flatMap fun stage _ => alike.stage_linked args _ call stage)
  · intro rank bound
    have filled : ∀ block < setup.worldSize, block ≤ 128 →
        0 < (setup.callContext rank call).pieces args.count args.datatype block := by
      intro block blockBound small
      rw [alike.pieces_eq bound, setup.blockPieces_pos_iff args blockBound]
      omega
    -- each rank comes to a block that is not empty in one of the steps without tags
    obtain ⟨stage, late, inScatter, inBlock⟩ : ∃ stage, 128 ≤ stage ∧ stage < setup.worldSize - 1 ∧
        (0 < (setup.callContext rank call).pieces args.count args.datatype
            ((setup.callContext rank call).received stage) ∨
          0 < (setup.callContext rank call).pieces args.count args.datatype
            ((setup.callContext rank call).passedOn stage)) := by
      rcases Nat.lt_trichotomy rank 128 with small | rfl | large
      · refine ⟨setup.worldSize - 2, by omega, by omega, Or.inl ?_⟩
        have block : blockAt setup.worldSize rank (setup.worldSize - 2 + 1) = rank + 1 := by
          rw [blockAt_eq_add (by omega) (by omega)]
          omega
        change 0 < (setup.callContext rank call).pieces _ _ (blockAt setup.worldSize rank _)
        rw [block]
        exact filled _ (by omega) (by omega)
      · refine ⟨128, by omega, by omega, Or.inr ?_⟩
        have block : blockAt setup.worldSize 128 128 = 0 := by
          rw [blockAt_eq_sub (by omega) bound]
        change 0 < (setup.callContext 128 call).pieces _ _ (blockAt setup.worldSize 128 _)
        rw [block]
        exact filled _ (by omega) (by omega)
      · refine ⟨rank - 1, by omega, by omega, Or.inl ?_⟩
        have block : blockAt setup.worldSize rank (rank - 1 + 1) = 0 := by
          rw [blockAt_eq_sub (by omega) bound]
          omega
        change 0 < (setup.callContext rank call).pieces _ _ (blockAt setup.worldSize rank _)
        rw [block]
        exact filled _ (by omega) (by omega)
    have rejections : ∀ instr ∈ (List.range' 128 (setup.worldSize - 1 - 128)).flatMap (stageCode
        (setup.callContext rank call) args.count args.datatype args.operation),
        instr = .ret .tagRange := by
      intro instr member
      obtain ⟨other, otherIn, inStage⟩ := List.mem_flatMap.mp member
      rw [List.mem_range'_1] at otherIn
      refine late_stage ?_ inStage
      change 127 < stageStep setup.worldSize other
      rw [stageStep_early (by omega)]
      omega
    obtain ⟨rest, code⟩ := @callCode_scatter _ (setup.callContext rank call) args bound kind
      (by omega) typed 128 (show 128 ≤ setup.worldSize - 1 by omega)
    refine ⟨(List.range' 128 (setup.worldSize - 1 - 128)).flatMap (stageCode
        (setup.callContext rank call) args.count args.datatype args.operation), rest, ?_,
      ⟨.ret .tagRange, List.mem_flatMap.mpr ⟨stage, ?_, ?_⟩, by simp [Instr.rejection]⟩, ?_⟩
    · simp only [Setup.code, found]
      exact code
    · rw [List.mem_range'_1]
      omega
    · refine stage_rejects_tag (inflight rank) inBlock ?_
      change ¬ (stageStep setup.worldSize stage ≤ 127 ∧ _)
      rw [stageStep_early inScatter]
      omega
    · intro instr member
      rw [rejections instr member]
      exact Or.inr (by simp [Instr.rejection])

theorem Alike.refusal_of_refuses (several : 2 ≤ setup.worldSize) (refuses : setup.Refuses args) :
    ∃ status front, Refusal setup call status front ∧
      (status = .unsupportedOperation ∨ status = .tagRange) := by
  obtain ⟨nonempty, typed, cause⟩ := refuses
  by_cases known : args.operation.supported = true
  · rw [if_pos known] at cause
    rcases cause with large | ⟨many, full, few⟩
    · exact ⟨_, _, alike.refusal_of_pieces found several nonempty typed known large, Or.inr rfl⟩
    · exact ⟨_, _, alike.refusal_of_ranks found many full typed known few, Or.inr rfl⟩
  · rw [if_neg known] at cause
    exact ⟨_, _, alike.refusal_of_operation found several typed (by simpa using known) cause,
      Or.inl rfl⟩

/-- A call that not all ranks carry out, and that makes no rank starve, is one that all ranks reject
with the same status. -/
theorem Alike.exists_refusal (several : 2 ≤ setup.worldSize) (fails : ¬ setup.Passes args)
    (fed : ¬ setup.Starves args) :
    ∃ status front, Refusal setup call status front ∧
      (setup.Refuses args ∨ status ≠ .unsupportedOperation ∧ status ≠ .tagRange) := by
  by_cases entered : args.count ≠ 0 ∧ args.datatype.supported = true
  · obtain ⟨nonempty, typed⟩ := entered
    have refuses := ((setup.outcomes nonempty typed).resolve_left fails).resolve_left fed
    obtain ⟨status, front, refusal, -⟩ := alike.refusal_of_refuses found several refuses
    exact ⟨status, front, refusal, Or.inl refuses⟩
  · obtain ⟨status, refusal, others⟩ := alike.refusal_at_entry found entered
    exact ⟨status, _, refusal, Or.inr others⟩

end Refusals

end RingAllReduce
