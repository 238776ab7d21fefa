import RingAllReduce.Library.TagQueue
import RingAllReduce.Schedule

/-!
The two ends of a link. A rank sends, stage by stage, the pieces its successor expects: the same
ones where both use the same piece size, and otherwise pieces of which already the first has the
wrong size. Along a schedule the pieces are strictly ordered.
-/

namespace RingAllReduce

open Exchange Rotation

variable {Value : Type}

/-- The place of a piece in a schedule: its tag, before the sequence number is cut to 12 bits. -/
def Piece.key (piece : Piece) : Nat :=
  piece.call * 2 ^ 20 + piece.phase.code.toNat * 2 ^ 19 + piece.step * 2 ^ 12 + piece.pieceIndex

theorem key_lt {call call' step step' index index' : Nat} {phase phase' : CollectivePhase}
    {first second : Piece} (firstCall : first.call = call) (secondCall : second.call = call')
    (firstPhase : first.phase = phase) (secondPhase : second.phase = phase')
    (firstStep : first.step = step) (secondStep : second.step = step')
    (firstIndex : first.pieceIndex = index) (secondIndex : second.pieceIndex = index')
    (stepBound : step ≤ 127) (indexBound : index ≤ 4095)
    (less : call < call' ∨ call = call' ∧ (phase.code.toNat < phase'.code.toNat ∨ phase = phase' ∧
      (step < step' ∨ step = step' ∧ index < index'))) : first.key < second.key := by
  have phaseBound := phase.code_toNat_lt
  unfold Piece.key
  rw [firstCall, secondCall, firstPhase, secondPhase, firstStep, secondStep, firstIndex, secondIndex]
  rcases less with less | ⟨rfl, less | ⟨rfl, less | ⟨rfl, less⟩⟩⟩ <;> omega

/-- The piece a posting turn is about, without the buffer it lies in. -/
def pieceFor (call : Nat) (sequence : UInt32) (phase : CollectivePhase)
    (step elementSize pieceElements block blockCount piece : Nat) : Option Piece :=
  (makeTag sequence phase step piece).toOption.map fun tag =>
    { call := call, phase := phase, step := step, block := block, pieceIndex := piece,
      elementOffset := piece * pieceElements,
      elementCount := min pieceElements (blockCount - piece * pieceElements),
      bytes := min pieceElements (blockCount - piece * pieceElements) * elementSize, tag := tag }

def flowPieces (call : Nat) (sequence : UInt32) (phase : CollectivePhase)
    (step elementSize block blockCount pieceElements : Nat) : List Piece :=
  (List.range (pieceCountFor blockCount pieceElements)).filterMap
    (pieceFor call sequence phase step elementSize pieceElements block blockCount)

theorem flowPosts_pieces (context : Context) (phase : CollectivePhase)
    (step elementSize pieceElements : Nat) (flow : Flow) :
    (flowPosts context phase step elementSize pieceElements flow).map Post.toPiece =
      flowPieces context.call context.sequence phase step elementSize flow.block flow.blockCount
        pieceElements := by
  rw [flowPosts, posted_map, List.map_filterMap, flowPieces]
  apply List.filterMap_congr
  intro piece _
  unfold postFor pieceFor
  cases makeTag context.sequence phase step piece <;> rfl

theorem flowPieces_aligned (call : Nat) (sequence : UInt32) (phase : CollectivePhase)
    (step block blockCount : Nat) {elementSize sent expected : Nat} (sized : 0 < elementSize)
    (sentPositive : 0 < sent) (expectedPositive : 0 < expected) :
    TagQueue.Aligned Piece.tag Piece.bytes
      (flowPieces call sequence phase step elementSize block blockCount sent)
      (flowPieces call sequence phase step elementSize block blockCount expected) := by
  have first : ∀ size, 0 < size → 0 < blockCount → pieceCountFor blockCount size =
      pieceCountFor blockCount size - 1 + 1 := by
    intro size positive nonempty
    have some := (Tiling.lt_tiles_iff blockCount positive 0).mpr (by omega)
    rw [pieceCountFor_eq positive]
    omega
  by_cases empty : blockCount = 0
  · exact Or.inl (by simp [flowPieces, pieceCountFor, empty])
  cases tagMade : makeTag sequence phase step 0 with
  | error status =>
      -- a step out of range: neither end posts anything
      have none : ∀ size, flowPieces call sequence phase step elementSize block blockCount size =
          [] := by
        intro size
        rw [flowPieces, List.filterMap_eq_nil_iff]
        intro piece _
        have stepRange := (makeTag_ok_iff sequence phase step 0).not.mp (by simp [tagMade])
        have untagged := (makeTag_ok_iff sequence phase step piece).not.mpr (by omega)
        unfold pieceFor
        cases made : makeTag sequence phase step piece with
        | error status => rfl
        | ok tag => exact absurd ⟨tag, made⟩ untagged
      exact Or.inl (by rw [none, none])
  | ok tag =>
      by_cases same : min sent blockCount = min expected blockCount
      · by_cases equal : sent = expected
        · exact Or.inl (by rw [equal])
        · have single : ∀ size, 0 < size → blockCount ≤ size →
              flowPieces call sequence phase step elementSize block blockCount size =
                (pieceFor call sequence phase step elementSize blockCount block blockCount
                  0).toList := by
            intro size positive large
            have one : pieceCountFor blockCount size = 1 := by
              have bound := (Tiling.lt_tiles_iff blockCount positive 1).not.mpr (by omega)
              rw [first size positive (by omega), pieceCountFor_eq positive]
              omega
            rw [flowPieces, one, List.range_one, List.filterMap_cons, List.filterMap_nil]
            simp [pieceFor, tagMade, large, Except.toOption]
          left
          rw [single sent sentPositive (by omega), single expected expectedPositive (by omega)]
      · right
        rw [flowPieces, flowPieces, first sent sentPositive (by omega),
          first expected expectedPositive (by omega), List.range_succ_eq_map,
          List.range_succ_eq_map, List.filterMap_cons, List.filterMap_cons]
        simp only [pieceFor, tagMade, Except.toOption, Option.map_some, Nat.zero_mul, Nat.sub_zero]
        refine ⟨_, _, _, _, rfl, rfl, rfl, ?_⟩
        intro equal
        exact same (Nat.eq_of_mul_eq_mul_right sized equal)

def Setup.sentAt (setup : Setup Value) (rank : Nat) (place : Nat × Nat) : List Piece :=
  (allSends (setup.batchesAt rank place)).map Post.toPiece

def Setup.expectedAt (setup : Setup Value) (rank : Nat) (place : Nat × Nat) : List Piece :=
  (allRecvs (setup.batchesAt rank place)).map Post.toPiece

def Setup.sent (setup : Setup Value) (rank : Nat) : List Piece :=
  (allSends (setup.plan rank)).map Post.toPiece

def Setup.expected (setup : Setup Value) (rank : Nat) : List Piece :=
  (allRecvs (setup.plan rank)).map Post.toPiece

def Setup.places (setup : Setup Value) : List (Nat × Nat) := setup.stagesUpTo setup.calls.length

theorem Setup.mem_places {setup : Setup Value} {place : Nat × Nat}
    (member : place ∈ setup.places) :
    ∃ args, setup.calls[place.1]? = some args ∧ args.datatype.supported = true := by
  obtain ⟨call, -, inCall⟩ := List.mem_flatMap.mp member
  split at inCall
  · rename_i args found
    split at inCall
    · rename_i typed
      obtain ⟨stage, -, rfl⟩ := List.mem_map.mp inCall
      exact ⟨args, found, typed⟩
    · simp at inCall
  · simp at inCall

theorem Setup.sent_eq (setup : Setup Value) (rank : Nat) :
    setup.sent rank = setup.places.flatMap (setup.sentAt rank) := by
  rw [sent, plan, planUpTo, allSends, List.flatMap_assoc, List.map_flatMap]
  rfl

theorem Setup.expected_eq (setup : Setup Value) (rank : Nat) :
    setup.expected rank = setup.places.flatMap (setup.expectedAt rank) := by
  rw [expected, plan, planUpTo, allRecvs, List.flatMap_assoc, List.map_flatMap]
  rfl

def Setup.pieceElements (setup : Setup Value) (rank : Nat) (datatype : Datatype) : Nat :=
  pieceElementsFor (effectiveConfig (setup.config rank)) (datatypeSize datatype)

/-- Both ends of every link cut their blocks into pieces of the same size. -/
def Setup.SamePieces (setup : Setup Value) : Prop :=
  ∀ rank < setup.worldSize, ∀ args ∈ setup.calls, setup.pieceElements rank args.datatype =
    setup.pieceElements (next setup.worldSize rank) args.datatype

section Ends

variable (setup : Setup Value) {rank : Nat}

theorem Setup.sentAt_eq (call stage : Nat) :
    setup.sentAt rank (call, stage) = match setup.calls[call]? with
      | some args => flowPieces call (setup.sequenceAt call) (stagePhase setup.worldSize stage)
          (stageStep setup.worldSize stage) (datatypeSize args.datatype)
          (blockAt setup.worldSize rank stage)
          (blockCount args.count setup.worldSize (blockAt setup.worldSize rank stage))
          (setup.pieceElements rank args.datatype)
      | none => [] := by
  unfold sentAt batchesAt
  cases setup.calls[call]? with
  | none => rfl
  | some args =>
      simp only
      rw [stageBatches, allSends_stepBatches (effectiveConfig_maxInflight _).1, flowPosts_pieces]
      rfl

theorem Setup.expectedAt_eq (call stage : Nat) :
    setup.expectedAt rank (call, stage) = match setup.calls[call]? with
      | some args => flowPieces call (setup.sequenceAt call) (stagePhase setup.worldSize stage)
          (stageStep setup.worldSize stage) (datatypeSize args.datatype)
          (blockAt setup.worldSize rank (stage + 1))
          (blockCount args.count setup.worldSize (blockAt setup.worldSize rank (stage + 1)))
          (setup.pieceElements rank args.datatype)
      | none => [] := by
  unfold expectedAt batchesAt
  cases setup.calls[call]? with
  | none => rfl
  | some args =>
      simp only
      rw [stageBatches, allRecvs_stepBatches (effectiveConfig_maxInflight _).1, flowPosts_pieces,
        receivedFlow_block, receivedFlow_blockCount]
      rfl

/-- Both ends of a link plan every stage alike, or disagree on the size of its first piece. -/
theorem Setup.link_aligned (bound : rank < setup.worldSize) {place : Nat × Nat}
    (member : place ∈ setup.places) :
    TagQueue.Aligned Piece.tag Piece.bytes (setup.sentAt rank place)
      (setup.expectedAt (next setup.worldSize rank) place) := by
  obtain ⟨call, stage⟩ := place
  obtain ⟨args, found, typed⟩ := setup.mem_places member
  rw [setup.sentAt_eq, setup.expectedAt_eq, blockAt_next bound, found]
  have sized : datatypeSize args.datatype ≠ 0 := by simp [datatypeSize_eq_zero, typed]
  exact flowPieces_aligned _ _ _ _ _ _ (by omega) (pieceElementsFor_pos _ _)
    (pieceElementsFor_pos _ _)

/-- While a link has delivered what was expected, the next piece sent has the tag of the next one
expected, and is that piece if its size is right. -/
theorem Setup.next_piece (bound : rank < setup.worldSize) {waited : List Piece} {want : Piece}
    (isSent : waited <+: setup.sent rank)
    (isExpected : waited ++ [want] <+: setup.expected (next setup.worldSize rank)) :
    ∃ got, (setup.sent rank)[waited.length]? = some got ∧ got.tag = want.tag ∧
      (got.bytes = want.bytes → got = want) := by
  rw [setup.sent_eq] at isSent ⊢
  rw [setup.expected_eq] at isExpected
  obtain ⟨rest, split⟩ := isExpected
  apply TagQueue.next_agrees (fun place member => setup.link_aligned bound member)
  · rw [← split, List.append_assoc, List.take_left, List.prefix_iff_eq_take.mp isSent]
    simp
  · rw [← split]
    simp

/-- With one piece size at both ends, what a rank sends is what its successor expects. -/
theorem Setup.sent_eq_expected (bound : rank < setup.worldSize)
    (same : ∀ args ∈ setup.calls, setup.pieceElements rank args.datatype =
      setup.pieceElements (next setup.worldSize rank) args.datatype) :
    setup.sent rank = setup.expected (next setup.worldSize rank) := by
  rw [setup.sent_eq, setup.expected_eq]
  apply List.flatMap_congr
  rintro ⟨call, stage⟩ -
  rw [setup.sentAt_eq, setup.expectedAt_eq, blockAt_next bound]
  cases found : setup.calls[call]? with
  | none => rfl
  | some args => simp only [same args (List.mem_of_getElem? found)]

end Ends

section Posted

variable {Request : Type} {setup : Setup Value} {rank : Nat} {state : RankState Request}

theorem OnSchedule.sends_isPrefix (onSchedule : OnSchedule setup rank state)
    (bound : rank < setup.worldSize) :
    (sendPosts (events state.log)).map Post.toPiece <+: setup.sent rank := by
  have ahead := ((onSchedule.events_log bound).filterMap Event.postedSend).map Post.toPiece
  rw [← sendPosts, ← sendPosts, sendPosts_run] at ahead
  exact ahead

theorem OnSchedule.recvs_isPrefix (onSchedule : OnSchedule setup rank state)
    (bound : rank < setup.worldSize) :
    (recvPosts (events state.log)).map Post.toPiece <+: setup.expected rank := by
  have ahead := ((onSchedule.events_log bound).filterMap Event.postedRecv).map Post.toPiece
  rw [← recvPosts, ← recvPosts, recvPosts_run] at ahead
  exact ahead

theorem OnSchedule.next_sent (onSchedule : OnSchedule setup rank state)
    (bound : rank < setup.worldSize) {post : Post} {rest : List Instr}
    (todo : state.todo = .postSend post :: rest) :
    (setup.sent rank)[(sendPosts (events state.log)).length]? = some post.toPiece := by
  obtain ⟨after, split⟩ := onSchedule.events_next bound todo rfl
  have whole := congrArg sendPosts split
  rw [sendPosts_run, sendPosts_append, sendPosts_cons] at whole
  rw [Setup.sent, whole, List.map_append, List.getElem?_append_right (by simp)]
  simp [Event.postedSend]

end Posted

end RingAllReduce
