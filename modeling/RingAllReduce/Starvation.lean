import RingAllReduce.Refusals

/-!
Calls whose arguments some ranks reject while others wait for them: the first block a rank has to do
with may be empty, small enough for the tags, or free of steps without tags, and its neighbour's not.
-/

namespace RingAllReduce

open Exchange Rotation

variable {Value : Type} {setup : Setup Value} (alike : Alike setup) {call : Nat} {args : Call Value}
  (found : setup.calls[call]? = some args)

/-- A rank returns an error at a stage, and its successor, which none of its own checks stops before,
waits for a piece of the next stage. -/
structure Starvation (setup : Setup Value) (call : Nat) (args : Call Value) (rank stage : Nat) :
    Prop where
  bound : rank < setup.worldSize
  stageIn : stage ∈ args.kind.stages setup.worldSize
  rejects : ∃ instr ∈ stageCode (setup.callContext rank call) args.count args.datatype
    args.operation stage, instr.rejection ≠ none
  waits : ∃ front post rest, setup.code (next setup.worldSize rank) call =
      front ++ .waitRecv post :: rest ∧ Clear front ∧ post.call = call ∧
    post.stage setup.worldSize = stage + 1

include alike found

theorem Alike.starvation (nonempty : args.count ≠ 0) (typed : args.datatype.supported = true)
    {rank stage : Nat} (bound : rank < setup.worldSize)
    (inside : stage + 1 < 2 * (setup.worldSize - 1))
    (rejects : ∃ instr ∈ stageCode (setup.callContext rank call) args.count args.datatype
      args.operation stage, instr.rejection ≠ none)
    (clear : ∀ other ≤ stage, Clear (stageCode (setup.callContext (next setup.worldSize rank) call)
      args.count args.datatype args.operation other))
    (step : stageStep setup.worldSize (stage + 1) ≤ 127)
    (filled : 0 < setup.blockPieces args (blockAt setup.worldSize rank (stage + 1))) :
    Starvation setup call args rank stage := by
  have kind := alike.calls args (List.mem_of_getElem? found)
  have nextBound := next_lt setup.positive rank
  have limit := effectiveConfig_maxInflight (setup.config (next setup.worldSize rank))
  have limitEq : kMaxInflightLimit = 1024 := rfl
  refine ⟨bound, mem_stages_allReduce kind (by omega), rejects, ?_⟩
  generalize contextEq : setup.callContext (next setup.worldSize rank) call = context at clear ⊢
  have worldSize : context.worldSize = setup.worldSize := by rw [← contextEq]; rfl
  have place : context.rank = next setup.worldSize rank := by rw [← contextEq]; rfl
  have received : 0 < context.pieces args.count args.datatype (context.received (stage + 1)) := by
    rw [← contextEq, alike.pieces_eq nextBound]
    change 0 < setup.blockPieces args (blockAt setup.worldSize (next setup.worldSize rank) _)
    rwa [blockAt_next bound]
  have inflight : 0 < context.config.maxInflight ∧ context.config.maxInflight ≤ 1024 := by
    rw [← contextEq]
    exact ⟨limit.1, limit.2⟩
  rw [← worldSize] at step
  obtain ⟨post, later, made, turnEq, -⟩ := @stageCode_first context args.count args.datatype
    args.operation (stage + 1) inflight.1 step received
  obtain ⟨turn, turnInside, -⟩ := exists_turn inflight.1 (Or.inl received)
  obtain ⟨before, after, earlier, codeEq, -, less, split⟩ := @callCode_at_stage _ context args
    (by rw [place, worldSize]; exact nextBound) ⟨typed, by rw [kind]; exact nonempty⟩ (stage + 1)
    (mem_stages_allReduce kind (by rw [worldSize]; exact inside))
  have waits : ∃ tail, afterRecv context args.count args.datatype args.operation (stage + 1) post =
      .waitRecv post :: tail := by
    unfold afterRecv
    split
    · exact ⟨_, rfl⟩
    · exact ⟨_, rfl⟩
  obtain ⟨tail, waitsEq⟩ := waits
  obtain ⟨tag, -, postEq⟩ := postFor_ok made
  refine ⟨before ++ turnPosting context args.count args.datatype (stage + 1) 0, post,
    tail ++ (later ++ ((List.range' (0 + 1) (stageTurns context args.count args.datatype (stage + 1) -
      (0 + 1))).flatMap (stageTurn context args.count args.datatype args.operation (stage + 1)) ++
        after)), ?_, ?_, ?_, ?_⟩
  · simp only [Setup.code, found]
    change callCode (setup.callContext (next setup.worldSize rank) call) args = _
    rw [contextEq, codeEq, stageCode_split (Nat.lt_of_le_of_lt (Nat.zero_le turn) turnInside), turnEq,
      waitsEq]
    simp only [List.range_zero, List.flatMap_nil, List.nil_append, List.cons_append,
      List.append_assoc]
  · apply Clear.append
    · intro instr member
      rcases split instr member with opening | ⟨other, otherIn, inStage⟩
      · rw [← List.cons_append] at opening
        exact (opening_clear context args).append (reports_clear context args) instr opening
      · exact clear other (Nat.le_of_lt_succ (less other otherIn)) instr inStage
    · apply turnPosting_clear
      intro piece inTurn
      have upper := inTurn.2.1
      exact ⟨step, by omega⟩
  · rw [postEq]
    change context.call = call
    rw [← contextEq]
    rfl
  · rw [← worldSize]
    exact stage_of_phase (by rw [postEq]) (by rw [postEq])

/-- The stage at which the first rank that owns no element waits for one that has met the unknown
operation. -/
theorem Alike.starvation_of_operation (several : 2 ≤ setup.worldSize) (nonempty : args.count ≠ 0)
    (typed : args.datatype.supported = true) (unknown : args.operation.supported = false)
    (few : args.count < setup.worldSize) : Starvation setup call args args.count 0 := by
  have early : 0 < setup.worldSize - 1 := by omega
  have step : ∀ stage ≤ 1, stageStep setup.worldSize stage ≤ 127 := by
    intro stage le
    unfold stageStep
    split <;> omega
  have inflight := fun rank => (effectiveConfig_maxInflight (setup.config rank)).1
  have nextBound := next_lt setup.positive args.count
  have last : blockAt setup.worldSize args.count (0 + 1) = args.count - 1 :=
    blockAt_eq_sub (by omega) few
  have filled : 0 < setup.blockPieces args (blockAt setup.worldSize args.count (0 + 1)) := by
    rw [last, setup.blockPieces_pos_iff args (by omega)]
    omega
  refine alike.starvation found nonempty typed few (by omega) ?_ ?_ (step _ (by omega)) filled
  · refine stage_rejects_operation (inflight _) early ?_ typed unknown
    rw [alike.pieces_eq few]
    exact filled
  · intro other le
    obtain rfl : other = 0 := by omega
    -- the block received first is empty
    have none : ¬ 0 < setup.blockPieces args
        (blockAt setup.worldSize (next setup.worldSize args.count) (0 + 1)) := by
      rw [blockAt_next few, blockAt_eq_sub (Nat.zero_le _) few,
        setup.blockPieces_pos_iff args (by omega)]
      omega
    refine stageCode_clear typed (fun piece inBlock => ⟨step 0 (by omega), ?_⟩) fun _ some => ?_
    · rw [alike.pieces_eq nextBound, alike.pieces_eq nextBound] at inBlock
      have single := setup.blockPieces_le_one args few
      have first := single ((setup.callContext (next setup.worldSize args.count) call).received 0)
      have second := single ((setup.callContext (next setup.worldSize args.count) call).passedOn 0)
      omega
    · rw [alike.pieces_eq nextBound] at some
      exact absurd some none

/-- A rank whose last steps move empty blocks only goes on to the All-Gather and waits there for one
that has come to a step without tags. -/
theorem Alike.starvation_of_ranks (many : 129 < setup.worldSize) (nonempty : args.count ≠ 0)
    (typed : args.datatype.supported = true) (known : args.operation.supported = true)
    (few : args.count ≤ 128) : ∃ rank, Starvation setup call args rank (setup.worldSize - 2) := by
  have inflight := fun rank => (effectiveConfig_maxInflight (setup.config rank)).1
  obtain ⟨rank, bound, isNext⟩ := exists_prev (show args.count - 1 < setup.worldSize by omega)
  have block : blockAt setup.worldSize rank (setup.worldSize - 2 + 1) = args.count - 1 := by
    rw [← isNext, ← blockAt_next bound, isNext,
      show setup.worldSize - 2 + 1 + 1 = setup.worldSize by omega, blockAt, Nat.mod_self,
      Nat.sub_zero, Nat.add_mod_right, Nat.mod_eq_of_lt (by omega)]
  have filled : 0 < setup.blockPieces args (blockAt setup.worldSize rank (setup.worldSize - 2 + 1)) := by
    rw [block, setup.blockPieces_pos_iff args (by omega)]
    omega
  have step : stageStep setup.worldSize (setup.worldSize - 2 + 1) ≤ 127 := by
    rw [stageStep, if_neg (by omega)]
    omega
  refine ⟨rank, alike.starvation found nonempty typed bound (by omega) ?_ ?_ step filled⟩
  · refine ⟨_, @stage_rejects_tag _ _ _ _ _ (inflight _) 0 (Or.inl ?_) ?_,
      by simp [Instr.rejection]⟩
    · rw [alike.pieces_eq bound]
      exact filled
    · change ¬ (stageStep setup.worldSize (setup.worldSize - 2) ≤ 127 ∧ _)
      rw [stageStep_early (by omega)]
      omega
  · intro other le
    rw [isNext]
    have small : args.count - 1 < setup.worldSize := by omega
    refine stageCode_clear typed (fun piece inBlock => ?_) fun _ _ => known
    rw [alike.pieces_eq small, alike.pieces_eq small] at inBlock
    change stageStep setup.worldSize other ≤ 127 ∧ _
    rw [stageStep_early (by omega)]
    have single := setup.blockPieces_le_one args (by omega)
    have first := single ((setup.callContext (args.count - 1) call).received other)
    have second := single ((setup.callContext (args.count - 1) call).passedOn other)
    refine ⟨?_, by omega⟩
    by_contra late
    -- both blocks of a late step lie behind the elements
    have passedOn : blockAt setup.worldSize (args.count - 1) other =
        args.count - 1 + (setup.worldSize - other) := blockAt_eq_add (by omega) (by omega)
    have received : blockAt setup.worldSize (args.count - 1) (other + 1) =
        args.count - 1 + (setup.worldSize - (other + 1)) := blockAt_eq_add (by omega) (by omega)
    rcases inBlock with inReceived | inPassedOn
    · change piece < setup.blockPieces args (blockAt setup.worldSize (args.count - 1) (other + 1))
        at inReceived
      rw [received] at inReceived
      have inside := (setup.blockPieces_pos_iff args (by omega)).mp (Nat.zero_lt_of_lt inReceived)
      omega
    · change piece < setup.blockPieces args (blockAt setup.worldSize (args.count - 1) other)
        at inPassedOn
      rw [passedOn] at inPassedOn
      have inside := (setup.blockPieces_pos_iff args (by omega)).mp (Nat.zero_lt_of_lt inPassedOn)
      omega

/-- Where only the longer blocks have too many pieces, the rank behind the last of them waits for
one that has come to a piece without a tag. -/
theorem Alike.starvation_of_pieces (nonempty : args.count ≠ 0)
    (typed : args.datatype.supported = true) (known : args.operation.supported = true)
    (large : 4096 < setup.blockPieces args 0)
    (small : setup.blockPieces args (setup.worldSize - 2) ≤ 4096) :
    Starvation setup call args (args.count % setup.worldSize) 0 := by
  have inflight := fun rank => (effectiveConfig_maxInflight (setup.config rank)).1
  -- the longer blocks are those in front of the remainder
  have same : ∀ block, setup.blockPieces args block =
      if block < args.count % setup.worldSize then setup.blockPieces args 0
      else pieceCountFor (args.count / setup.worldSize) (setup.pieceElements 0 args.datatype) := by
    intro block
    simp only [Setup.blockPieces, blockCount]
    by_cases inside : block < args.count % setup.worldSize
    · simp only [inside, if_true, show 0 < args.count % setup.worldSize by omega]
    · simp only [inside, if_false, Nat.add_zero]
  have position : 0 < args.count % setup.worldSize ∧
      args.count % setup.worldSize ≤ setup.worldSize - 2 := by
    have first := same 0
    have last := same (setup.worldSize - 2)
    split at first <;> split at last <;> omega
  have short : ∀ block, args.count % setup.worldSize ≤ block →
      setup.blockPieces args block ≤ 4096 := by
    intro block le
    have here := same block
    have last := same (setup.worldSize - 2)
    rw [if_neg (by omega)] at here last
    omega
  have bound : args.count % setup.worldSize < setup.worldSize := by omega
  have step : ∀ stage ≤ 1, stageStep setup.worldSize stage ≤ 127 := by
    intro stage le
    unfold stageStep
    split <;> omega
  have long : 4096 < setup.blockPieces args
      (blockAt setup.worldSize (args.count % setup.worldSize) (0 + 1)) := by
    rw [blockAt_eq_sub (by omega) bound, same, if_pos (by omega)]
    exact large
  have successor : next setup.worldSize (args.count % setup.worldSize) =
      args.count % setup.worldSize + 1 := by
    rw [next_eq bound, if_neg (by omega)]
  refine alike.starvation found nonempty typed bound (by omega) ?_ ?_ (step _ (by omega)) (by omega)
  · refine ⟨_, @stage_rejects_tag _ _ _ _ _ (inflight _) 4096 (Or.inl ?_) (by omega),
      by simp [Instr.rejection]⟩
    rw [alike.pieces_eq bound]
    exact long
  · intro other le
    obtain rfl : other = 0 := by omega
    have nextBound := next_lt setup.positive (args.count % setup.worldSize)
    refine stageCode_clear typed (fun piece inBlock => ⟨step 0 (by omega), ?_⟩) fun _ _ => known
    rw [alike.pieces_eq nextBound, alike.pieces_eq nextBound] at inBlock
    have received := short (blockAt setup.worldSize
      (next setup.worldSize (args.count % setup.worldSize)) (0 + 1)) (by
        rw [blockAt_next bound, blockAt_eq_sub (Nat.zero_le _) bound]
        omega)
    have passedOn := short (blockAt setup.worldSize
      (next setup.worldSize (args.count % setup.worldSize)) 0) (by
        rw [blockAt_eq_sub (Nat.zero_le _) nextBound, successor]
        omega)
    rcases inBlock with inReceived | inPassedOn
    · have less : piece < _ := Nat.lt_of_lt_of_le inReceived received
      omega
    · have less : piece < _ := Nat.lt_of_lt_of_le inPassedOn passedOn
      omega

theorem Alike.exists_starvation (several : 2 ≤ setup.worldSize) (starves : setup.Starves args) :
    ∃ rank stage, Starvation setup call args rank stage := by
  obtain ⟨nonempty, typed, cause⟩ := starves
  split at cause
  · rename_i known
    rcases cause with ⟨many, few⟩ | ⟨large, small⟩
    · obtain ⟨rank, starved⟩ := alike.starvation_of_ranks found many nonempty typed known few
      exact ⟨rank, _, starved⟩
    · exact ⟨_, _, alike.starvation_of_pieces found nonempty typed known large small⟩
  · rename_i unknown
    exact ⟨_, _, alike.starvation_of_operation found several nonempty typed (by simpa using unknown)
      cause⟩

end RingAllReduce
