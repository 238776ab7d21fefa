import Mathlib.Algebra.BigOperators.Group.List.Basic
import Mathlib.Data.List.Perm.Subperm
import RingAllReduce.PhaseValues

/-! Which additions an All-Reduce with `PG_INT32` and `PG_SUM` performs, and when none of them
overflows. -/

namespace RingAllReduce

open Exchange Rotation

section Operands

variable {Value Net Request : Type} {setup : Setup Value} {rank : Nat} {args : Call Value}

/-- The reductions of a stage that are over do not touch the one that comes next. -/
theorem lead_spares {context : Context} (inflight : 0 < context.config.maxInflight)
    {count stage : Nat} {datatype : Datatype} {operation : Operation} {lead after : List Instr}
    {destination source elements : Nat} {datatype' : Datatype} {operation' : Operation}
    (code : stageCode context count datatype operation stage =
      lead ++ .reduce destination source elements datatype' operation' :: after) {index : Nat}
    (inside : index < elements) :
    ∀ instr ∈ lead, ∃ start length, instr.writesIn start length ∧
      (destination + index < start ∨ start + length ≤ destination + index) := by
  obtain ⟨before, post, leadEq, postIn, early, destinationEq, -, elementsEq⟩ :=
    reduce_after_wait code
  have sizePos := pieceElementsFor_pos context.config (datatypeSize datatype)
  have nodup : (recvWaits (events lead)).Nodup := by
    have waits := congrArg recvWaits (events_stageCode context count datatype operation stage)
    rw [code, events_append, recvWaits_append, recvWaits_run, stageBatches,
      allRecvs_stepBatches inflight] at waits
    have all : (flowPosts context (stagePhase context.worldSize stage)
        (stageStep context.worldSize stage) (datatypeSize datatype)
        (pieceElementsFor context.config (datatypeSize datatype))
        (receivedFlow count context.worldSize stage
          (blockAt context.worldSize context.rank (stage + 1)))).Nodup :=
      nodup_of_sorted (posted_sorted _ _ _ _ _ _ List.pairwise_lt_range)
    rw [← waits] at all
    exact all.of_append_left
  intro instr member
  have silent : instr.silent = true → ∃ start length, instr.writesIn start length ∧
      (destination + index < start ∨ start + length ≤ destination + index) := by
    intro quiet
    refine ⟨destination + index + 1, 0, ?_, Or.inl (by omega)⟩
    cases instr <;> first | rfl | simp [Instr.silent] at quiet
  have inStage : instr ∈ stageCode context count datatype operation stage := by
    rw [code]
    exact List.mem_append_left _ member
  rcases mem_stepBody inStage with ⟨status, rfl⟩ | ⟨other, otherIn, rfl | waits⟩ |
    ⟨other, otherIn, rfl | rfl⟩
  · exact silent rfl
  · exact silent rfl
  · rw [if_pos early] at waits
    rcases List.mem_pair.mp waits with rfl | rfl
    · refine ⟨destination + index + 1, 0, Or.inl ?_, Or.inl (by omega)⟩
      rw [(flowPost_range sizePos otherIn).1, receivedFlow, if_pos early]
    · refine ⟨_, _, ⟨Nat.le_refl _, Nat.le_refl _⟩, ?_⟩
      by_contra overlap
      simp only [not_or, Nat.not_lt, Nat.not_le] at overlap
      obtain ⟨first, second, split⟩ := List.append_of_mem member
      have codeFirst := code
      rw [split, List.append_assoc, List.cons_append] at codeFirst
      obtain ⟨before', post', firstEq, postIn', -, destinationEq', -, elementsEq'⟩ :=
        reduce_after_wait codeFirst
      have same : post' = post := by
        apply flowPosts_apart sizePos postIn' postIn (post.elementOffset + index)
          ⟨by omega, by omega⟩ ⟨by omega, by omega⟩
      subst same
      -- the wait for the piece stands before the earlier reduction and at the end of `lead`
      rcases List.eq_nil_or_concat second with rfl | ⟨second, last, rfl⟩
      · rw [leadEq] at split
        have ends := List.append_inj_right' split rfl
        simp at ends
      · have ends : last = .waitRecv post' := by
          rw [leadEq, List.concat_eq_append, ← List.cons_append, ← List.append_assoc] at split
          simpa using (List.append_inj_right' split rfl).symm
        rw [split, firstEq, ends, List.concat_eq_append, ← List.cons_append] at nodup
        simp only [events_append, recvWaits_append] at nodup
        exact List.disjoint_of_nodup_append nodup (by simp [Instr.event])
          (show post' ∈ _ by simp [Instr.event])
  · exact silent rfl
  · exact silent rfl

theorem reduce_in_stage {call : Nat} {sequence : UInt32} (found : setup.calls[call]? = some args)
    {stage : Nat} {done rest : List Nat}
    (bound : rank < setup.worldSize)
    (split : args.kind.stages setup.worldSize = done ++ stage :: rest) {memory : Memory Value}
    (holding : Holding setup args rank done memory) {lead after : List Instr}
    {destination source count : Nat} {datatype : Datatype} {operation : Operation}
    (code : stageCode (setup.context rank sequence call) args.count args.datatype args.operation
      stage = lead ++ .reduce destination source count datatype operation :: after) :
    stage < setup.worldSize - 1 ∧ ∀ index < count,
      args.inBlock setup.worldSize (blockAt setup.worldSize rank (stage + 1)) (destination + index) ∧
      expectedMemory setup rank memory lead .workbuf (destination + index) =
        args.input rank (destination + index) ∧
      expectedMemory setup rank memory lead .temporary (source + index) =
        setup.carried args (blockAt setup.worldSize rank (stage + 1)) stage
          (destination + index) := by
  obtain ⟨before, post, leadEq, postIn, early, destinationEq, sourceEq, countEq⟩ :=
    reduce_after_wait code
  have sizePos := pieceElementsFor_pos (effectiveConfig (setup.config rank))
    (datatypeSize args.datatype)
  obtain ⟨buffer, start, -, -, postEnd, -⟩ := flowPost_range sizePos postIn
  obtain ⟨piece, -, made⟩ := mem_flowPosts.mp postIn
  obtain ⟨tag, -, postEq⟩ := postFor_ok made
  simp only [Setup.context] at early destinationEq buffer start postEnd
  simp only [receivedFlow, early, if_true, Nat.zero_add] at buffer start postEnd
  refine ⟨early, fun index inside => ?_⟩
  have inBlock : args.inBlock setup.worldSize (blockAt setup.worldSize rank (stage + 1))
      (destination + index) := ⟨by omega, by omega⟩
  have inRange := Nat.lt_of_lt_of_le inBlock.2
    (block_end_le args.count (blockAt_lt setup.positive rank (stage + 1)))
  refine ⟨inBlock, ?_, ?_⟩
  · rw [← held_before_scatter bound split early inBlock, ← holding _ inRange]
    exact expectedMemory_spared setup rank
      (lead_spares (effectiveConfig_maxInflight _).1 code inside) memory
  · have payload : setup.payload post.toPiece = (List.range post.elementCount).map fun offset =>
        setup.carried args (blockAt setup.worldSize rank (stage + 1)) stage
          (destination + offset) := by
      have stageEq : post.toPiece.stage setup.worldSize = stage :=
        stage_of_phase (by rw [postEq]; rfl) (by rw [postEq]; rfl)
      unfold Setup.payload
      rw [stageEq, destinationEq, postEq]
      simp [Setup.context, found]
    rw [leadEq, expectedMemory_append, expectedMemory_cons, expectedMemory_nil]
    simp only [expectedStep, payload, Memory.store_eq_ite]
    rw [if_pos ⟨buffer.symm, by omega, by omega⟩, sourceEq, start, Nat.add_sub_cancel_left]

theorem OnSchedule.reduce_operands {state : RankState Request}
    (onSchedule : OnSchedule setup rank state) (bound : rank < setup.worldSize)
    {destination source count : Nat} {datatype : Datatype} {operation : Operation}
    {rest : List Instr} (todo : state.todo = .reduce destination source count datatype operation :: rest)
    (found : setup.calls[state.results.length]? = some args) :
    ∃ block < setup.worldSize, ∃ stage < setup.worldSize - 1,
      hop setup.worldSize block (stage + 1) = rank ∧ args.kind ≠ .allGather ∧ ∀ index < count,
        args.inBlock setup.worldSize block (destination + index) ∧
        expectedMemory setup rank (setup.memory rank) state.log .workbuf (destination + index) =
          args.input rank (destination + index) ∧
        expectedMemory setup rank (setup.memory rank) state.log .temporary (source + index) =
          setup.carried args block stage (destination + index) := by
  obtain ⟨call, args', done, found', code, log, results, noError, -⟩ := onSchedule.underway bound todo
  obtain rfl : args = args' := by
    rw [results, List.length_replicate] at found
    exact Option.some.inj (found.symm.trans found')
  obtain ⟨earlier, stage, later, front, lead, after, split, rfl, inStage, holding⟩ :=
    holding_in_call found' bound code rfl noError
      (expectedMemory setup rank (setup.memory rank) (setup.codeUpTo rank call))
  obtain ⟨early, operands⟩ := reduce_in_stage found' bound split holding inStage
  refine ⟨_, blockAt_lt setup.positive rank (stage + 1), stage, early, hop_blockAt bound _, ?_, ?_⟩
  · intro gathers
    have member : stage ∈ args.kind.stages setup.worldSize := by simp [split]
    simp only [gathers, Kind.stages, Kind.scatterStages, Kind.gatherStages, if_true, reduceCtorEq,
      if_false, List.nil_append, List.mem_map] at member
    omega
  · rw [log, expectedMemory_append, expectedMemory_append]
    exact operands

end Operands

/-- The exact sum of the inputs of the first `hops + 1` ranks from `start` on. -/
def partialSum (input : Nat → Int32) (size start hops : Nat) : Int :=
  ((List.range (hops + 1)).map fun step => (input (hop size start step)).toInt).sum

def Fits (exact : Int) : Prop := -2 ^ 31 ≤ exact ∧ exact < 2 ^ 31

instance (exact : Int) : Decidable (Fits exact) := inferInstanceAs (Decidable (_ ∧ _))

theorem toInt_add_of_fits {destination source : Int32}
    (fits : Fits (destination.toInt + source.toInt)) :
    (destination + source).toInt = destination.toInt + source.toInt := by
  obtain ⟨lower, upper⟩ := fits
  rw [Int32.toInt_add]
  exact Int.bmod_eq_of_le (by omega) (by omega)

theorem partialSum_succ (input : Nat → Int32) (size start hops : Nat) :
    partialSum input size start (hops + 1) =
      (input (hop size start (hops + 1))).toInt + partialSum input size start hops := by
  rw [partialSum, List.range_succ, List.map_append, List.sum_append, Int.add_comm]
  simp [partialSum]

/-- As long as no partial sum leaves the range, the sums taken round the ring are exact. -/
theorem ringFold_toInt {input : Nat → Int32} {size start hops : Nat} (bound : start < size)
    (fits : ∀ fewer ≤ hops, Fits (partialSum input size start fewer)) :
    (ringFold (fun destination source => destination + source) input size start hops).toInt =
      partialSum input size start hops := by
  induction hops with
  | zero => simp [ringFold, partialSum, hop_zero bound]
  | succ hops ih =>
      have before := ih fun fewer le => fits fewer (by omega)
      have here := fits (hops + 1) (Nat.le_refl _)
      rw [partialSum_succ, ← before] at here ⊢
      rw [ringFold, toInt_add_of_fits here]

theorem partialSum_all (input : Nat → Int32) {size start : Nat} (bound : start < size) :
    partialSum input size start (size - 1) = ((List.range size).map fun rank => (input rank).toInt).sum := by
  have places : ((List.range size).map (hop size start)).Perm (List.range size) := by
    apply List.Subperm.perm_of_length_le
    · apply List.Nodup.subperm
      · rw [List.nodup_map_iff_inj_on List.nodup_range]
        intro step stepIn step' stepIn' same
        rw [List.mem_range] at stepIn stepIn'
        have congruent : step ≡ step' [MOD size] := Nat.ModEq.add_left_cancel' start same
        exact Nat.ModEq.eq_of_lt_of_lt congruent stepIn stepIn'
      · intro place member
        obtain ⟨step, -, rfl⟩ := List.mem_map.mp member
        exact List.mem_range.mpr (hop_lt (by omega) _ _)
    · simp
  have sums := (places.map fun rank => (input rank).toInt).sum_eq
  rw [List.map_map] at sums
  rw [partialSum, Nat.sub_add_cancel (by omega), ← sums]
  rfl

theorem combine_sum {setup : Setup Int32} {args : Call Int32}
    (adds : setup.element .int32 .sum = fun destination source => destination + source)
    (datatype : args.datatype = .int32) (operation : args.operation = .sum) :
    setup.combine args = fun destination source => destination + source := by
  funext destination source
  simp [Setup.combine, datatype, operation, Datatype.supported, Operation.supported, adds]

/-- An All-Reduce with `PG_INT32` and `PG_SUM` never adds two values whose sum leaves the range, if
for every element the partial sums from the owner of its block on stay in it; the result is then
the exact sum. -/
theorem int32_sum_exact {setup : Setup Int32} {args : Call Int32} {rank call : Nat}
    (adds : setup.element .int32 .sum = fun destination source => destination + source)
    (found : setup.calls[call]? = some args) (kind : args.kind = .allReduce)
    (datatype : args.datatype = .int32) (operation : args.operation = .sum)
    (fits : ∀ block < setup.worldSize, ∀ index, args.inBlock setup.worldSize block index →
      ∀ hops < setup.worldSize, Fits (partialSum (args.input · index) setup.worldSize block hops))
    {world : MockWorld Int32} (reachable : MockReachable setup world)
    (bound : rank < setup.worldSize) :
    (∀ destination source count rest, (world.rank rank).todo =
        .reduce destination source count .int32 .sum :: rest →
      (world.rank rank).results.length = call → ∀ index < count,
        Fits ((world.memory rank .workbuf (destination + index)).toInt +
          (world.memory rank .temporary (source + index)).toInt)) ∧
    ((world.rank rank).Returned call .success → ∀ index < args.count,
      (world.memory rank .workbuf index).toInt =
        ((List.range setup.worldSize).map fun other => (args.input other index).toInt).sum) := by
  have inv := mockInvariant_of_reachable reachable
  have onSchedule := onSchedule_of_reachable reachable rank
  constructor
  · intro destination source count rest todo current index inside
    obtain ⟨block, blockBound, stage, early, reached, scatters, operands⟩ :=
      onSchedule.reduce_operands bound todo (by rw [current]; exact found)
    obtain ⟨inBlock, own, incoming⟩ := operands index inside
    have free := (onSchedule.raceFree bound todo).recvs
    have agree := inv.memory rank bound
    rw [agree .workbuf _ fun request member covers =>
        (free request member _ _ covers).1 (Or.inl ⟨rfl, by omega, by omega⟩),
      agree .temporary _ fun request member covers =>
        (free request member _ _ covers).1 (Or.inr ⟨rfl, by omega, by omega⟩),
      own, incoming, Setup.carried, if_neg scatters, Nat.min_eq_left (by omega),
      combine_sum adds datatype operation, ringFold_toInt blockBound fun fewer le =>
        fits block blockBound _ inBlock fewer (by omega)]
    have exact := fits block blockBound _ inBlock (stage + 1) (by omega)
    rwa [partialSum_succ, reached] at exact
  · intro returned index inRange
    obtain ⟨block, blockBound, inside⟩ := exists_block setup.positive inRange
    have positive := setup.positive
    have element := inv.allReduce_element onSchedule bound found kind
      (by simp [operation, Operation.supported]) returned blockBound inside
    rw [datatype, operation, adds] at element
    rw [element, ringFold_toInt blockBound fun fewer le =>
      fits block blockBound _ inside fewer (by omega), partialSum_all _ blockBound]

/-- Three ranks that add up one machine integer each, of which the last two cancel out. -/
def tripleSetup (first : Int32) : Setup Int32 :=
  { worldSize := 3, positive := by decide, config := fun _ => none,
    element := fun _ _ destination source => destination + source,
    calls := [{ kind := .allReduce, count := 1, datatype := .int32, operation := .sum,
                inPlace := fun _ => true, owned := fun _ => 0, sendbuf := fun _ _ => 0,
                workbuf := fun rank _ => if rank = 0 then first else if rank = 1 then 1 else -1 }],
    memory := fun _ _ _ => 0 }

theorem triple_run {first : Int32} (sample : first = 7 ∨ first = 2147483647) : ∃ world,
    MockReachable (tripleSetup first) world ∧
    (world.rank 1).todo.head? = some (.reduce 0 0 1 .int32 .sum) ∧
    (world.rank 1).results = [] ∧ world.memory 1 .workbuf 0 = 1 ∧
    world.memory 1 .temporary 0 = first := by
  have ran : (mockFollow (tripleSetup first) [0, 0, 0, 1, 1, 1, 1]).map
      (fun world => ((world.rank 1).todo.head?, (world.rank 1).results, world.memory 1 .workbuf 0,
        world.memory 1 .temporary 0)) =
      some (some (.reduce 0 0 1 .int32 .sum), [], 1, first) := by
    rcases sample with rfl | rfl <;> decide +kernel
  obtain ⟨world, followed, reached⟩ := Option.map_eq_some_iff.mp ran
  simp only [Prod.mk.injEq] at reached
  exact ⟨world, mockReachable_of_follow followed, reached⟩

/-- The sum of all inputs may fit where a partial sum on the way to it does not. -/
theorem int32_sum_overflows : ∃ world, MockReachable (tripleSetup 2147483647) world ∧
    (∀ args ∈ (tripleSetup 2147483647).calls, ∀ index < args.count,
      Fits ((List.range 3).map fun rank => (args.input rank index).toInt).sum) ∧
    (world.rank 1).todo.head? = some (.reduce 0 0 1 .int32 .sum) ∧
    ¬ Fits ((world.memory 1 .workbuf 0).toInt + (world.memory 1 .temporary 0).toInt) := by
  obtain ⟨world, reachable, todo, -, own, incoming⟩ :=
    triple_run (Or.inr rfl)
  refine ⟨world, reachable, ?_, todo, by rw [own, incoming]; decide⟩
  intro args member
  rw [List.mem_singleton.mp member]
  decide

theorem int32_sum_exact_triple : ∃ world, MockReachable (tripleSetup 7) world ∧
    Fits ((world.memory 1 .workbuf 0).toInt + (world.memory 1 .temporary 0).toInt) := by
  obtain ⟨world, reachable, todo, results, -⟩ := triple_run (Or.inl rfl)
  obtain ⟨rest, todoEq⟩ := List.head?_eq_some_iff.mp todo
  have small : ∀ block < 3, ∀ hops < 3, Fits (partialSum
      (fun rank => if rank = 0 then 7 else if rank = 1 then 1 else -1) 3 block hops) := by
    decide
  have exact := int32_sum_exact (show (tripleSetup 7).element .int32 .sum = _ from rfl)
    (show (tripleSetup 7).calls[0]? = some _ from rfl) rfl rfl rfl
    (fun block blockBound index _ hops less => small block blockBound hops less) reachable
    (show 1 < (tripleSetup 7).worldSize by decide)
  exact ⟨world, reachable, exact.1 0 0 1 rest todoEq (by rw [results]; rfl) 0 (by decide)⟩

end RingAllReduce
