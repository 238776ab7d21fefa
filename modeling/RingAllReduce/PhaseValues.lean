import RingAllReduce.CallEvents

/-! What the two phases leave in the work buffer when they are called on their own. -/

namespace RingAllReduce

open Exchange Rotation

variable {Value Net Request : Type} {setup : Setup Value} {rank : Nat} {args : Call Value}

theorem held_arrived {stages : List Nat} {block index stage : Nat}
    (inside : args.inBlock setup.worldSize block index) (member : stage ∈ stages)
    (here : blockAt setup.worldSize rank (stage + 1) = block)
    (once : ∀ other ∈ stages, blockAt setup.worldSize rank (other + 1) = block → other = stage) :
    setup.held args rank stages index = setup.carried args block (stage + 1) index := by
  induction stages using List.reverseRecOn with
  | nil => simp at member
  | append_singleton stages last ih =>
      rw [Setup.held_snoc, Setup.arrive]
      split
      · rename_i again
        have same := blocks_disjoint _ _ again inside
        rw [once last (by simp) same, here]
      · rename_i elsewhere
        apply ih
        · rcases List.mem_append.mp member with earlier | atLast
          · exact earlier
          · rw [List.mem_singleton.mp atLast] at here
            exact absurd (here ▸ inside) elsewhere
        · exact fun other otherIn => once other (List.mem_append_left _ otherIn)

theorem held_reduceScatter (bound : rank < setup.worldSize) (kind : args.kind = .reduceScatter)
    {block index : Nat} (blockBound : block < setup.worldSize)
    (inside : args.inBlock setup.worldSize block index) :
    setup.held args rank (args.kind.stages setup.worldSize) index =
      setup.carried args block (distance setup.worldSize block rank) index := by
  have small := distance_lt setup.positive block rank
  have stages : args.kind.stages setup.worldSize = List.range (setup.worldSize - 1) := by
    simp [kind, Kind.stages, Kind.scatterStages, Kind.gatherStages]
  have reached : ∀ stage, blockAt setup.worldSize rank (stage + 1) = block →
      (stage + 1) % setup.worldSize = distance setup.worldSize block rank := by
    rintro stage rfl
    exact (hop_eq_iff blockBound bound _).mp (hop_blockAt bound _)
  rw [stages]
  by_cases own : distance setup.worldSize block rank = 0
  · have here : block = rank := by
      have arrives := hop_distance blockBound bound
      rwa [own, hop_zero blockBound] at arrives
    rw [own, Setup.carried, if_neg (by simp [kind]), Nat.zero_min, ringFold, here]
    apply Setup.held_fresh inside
    intro stage member same
    rw [List.mem_range] at member
    have congruent := reached stage same
    rw [Nat.mod_eq_of_lt (by omega)] at congruent
    omega
  · have last : distance setup.worldSize block rank - 1 + 1 =
        distance setup.worldSize block rank := by omega
    rw [← last]
    apply held_arrived inside
    · exact List.mem_range.mpr (by omega)
    · rw [last]
      exact blockAt_eq blockBound (hop_distance blockBound bound)
    · intro other member same
      rw [List.mem_range] at member
      have congruent := reached other same
      rw [Nat.mod_eq_of_lt (by omega)] at congruent
      omega

theorem held_allGather (bound : rank < setup.worldSize) (kind : args.kind = .allGather)
    {block index : Nat} (blockBound : block < setup.worldSize)
    (inside : args.inBlock setup.worldSize block index) :
    setup.held args rank (args.kind.stages setup.worldSize) index =
      args.workbuf (hop setup.worldSize block (setup.worldSize - 1)) index := by
  have small := distance_lt setup.positive block rank
  have input : ∀ owner, args.input owner index = args.workbuf owner index := by
    intro owner
    rw [Call.input, if_neg (by simp [kind])]
  have stages : args.kind.stages setup.worldSize =
      (List.range (setup.worldSize - 1)).map (setup.worldSize - 1 + ·) := by
    simp [kind, Kind.stages, Kind.scatterStages, Kind.gatherStages]
  by_cases own : distance setup.worldSize block rank = setup.worldSize - 1
  · have owner := hop_distance blockBound bound
    rw [own] at owner
    rw [owner, ← input]
    apply Setup.held_fresh inside
    intro stage member same
    rw [stages] at member
    obtain ⟨step, less, rfl⟩ := List.mem_map.mp member
    rw [List.mem_range] at less
    have reached := hop_blockAt bound (setup.worldSize - 1 + step + 1)
    rw [same] at reached
    have congruent := (hop_eq_iff blockBound bound _).mp reached
    rw [own, show setup.worldSize - 1 + step + 1 = step + setup.worldSize by omega,
      Nat.add_mod_right, Nat.mod_eq_of_lt (by omega)] at congruent
    omega
  · rw [held_final (args.kind.stages_sorted _) inside, Setup.carried, if_pos kind, input]
    refine ⟨setup.worldSize - 1 + distance setup.worldSize block rank, ?_, ?_, by omega⟩
    · rw [stages]
      exact List.mem_map.mpr ⟨_, List.mem_range.mpr (by omega), rfl⟩
    · apply blockAt_eq blockBound
      rw [show setup.worldSize - 1 + distance setup.worldSize block rank + 1 =
        distance setup.worldSize block rank + setup.worldSize by omega, hop_size]
      exact hop_distance blockBound bound

section Outside

theorem untouched_call {call : Nat} {sequence : UInt32} (found : setup.calls[call]? = some args)
    (bound : rank < setup.worldSize)
    (accepted : args.accepted setup.worldSize rank) (memory : Memory Value) {index : Nat}
    (beyond : args.count ≤ index) :
    expectedMemory setup rank memory (callCode (setup.context rank sequence call) args) .workbuf
      index = args.workbuf rank index := by
  have stages : ∀ stages : List Nat, ∀ instr ∈ stages.flatMap (stageCode
      (setup.context rank sequence call) args.count args.datatype args.operation),
        instr.writesIn 0 args.count := by
    intro stages instr member
    obtain ⟨stage, -, inStage⟩ := List.mem_flatMap.mp member
    have within := stageCode_writes inStage
    have ends := block_end_le args.count (blockAt_lt setup.positive rank (stage + 1))
    simp only [Setup.context] at within
    cases instr with
    | waitRecv post =>
        rcases within with temporary | ⟨buffer, lower, upper⟩
        · exact Or.inl temporary
        · exact Or.inr ⟨buffer, Nat.zero_le _, by omega⟩
    | reduce destination source count datatype operation =>
        exact ⟨Nat.zero_le _, by have := within.2; omega⟩
    | _ => exact within
  have quiet : ∀ instr ∈ args.reports (setup.context rank sequence call) ++ args.kind.ending,
      instr.writesIn 0 args.count := by
    intro instr member
    rcases List.mem_append.mp member with reports | ending
    · unfold Call.reports at reports
      split at reports
      · simp at reports
      · rw [List.mem_singleton.mp reports]
        rfl
    · cases kind : args.kind <;> rw [kind, Kind.ending] at ending <;> simp at ending
      · rcases ending with rfl | rfl <;> rfl
      · rw [ending]
        rfl
      · rw [ending]
        rfl
  have copied : ∀ memory, expectedMemory setup rank memory (args.copies rank) .workbuf index =
      memory .workbuf index := by
    intro memory
    unfold Call.copies
    split
    · simp only [expectedMemory_cons, expectedMemory_nil, expectedStep, performLocal, Memory.load,
        Memory.store_eq_ite]
      rw [if_neg (by omega)]
    · rfl
  rw [callCode_accepted (setup.context rank sequence call) bound accepted, expectedMemory_cons,
    expectedMemory_append, @expectedMemory_outside _ setup rank 0 args.count _ ?_ _
      (Or.inr (by omega))]
  · rw [show (setup.context rank sequence call).rank = rank from rfl, copied]
    simp [expectedStep, performLocal, Setup.context, found, Call.handOver]
  · intro instr member
    simp only [List.mem_append] at member
    rcases member with scatter | reports | gather | ending
    · exact stages _ instr scatter
    · exact quiet instr (List.mem_append_left _ reports)
    · exact stages _ instr gather
    · exact quiet instr (List.mem_append_right _ ending)

end Outside

def Instr.reportOwned (owned : Int) : Instr → Int
  | .storeOwned block => block
  | _ => owned

def reported (log : List Instr) : Int := log.foldl Instr.reportOwned (-1)

theorem perform_owned {transport : Transport Value Net Request} {vars after : Variables Request}
    {net net' : Net} {memory memory' : Memory Value} {instr : Instr}
    (outcome : perform setup transport rank vars net memory instr =
      .done (net', memory') (.next after)) :
    after.owned = instr.reportOwned vars.owned := by
  obtain ⟨postedRecv, postedSend, waitedRecv, waitedSend⟩ := perform_event_next outcome
  cases instr with
  | postRecv post =>
      obtain ⟨request, rfl⟩ := postedRecv post rfl
      rfl
  | postSend post =>
      obtain ⟨request, rfl⟩ := postedSend post rfl
      rfl
  | waitRecv post =>
      obtain rfl := waitedRecv post rfl
      rfl
  | waitSend post =>
      obtain rfl := waitedSend post rfl
      rfl
  | storeOwned block | advanceSequence =>
      simp only [perform, Outcome.done.injEq, Verdict.next.injEq] at outcome
      rw [← outcome.2]
      rfl
  | ret status => simp [perform, performLocal] at outcome
  | load call | copyInput count | reduce _ _ _ _ _ =>
      simp only [perform] at outcome
      split at outcome
      · simp only [Outcome.done.injEq, Verdict.next.injEq] at outcome
        rw [← outcome.2]
        rfl
      · simp at outcome

theorem owned_of_reachable {transport : Transport Value Net Request} {net : Net}
    {world : World Value Net Request} (reachable : Reachable setup transport net world) :
    (world.rank rank).vars.owned = reported (world.rank rank).log := by
  apply Runs.Reachable.invariant (fun world =>
    (world.rank rank).vars.owned = reported (world.rank rank).log) reachable
  · rfl
  · intro before after same step
    cases step with
    | background done => exact same
    | rank mover moverBound stepped =>
        have taken := rankStep_cases stepped
        by_cases here : rank = mover
        · subst here
          cases taken with
          | enter call idle succeeded next => simpa [RankState.enter] using same
          | busy instr rest net memory todo outcome => simpa using same
          | next instr rest net memory vars todo outcome =>
              rw [World.put_rank_same]
              simp only [RankState.advance, perform_owned outcome, reported, List.foldl_append,
                List.foldl_cons, List.foldl_nil]
              rw [same, reported]
          | stop instr rest net memory status todo outcome =>
              rw [World.put_rank_same, RankState.leave]
              simp only
              split
              · rename_i success
                subst success
                rw [perform_stop_success outcome]
                simpa [reported, Instr.reportOwned] using same
              · exact same
        · have kept : after.rank rank = before.rank rank := by
            cases taken <;> exact World.put_rank_other _ _ _ _ _ here
          rwa [kept]

section Returned

variable {world : MockWorld Value} {call : Nat} (reachable : MockReachable setup world)
  (bound : rank < setup.worldSize) (found : setup.calls[call]? = some args)
  (returned : (world.rank rank).Returned call .success)

include reachable bound found returned

theorem returned_held : args.accepted setup.worldSize rank ∧ ∀ index < args.count,
    world.memory rank .workbuf index =
      setup.held args rank (args.kind.stages setup.worldSize) index := by
  have inv := mockInvariant_of_reachable reachable
  obtain ⟨noneOpen, accepted, holding⟩ :=
    (onSchedule_of_reachable reachable rank).returned bound found returned
  refine ⟨accepted, fun index inRange => ?_⟩
  rw [inv.memory rank bound .workbuf index (by simp [RankState.opens, noneOpen])]
  exact holding index inRange

theorem returned_untouched {index : Nat} (beyond : args.count ≤ index) :
    world.memory rank .workbuf index = args.workbuf rank index := by
  have inv := mockInvariant_of_reachable reachable
  have onSchedule := onSchedule_of_reachable reachable rank
  obtain ⟨noneOpen, accepted, -⟩ := onSchedule.returned bound found returned
  obtain ⟨-, -, log⟩ := onSchedule.operations found returned
  rw [inv.memory rank bound .workbuf index (by simp [RankState.opens, noneOpen]), log,
    setup.codeUpTo_succ, Setup.code, found, expectedMemory_append]
  exact untouched_call found bound accepted _ beyond

end Returned

/-- After a direct Reduce-Scatter the caller is told its block, and every block has been combined
with the inputs from its owner round the ring up to this rank. -/
theorem ringReduceScatterInplace_value {call : Nat} (found : setup.calls[call]? = some args)
    (kind : args.kind = .reduceScatter) (known : args.operation.supported = true)
    {world : MockWorld Value} (reachable : MockReachable setup world)
    (bound : rank < setup.worldSize) (returned : (world.rank rank).Returned call .success) :
    (world.rank rank).vars.owned = ((rank + 1) % setup.worldSize : Nat) ∧
      (∃ layout, computeBlockLayout args.count setup.worldSize = .ok layout ∧
        ∀ block < setup.worldSize, ∀ index, layout.offsets.getD block 0 ≤ index →
          index < layout.offsets.getD block 0 + layout.counts.getD block 0 →
          world.memory rank .workbuf index =
            ringFold (setup.element args.datatype args.operation) (args.workbuf · index)
              setup.worldSize block (distance setup.worldSize block rank)) ∧
      (∀ block < setup.worldSize, distance setup.worldSize block rank = setup.worldSize - 1 ↔
        block = (rank + 1) % setup.worldSize) ∧
      ∀ index, args.count ≤ index → world.memory rank .workbuf index = args.workbuf rank index := by
  obtain ⟨accepted, held⟩ := returned_held reachable bound found returned
  obtain ⟨layout, laid, get⟩ := computeBlockLayout_get args.count setup.positive
  refine ⟨?_, ⟨layout, laid, ?_⟩, ?_, fun index beyond =>
    returned_untouched reachable bound found returned beyond⟩
  · have log := ((onSchedule_of_reachable reachable rank).operations found returned).2.2
    have owned := ownedBlock_eq (setup.context rank (setup.sequenceAt call) call)
    have codeEq : setup.code rank call =
        callCode (setup.context rank (setup.sequenceAt call) call) args := by
      rw [Setup.code, found]
    rw [owned_of_reachable reachable, log, setup.codeUpTo_succ, codeEq,
      callCode_accepted (setup.context rank (setup.sequenceAt call) call) bound accepted]
    simp [kind, Call.copies, Call.reports, Kind.gatherStages, Kind.ending, reported,
      List.foldl_append, Instr.reportOwned, owned]
    rfl
  · intro block blockBound index lower upper
    obtain ⟨counts, offsets⟩ := get block blockBound
    have inside : args.inBlock setup.worldSize block index := ⟨by omega, by omega⟩
    have inRange := Nat.lt_of_lt_of_le inside.2 (block_end_le args.count blockBound)
    have small := distance_lt setup.positive block rank
    have input : (args.input · index) = (args.workbuf · index) := by
      funext owner
      rw [Call.input, if_neg (by simp [kind])]
    have combine : setup.combine args = setup.element args.datatype args.operation := by
      funext destination source
      simp [Setup.combine, accepted.1, known]
    rw [held index inRange, held_reduceScatter bound kind blockBound inside, Setup.carried,
      if_neg (by simp [kind]), Nat.min_eq_left (by omega), input, combine]
  · intro block blockBound
    have positive := setup.positive
    rw [distance_eq blockBound bound, ← next, next_eq bound]
    split <;> split <;> omega

/-- The two ranks of `pairSetup` in one of the phases, whose second rank holds 10 more. -/
def phaseSetup (kind : Kind) : Setup Nat :=
  { pairSetup 0 with
    calls := [{ kind := kind, count := 2, datatype := .int32, operation := .sum,
                inPlace := fun _ => true, owned := fun rank => 1 - rank, sendbuf := fun _ _ => 0,
                workbuf := fun rank index => 10 * rank + index }] }

theorem phase_run (kind : Kind) (direct : kind ≠ .allReduce) : ∃ world,
    MockReachable (phaseSetup kind) world ∧ (world.rank 1).Returned 0 .success := by
  have ran : ∀ kind, kind ≠ .allReduce → (mockFollow (phaseSetup kind) (List.replicate 4 0 ++
      List.replicate (if kind = .allGather then 7 else 9) 1)).map (fun world =>
        ((world.rank 1).todo, (world.rank 1).results)) = some ([], [.success]) := by
    intro kind direct
    cases kind with
    | allReduce => exact absurd rfl direct
    | reduceScatter | allGather => decide +kernel
  obtain ⟨world, followed, ended⟩ := Option.map_eq_some_iff.mp (ran kind direct)
  simp only [Prod.mk.injEq] at ended
  exact ⟨world, mockReachable_of_follow followed, ended.1, by simp [ended.2], by simp [ended.2]⟩

theorem ringReduceScatterInplace_value_pair : ∃ world, MockReachable (phaseSetup .reduceScatter) world ∧
    (world.rank 1).vars.owned = 0 ∧ world.memory 1 .workbuf 0 = 10 := by
  obtain ⟨world, reachable, returned⟩ := phase_run .reduceScatter (by decide)
  obtain ⟨owned, ⟨layout, laid, element⟩, -⟩ :=
    ringReduceScatterInplace_value (show (phaseSetup .reduceScatter).calls[0]? = some _ from rfl) rfl
      rfl reachable (by decide) returned
  obtain rfl := Except.ok.inj laid
  exact ⟨world, reachable, owned, element 0 (by decide) 0 (by decide) (by decide)⟩

/-- After an All-Gather every block of the work buffer is what its owner had in it at entry. -/
theorem ringAllGatherInplace_value {call : Nat} (found : setup.calls[call]? = some args)
    (kind : args.kind = .allGather) {world : MockWorld Value} (reachable : MockReachable setup world)
    (bound : rank < setup.worldSize) (returned : (world.rank rank).Returned call .success) :
    (∃ layout, computeBlockLayout args.count setup.worldSize = .ok layout ∧
      ∀ block < setup.worldSize, ∀ index, layout.offsets.getD block 0 ≤ index →
        index < layout.offsets.getD block 0 + layout.counts.getD block 0 →
        world.memory rank .workbuf index =
          args.workbuf ((block + (setup.worldSize - 1)) % setup.worldSize) index) ∧
      ∀ index, args.count ≤ index → world.memory rank .workbuf index = args.workbuf rank index := by
  obtain ⟨accepted, held⟩ := returned_held reachable bound found returned
  obtain ⟨layout, laid, get⟩ := computeBlockLayout_get args.count setup.positive
  refine ⟨⟨layout, laid, ?_⟩, fun index beyond =>
    returned_untouched reachable bound found returned beyond⟩
  intro block blockBound index lower upper
  obtain ⟨counts, offsets⟩ := get block blockBound
  have inside : args.inBlock setup.worldSize block index := ⟨by omega, by omega⟩
  have inRange := Nat.lt_of_lt_of_le inside.2 (block_end_le args.count blockBound)
  rw [held index inRange, held_allGather bound kind blockBound inside]
  rfl

theorem ringAllGatherInplace_value_pair : ∃ world, MockReachable (phaseSetup .allGather) world ∧
    world.memory 1 .workbuf 1 = 1 := by
  obtain ⟨world, reachable, returned⟩ := phase_run .allGather (by decide)
  obtain ⟨⟨layout, laid, element⟩, -⟩ :=
    ringAllGatherInplace_value (show (phaseSetup .allGather).calls[0]? = some _ from rfl) rfl
      reachable (by decide) returned
  obtain rfl := Except.ok.inj laid
  exact ⟨world, reachable, element 1 (by decide) 1 (by decide) (by decide)⟩

end RingAllReduce
