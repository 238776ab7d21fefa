import RingAllReduce.Races

/-!
How far a rank has come. What a rank has performed of a stage shows that all earlier stages and
calls are behind it, and that none of their operations returned an error.
-/

namespace RingAllReduce

open Exchange Rotation

variable {Value Net Request : Type} {setup : Setup Value} {rank : Nat}

def RankState.finished (state : RankState Request) : Nat := state.results.count .success

theorem Control.log_split {state : RankState Request} (control : Control setup rank state) :
    state.finished ≤ setup.calls.length ∧ ∃ done,
      state.log = setup.codeUpTo rank state.finished ++ done ∧
      done <+: setup.code rank state.finished := by
  cases control with
  | between calls bound todo results sequence log =>
      have finished : state.finished = calls := by simp [RankState.finished, results]
      rw [finished]
      exact ⟨bound, [], by simpa using log, List.nil_prefix⟩
  | inside call args found done code busy results sequence log =>
      have finished : state.finished = call := by simp [RankState.finished, results]
      rw [finished]
      exact ⟨Nat.le_of_lt (List.getElem?_eq_some_iff.mp found).1, done, log, _, code.symm⟩
  | failed call args found done instr rest code todo status error results log =>
      have finished : state.finished = call := by
        simp [RankState.finished, results, error]
      rw [finished]
      exact ⟨Nat.le_of_lt (List.getElem?_eq_some_iff.mp found).1, done, log, _, code.symm⟩

/-- A rank has posted and waited for all of its finished calls, and for part of the next one. -/
theorem OnSchedule.events_between {state : RankState Request}
    (onSchedule : OnSchedule setup rank state) (bound : rank < setup.worldSize) :
    run (setup.planUpTo rank state.finished) <+: events state.log ∧
      events state.log <+: run (setup.planUpTo rank (state.finished + 1)) := by
  obtain ⟨control, noError⟩ := onSchedule
  obtain ⟨callsBound, done, log, ahead⟩ := control.log_split
  rw [log] at noError ⊢
  have performed : Performed setup rank state.finished done :=
    ⟨ahead, fun status member => noError status (List.mem_append_right _ member)⟩
  rw [events_append, events_codeUpTo bound callsBound fun status member =>
    noError status (List.mem_append_left _ member)]
  exact ⟨List.prefix_append _ _, (performed.events_done bound).1⟩

theorem Setup.call_lt_of_planUpTo {calls : Nat} {batch : Batch Post}
    (member : batch ∈ setup.planUpTo rank calls) {post : Post} (postIn : post ∈ batch.items) :
    post.call < calls := by
  obtain ⟨place, placeIn, batchIn⟩ := List.mem_flatMap.mp member
  obtain ⟨args, index, -, rfl⟩ := setup.mem_batchesAt batchIn
  obtain ⟨callEq, -⟩ := mem_stageBatch_items postIn
  obtain ⟨call, callIn, inCall⟩ := List.mem_flatMap.mp placeIn
  have placeEq : place.1 = call := by
    split at inCall
    · split at inCall
      · obtain ⟨stage, -, rfl⟩ := List.mem_map.mp inCall
        rfl
      · simp at inCall
    · simp at inCall
  rw [show post.call = place.1 from callEq, placeEq]
  exact List.mem_range.mp callIn

theorem OnSchedule.call_le_finished {state : RankState Request}
    (onSchedule : OnSchedule setup rank state) (bound : rank < setup.worldSize)
    {event : Event Post} (member : event ∈ events state.log) :
    event.item.call ≤ state.finished := by
  obtain ⟨batch, batchIn, itemIn⟩ :=
    item_of_run ((onSchedule.events_between bound).2.subset member)
  exact Nat.le_of_lt_succ (Setup.call_lt_of_planUpTo batchIn itemIn)

section Stage

variable (context : Context) {args : Call Value}

theorem callCode_at_stage (bound : context.rank < context.worldSize)
    (accepted : args.accepted context.worldSize context.rank) {stage : Nat}
    (member : stage ∈ args.kind.stages context.worldSize) :
    ∃ (before after : List Instr) (earlier : List Nat), callCode context args =
        before ++ (stageCode context args.count args.datatype args.operation stage ++ after) ∧
      events before = run (earlier.flatMap (stageBatches context args.count args.datatype)) ∧
      (∀ other ∈ earlier, other < stage) ∧
      ∀ instr ∈ before,
        instr ∈ .load context.call :: (args.copies context.rank ++ args.reports context) ∨
          ∃ other ∈ earlier,
            instr ∈ stageCode context args.count args.datatype args.operation other := by
  have whole := callCode_accepted context bound accepted
  have sorted := args.kind.stages_sorted context.worldSize
  have staged : ∀ stages : List Nat, events (stages.flatMap (stageCode context args.count
      args.datatype args.operation)) =
        run (stages.flatMap (stageBatches context args.count args.datatype)) := by
    intro stages
    rw [events_flatMap, run, List.flatMap_assoc]
    exact List.flatMap_congr fun stage _ => events_stageCode _ _ _ _ _
  have copies : events (args.copies context.rank) = [] := by
    unfold Call.copies
    split <;> simp [Instr.event]
  have reports : events (args.reports context) = [] := by
    unfold Call.reports
    split <;> simp [Instr.event]
  rw [Kind.stages] at member sorted
  rcases List.mem_append.mp member with scatter | gather
  · obtain ⟨earlier, later, stagesEq⟩ := List.append_of_mem scatter
    rw [stagesEq] at whole sorted
    refine ⟨.load context.call :: (args.copies context.rank ++
        earlier.flatMap (stageCode context args.count args.datatype args.operation)),
      later.flatMap (stageCode context args.count args.datatype args.operation) ++
        (args.reports context ++ ((args.kind.gatherStages context.worldSize).flatMap
          (stageCode context args.count args.datatype args.operation) ++ args.kind.ending)),
      earlier, ?_, ?_, ?_, ?_⟩
    · rw [whole]
      simp only [List.cons_append, List.append_assoc, List.flatMap_append, List.flatMap_cons]
    · rw [events_cons, events_append, copies, staged]
      rfl
    · intro other inEarlier
      rw [List.append_assoc, List.pairwise_append] at sorted
      exact sorted.2.2 other inEarlier stage (by simp)
    · intro instr inBefore
      simp only [List.mem_cons, List.mem_append, List.mem_flatMap] at inBefore ⊢
      tauto
  · obtain ⟨earlier, later, stagesEq⟩ := List.append_of_mem gather
    rw [stagesEq] at whole sorted
    refine ⟨.load context.call :: (args.copies context.rank ++
      ((args.kind.scatterStages context.worldSize).flatMap
          (stageCode context args.count args.datatype args.operation) ++ (args.reports context ++
        earlier.flatMap (stageCode context args.count args.datatype args.operation)))),
      later.flatMap (stageCode context args.count args.datatype args.operation) ++ args.kind.ending,
      args.kind.scatterStages context.worldSize ++ earlier, ?_, ?_, ?_, ?_⟩
    · rw [whole]
      simp only [List.cons_append, List.append_assoc, List.flatMap_append, List.flatMap_cons]
    · simp only [events_cons, events_append, copies, reports, staged, List.nil_append,
        List.flatMap_append, run_append]
      rfl
    · intro other inEarlier
      rw [← List.append_assoc, List.pairwise_append] at sorted
      exact sorted.2.2 other inEarlier stage (by simp)
    · intro instr inBefore
      simp only [List.mem_cons, List.mem_append, List.mem_flatMap] at inBefore ⊢
      rcases inBefore with load | copy | ⟨other, otherIn, inStage⟩ | report |
        ⟨other, otherIn, inStage⟩
      · exact Or.inl (Or.inl load)
      · exact Or.inl (Or.inr (Or.inl copy))
      · exact Or.inr ⟨other, Or.inl otherIn, inStage⟩
      · exact Or.inl (Or.inr (Or.inr report))
      · exact Or.inr ⟨other, Or.inr otherIn, inStage⟩

theorem item_of_code {call : Nat} {sequence : UInt32} (bound : rank < setup.worldSize)
    {done rest : List Instr} {instr : Instr}
    (code : callCode (setup.context rank sequence call) args = done ++ instr :: rest)
    (noError : ∀ status, .ret status ∈ done → status = .success) {event : Event Post}
    (isEvent : instr.event = some event) : event.item.call = call := by
  have proceeds : instr ≠ .load call ∧ ∀ status, instr ≠ .ret status := by
    constructor
    · rintro rfl
      simp [Instr.event] at isEvent
    · rintro status rfl
      simp [Instr.event] at isEvent
  have accepted := accepted_of_performed code proceeds noError
  have member : event ∈ events (callCode (setup.context rank sequence call) args) := by
    rw [code]
    simp [isEvent]
  rw [events_callCode _ bound accepted] at member
  obtain ⟨batch, batchIn, itemIn⟩ := item_of_run member
  obtain ⟨stage, -, inStage⟩ := List.mem_flatMap.mp batchIn
  obtain ⟨index, rfl⟩ := mem_stageBatches inStage
  exact (mem_stageBatch_items itemIn).1

theorem stage_behind (bound : context.rank < context.worldSize)
    (accepted : args.accepted context.worldSize context.rank) {done : List Instr}
    (ahead : done <+: callCode context args) {event : Event Post} (member : event ∈ events done)
    {stage : Nat} (stageIn : stage ∈ args.kind.stages context.worldSize)
    (later : stage < event.item.stage context.worldSize) :
    ∀ instr ∈ stageCode context args.count args.datatype args.operation stage, instr ∈ done := by
  obtain ⟨before, after, stages, codeEq, eventsEq, upTo, -⟩ :=
    callCode_at_stage context bound accepted stageIn
  rw [← List.append_assoc] at codeEq
  have passed : before ++ stageCode context args.count args.datatype args.operation stage <+:
      done := by
    rw [codeEq] at ahead
    rcases List.prefix_or_prefix_of_prefix ahead (List.prefix_append _ after) with short | long
    · exfalso
      obtain ⟨rest, split⟩ := short
      have inRun : event ∈ run ((stages ++ [stage]).flatMap
          (stageBatches context args.count args.datatype)) := by
        rw [List.flatMap_append, run_append, ← eventsEq, List.flatMap_singleton,
          ← events_stageCode context args.count args.datatype args.operation, ← events_append,
          ← split, events_append]
        exact List.mem_append_left _ member
      obtain ⟨batch, batchIn, itemIn⟩ := item_of_run inRun
      obtain ⟨earlier, earlierIn, inStage⟩ := List.mem_flatMap.mp batchIn
      obtain ⟨index, rfl⟩ := mem_stageBatches inStage
      obtain ⟨-, phase, step, -⟩ := mem_stageBatch_items itemIn
      rw [stage_of_phase phase step] at later
      rcases List.mem_append.mp earlierIn with front | last
      · have less := upTo earlier front
        omega
      · rw [List.mem_singleton.mp last] at later
        exact Nat.lt_irrefl _ later
    · exact long
  intro instr inStage
  exact passed.subset (List.mem_append_right _ inStage)

theorem waitRecv_of_stage (inflight : 0 < context.config.maxInflight) (count stage : Nat)
    (datatype : Datatype) (operation : Operation)
    (nonempty : 0 < blockCount count context.worldSize
      (blockAt context.worldSize context.rank (stage + 1)))
    (noError : ∀ status, .ret status ∈ stageCode context count datatype operation stage →
      status = .success) :
    ∃ post, .waitRecv post ∈ stageCode context count datatype operation stage ∧
      post.call = context.call ∧ post.stage context.worldSize = stage ∧ 0 < post.elementCount ∧
      (stage < context.worldSize - 1 → ∃ destination source,
        .reduce destination source post.elementCount datatype operation ∈
          stageCode context count datatype operation stage) := by
  have positive := pieceElementsFor_pos context.config (datatypeSize datatype)
  have some : 0 < pieceCountFor (receivedFlow count context.worldSize stage (blockAt
      context.worldSize context.rank (stage + 1))).blockCount
        (pieceElementsFor context.config (datatypeSize datatype)) := by
    rw [receivedFlow_blockCount, pieceCountFor_eq positive, Tiling.lt_tiles_iff _ positive]
    omega
  cases made : postFor context (stagePhase context.worldSize stage)
      (stageStep context.worldSize stage) (datatypeSize datatype) (pieceElementsFor context.config
        (datatypeSize datatype)) (receivedFlow count context.worldSize stage (blockAt
          context.worldSize context.rank (stage + 1))) 0 with
  | error status =>
      have returns := noError status (ret_mem_stepBody inflight (Or.inl rfl) some made)
      unfold postFor at made
      split at made
      · rename_i error failed
        rw [← Except.error.inj made, makeTag_error failed] at returns
        simp at returns
      · simp at made
  | ok post =>
      have inFlow := mem_flowPosts.mpr ⟨0, some, made⟩
      obtain ⟨tag, -, postEq⟩ := postFor_ok made
      refine ⟨post, afterWait_mem_stepBody inflight inFlow ?_, by rw [postEq],
        stage_of_phase (by rw [postEq]) (by rw [postEq]), ?_, ?_⟩
      · split <;> simp
      · rw [postEq]
        simp only [receivedFlow_blockCount]
        omega
      · intro early
        refine ⟨blockOffset count context.worldSize (blockAt context.worldSize context.rank
          (stage + 1)) + post.elementOffset, post.elementOffset,
          afterWait_mem_stepBody inflight inFlow ?_⟩
        rw [if_pos early]
        exact List.mem_cons_of_mem _ List.mem_cons_self

end Stage

/-- The stage of a call lies behind a rank: the call is over, or a later stage has begun. -/
def Passed (setup : Setup Value) (state : RankState Request) (call stage : Nat) : Prop :=
  call < state.finished ∨ ∃ event ∈ events state.log, event.item.call = call ∧
    stage < event.item.stage setup.worldSize

theorem OnSchedule.code_of_finished {state : RankState Request}
    (onSchedule : OnSchedule setup rank state) {call : Nat} (ended : call < state.finished) :
    setup.code rank call ⊆ state.log := by
  obtain ⟨-, done, log, -⟩ := onSchedule.control.log_split
  intro instr member
  rw [log]
  exact List.mem_append_left _
    (List.mem_flatMap.mpr ⟨call, List.mem_range.mpr ended, member⟩)

theorem OnSchedule.passed {state : RankState Request} (onSchedule : OnSchedule setup rank state)
    (bound : rank < setup.worldSize) {call stage : Nat} {args : Call Value}
    (found : setup.calls[call]? = some args) (member : stage ∈ args.kind.stages setup.worldSize)
    (passed : Passed setup state call stage) :
    ∀ instr ∈ stageCode (setup.context rank (setup.sequenceAt call) call) args.count args.datatype
      args.operation stage, instr ∈ state.log := by
  have codeEq : setup.code rank call =
      callCode (setup.context rank (setup.sequenceAt call) call) args := by
    rw [Setup.code, found]
  have whole : call < state.finished → ∀ instr ∈ stageCode (setup.context rank
      (setup.sequenceAt call) call) args.count args.datatype args.operation stage,
        instr ∈ state.log := by
    intro ended instr inStage
    have performed := onSchedule.code_of_finished ended
    rw [codeEq] at performed
    have accepted := accepted_of_noError fun status inCode =>
      onSchedule.noError status (performed inCode)
    obtain ⟨before, after, -, split, -⟩ :=
      callCode_at_stage (setup.context rank (setup.sequenceAt call) call) bound accepted member
    rw [split] at performed
    exact performed (List.mem_append_right _ (List.mem_append_left _ inStage))
  rcases passed with ended | ⟨event, eventIn, callEq, later⟩
  · exact whole ended
  by_cases ended : call < state.finished
  · exact whole ended
  have here : call = state.finished := by
    have le := onSchedule.call_le_finished bound eventIn
    omega
  obtain ⟨control, noError⟩ := onSchedule
  obtain ⟨callsBound, done, log, ahead⟩ := control.log_split
  rw [← here] at log ahead
  rw [log] at noError eventIn ⊢
  have inDone : event ∈ events done := by
    rw [events_append] at eventIn
    refine (List.mem_append.mp eventIn).resolve_left fun early => ?_
    rw [events_codeUpTo bound (here ▸ callsBound) fun status inLog =>
      noError status (List.mem_append_left _ inLog)] at early
    obtain ⟨batch, batchIn, itemIn⟩ := item_of_run early
    have less := Setup.call_lt_of_planUpTo batchIn itemIn
    omega
  obtain ⟨instr, instrIn, isEvent⟩ := List.mem_filterMap.mp inDone
  obtain ⟨before, after, doneEq⟩ := List.append_of_mem instrIn
  obtain ⟨rest, codeSplit⟩ := ahead
  have proceeds : instr ≠ .load call ∧ ∀ status, instr ≠ .ret status := by
    constructor
    · rintro rfl
      simp [Instr.event] at isEvent
    · rintro status rfl
      simp [Instr.event] at isEvent
  have codeAt : callCode (setup.context rank (setup.sequenceAt call) call) args =
      before ++ instr :: (after ++ rest) := by
    rw [← codeEq, ← codeSplit, doneEq, List.append_assoc, List.cons_append]
  have accepted : args.accepted setup.worldSize rank :=
    accepted_of_performed codeAt proceeds fun status inBefore =>
      noError status (List.mem_append_right _ (by rw [doneEq]; simp [inBefore]))
  intro other inStage
  refine List.mem_append_right _ (stage_behind _ bound accepted ⟨rest, ?_⟩ inDone member later other
    inStage)
  rw [codeSplit, codeEq]

end RingAllReduce
