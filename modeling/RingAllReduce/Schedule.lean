import RingAllReduce.Batches
import RingAllReduce.Program

/-!
The schedule of a run: what each rank posts and waits for, over all its calls. It is fixed by the
calls and the configuration, and a rank is always at some position of its own schedule.
-/

namespace RingAllReduce

open Exchange Rotation

variable {Value Net Request : Type}

def Kind.scatterStages (kind : Kind) (worldSize : Nat) : List Nat :=
  if kind = .allGather then [] else List.range (worldSize - 1)

def Kind.gatherStages (kind : Kind) (worldSize : Nat) : List Nat :=
  if kind = .reduceScatter then [] else (List.range (worldSize - 1)).map (worldSize - 1 + ·)

def Kind.stages (kind : Kind) (worldSize : Nat) : List Nat :=
  kind.scatterStages worldSize ++ kind.gatherStages worldSize

def Call.accepted (call : Call Value) (worldSize rank : Nat) : Prop :=
  call.datatype.supported = true ∧ match call.kind with
    | .allReduce => call.count ≠ 0
    | .reduceScatter => True
    | .allGather => call.owned rank = next worldSize rank

def Call.copies (call : Call Value) (rank : Nat) : List Instr :=
  if call.kind = .allReduce ∧ call.inPlace rank = false then [.copyInput call.count] else []

def Call.reports (call : Call Value) (context : Context) : List Instr :=
  if call.kind = .allGather then [] else [.storeOwned (ownedBlock context)]

section Code

variable (context : Context) {call : Call Value}

theorem ringReduceScatterInplace_eq (bound : context.rank < context.worldSize) (count : Nat)
    {datatype : Datatype} (operation : Operation) (typed : datatype.supported = true) :
    ringReduceScatterInplace context count datatype operation =
      (List.range (context.worldSize - 1)).flatMap (stageCode context count datatype operation) ++
        [.storeOwned (ownedBlock context)] := by
  obtain ⟨layout, laid, -⟩ :=
    computeBlockLayout_get count (show 0 < context.worldSize by omega)
  have sized : datatypeSize datatype ≠ 0 := by simp [datatypeSize_eq_zero, typed]
  rw [ringReduceScatterInplace, if_neg sized, laid]
  simp only [List.append_cancel_right_eq]
  apply List.flatMap_congr
  intro step member
  exact reduceScatterStep_eq bound laid datatype operation (List.mem_range.mp member)

theorem ringAllGatherInplace_eq (bound : context.rank < context.worldSize) (count : Nat)
    {datatype : Datatype} (operation : Operation) (typed : datatype.supported = true) {owned : Int}
    (owner : owned = next context.worldSize context.rank) :
    ringAllGatherInplace context count datatype owned =
      ((List.range (context.worldSize - 1)).map (context.worldSize - 1 + ·)).flatMap
        (stageCode context count datatype operation) := by
  obtain ⟨layout, laid, -⟩ :=
    computeBlockLayout_get count (show 0 < context.worldSize by omega)
  have sized : datatypeSize datatype ≠ 0 := by simp [datatypeSize_eq_zero, typed]
  have inside := next_lt (show 0 < context.worldSize by omega) context.rank
  have expected : owned = positiveMod (context.rank + 1) context.worldSize :=
    owner.trans (ownedBlock_eq context).symm
  rw [ringAllGatherInplace, if_neg (by omega), if_neg (by simpa using expected), if_neg sized, laid,
    List.flatMap_map]
  apply List.flatMap_congr
  intro step _
  exact allGatherStep_eq bound laid datatype operation step

theorem callCode_accepted (bound : context.rank < context.worldSize)
    (accepted : call.accepted context.worldSize context.rank) :
    callCode context call = .load context.call :: (call.copies context.rank ++
      ((call.kind.scatterStages context.worldSize).flatMap
          (stageCode context call.count call.datatype call.operation) ++
        (call.reports context ++
          ((call.kind.gatherStages context.worldSize).flatMap
              (stageCode context call.count call.datatype call.operation) ++
            call.kind.ending)))) := by
  obtain ⟨typed, rest⟩ := accepted
  have sized : datatypeSize call.datatype ≠ 0 := by simp [datatypeSize_eq_zero, typed]
  unfold callCode
  cases kind : call.kind with
  | allReduce =>
      rw [kind] at rest
      have owner := ownedBlock_eq context
      simp only [ringAllReduce, if_neg rest, if_neg sized,
        ringReduceScatterInplace_eq context bound _ _ typed,
        ringAllGatherInplace_eq context bound _ call.operation typed owner, Call.copies, Call.reports,
        Kind.scatterStages, Kind.gatherStages, Kind.ending, kind]
      cases call.inPlace context.rank <;> simp
  | reduceScatter =>
      simp [ringReduceScatterInplace_eq context bound _ _ typed, Call.copies, Call.reports,
        Kind.scatterStages, Kind.gatherStages, Kind.ending, kind]
  | allGather =>
      rw [kind] at rest
      simp [ringAllGatherInplace_eq context bound _ call.operation typed rest, Call.copies, Call.reports,
        Kind.scatterStages, Kind.gatherStages, Kind.ending, kind]

theorem callCode_rejected (rejected : ¬ call.accepted context.worldSize context.rank) :
    ∃ status rest, status ≠ .success ∧ events rest = [] ∧
      callCode context call = .load context.call :: .ret status :: rest := by
  unfold callCode
  by_cases typed : call.datatype.supported = true
  · simp only [Call.accepted, typed, true_and] at rejected
    cases kind : call.kind with
    | allReduce =>
        rw [kind] at rejected
        simp only [ne_eq, not_not] at rejected
        exact ⟨.invalidArgument, [], by simp, rfl, by simp [ringAllReduce, rejected]⟩
    | reduceScatter => simp [kind] at rejected
    | allGather =>
        rw [kind] at rejected
        refine ⟨.invalidArgument, [.ret .success], by simp, rfl, ?_⟩
        have owner := ownedBlock_eq context
        rw [ownedBlock] at owner
        simp only [ringAllGatherInplace, owner]
        split
        · rfl
        · rfl
  · have sized : datatypeSize call.datatype = 0 := by simpa [datatypeSize_eq_zero] using typed
    cases kind : call.kind with
    | allReduce =>
        by_cases empty : call.count = 0
        · exact ⟨.invalidArgument, [], by simp, rfl, by simp [ringAllReduce, empty]⟩
        · exact ⟨.unsupportedDatatype, [], by simp, rfl, by simp [ringAllReduce, empty, sized]⟩
    | reduceScatter =>
        exact ⟨.unsupportedDatatype, [.ret .success], by simp, rfl,
          by simp [ringReduceScatterInplace, sized]⟩
    | allGather =>
        simp only [ringAllGatherInplace, sized]
        split
        · exact ⟨_, [.ret .success], by simp, rfl, rfl⟩
        · split
          · exact ⟨_, [.ret .success], by simp, rfl, rfl⟩
          · exact ⟨_, [.ret .success], by simp, rfl, rfl⟩

end Code

def stageBatches (context : Context) (count : Nat) (datatype : Datatype) (stage : Nat) :
    List (Batch Post) :=
  let elementSize := datatypeSize datatype
  stepBatches context (stagePhase context.worldSize stage) (stageStep context.worldSize stage)
    elementSize (pieceElementsFor context.config elementSize)
    (receivedFlow count context.worldSize stage
      (blockAt context.worldSize context.rank (stage + 1)))
    (sentFlow count context.worldSize (blockAt context.worldSize context.rank stage))

theorem events_stageCode (context : Context) (count : Nat) (datatype : Datatype)
    (operation : Operation) (stage : Nat) :
    events (stageCode context count datatype operation stage) =
      run (stageBatches context count datatype stage) := by
  apply events_stepBody
  intro post
  split <;> simp [Instr.event]

theorem events_callCode (context : Context) {call : Call Value}
    (bound : context.rank < context.worldSize)
    (accepted : call.accepted context.worldSize context.rank) :
    events (callCode context call) =
      run ((call.kind.stages context.worldSize).flatMap
        (stageBatches context call.count call.datatype)) := by
  have copies : events (call.copies context.rank) = [] := by
    unfold Call.copies
    split <;> simp [Instr.event]
  have reports : events (call.reports context) = [] := by
    unfold Call.reports
    split <;> simp [Instr.event]
  have ending : events call.kind.ending = [] := by
    cases call.kind <;> simp [Kind.ending, Instr.event]
  rw [callCode_accepted context bound accepted]
  simp only [events_cons, events_append, copies, reports, ending, events_flatMap, events_stageCode,
    Instr.event, Option.toList_none, List.nil_append, List.append_nil]
  rw [Kind.stages, List.flatMap_append, run_append, run, run, List.flatMap_assoc, List.flatMap_assoc]
  rfl

/-- The stages of the first calls of a run, the same for all ranks. -/
def Setup.stagesUpTo (setup : Setup Value) (calls : Nat) : List (Nat × Nat) :=
  (List.range calls).flatMap fun call => match setup.calls[call]? with
    | some args =>
        if args.datatype.supported then (args.kind.stages setup.worldSize).map (call, ·) else []
    | none => []

def Setup.batchesAt (setup : Setup Value) (rank : Nat) (place : Nat × Nat) : List (Batch Post) :=
  match setup.calls[place.1]? with
  | some args => stageBatches (setup.context rank (setup.sequenceAt place.1) place.1) args.count
      args.datatype place.2
  | none => []

def Setup.planUpTo (setup : Setup Value) (rank calls : Nat) : List (Batch Post) :=
  (setup.stagesUpTo calls).flatMap (setup.batchesAt rank)

def Setup.plan (setup : Setup Value) (rank : Nat) : List (Batch Post) :=
  setup.planUpTo rank setup.calls.length

/-- What a rank may have performed: the code of its calls up to some operation, without a return
for an error. -/
structure Performed (setup : Setup Value) (rank call : Nat) (done : List Instr) : Prop where
  ahead : done <+: setup.code rank call
  noError : ∀ status, .ret status ∈ done → status = .success

theorem Setup.planUpTo_succ (setup : Setup Value) (rank call : Nat) :
    setup.planUpTo rank (call + 1) = setup.planUpTo rank call ++
      match setup.calls[call]? with
      | some args =>
          if args.datatype.supported then (args.kind.stages setup.worldSize).flatMap
            (stageBatches (setup.context rank (setup.sequenceAt call) call) args.count args.datatype)
          else []
      | none => [] := by
  simp only [planUpTo, stagesUpTo, List.range_succ, List.flatMap_append, List.flatMap_singleton]
  congr 1
  cases found : setup.calls[call]? with
  | none => rfl
  | some args =>
      by_cases typed : args.datatype.supported = true
      · simp [List.flatMap_map, batchesAt, found, typed]
      · simp [typed]

theorem Setup.planUpTo_isPrefix (setup : Setup Value) (rank : Nat) {few many : Nat}
    (le : few ≤ many) : setup.planUpTo rank few <+: setup.planUpTo rank many := by
  induction many with
  | zero => simp [Nat.le_zero.mp le]
  | succ many ih =>
      by_cases last : few = many + 1
      · simp [last]
      · rw [setup.planUpTo_succ]
        exact (ih (by omega)).trans (List.prefix_append _ _)

theorem run_isPrefix {Item : Type} {few many : List (Batch Item)} (ahead : few <+: many) :
    run few <+: run many := by
  obtain ⟨rest, rfl⟩ := ahead
  rw [run_append]
  exact List.prefix_append _ _

theorem Performed.events_done {setup : Setup Value} {rank call : Nat} {done : List Instr}
    (performed : Performed setup rank call done) (bound : rank < setup.worldSize) :
    run (setup.planUpTo rank call) ++ events done <+:
        run (setup.planUpTo rank (call + 1)) ∧
      (done = setup.code rank call → done ≠ [] →
        run (setup.planUpTo rank call) ++ events done =
          run (setup.planUpTo rank (call + 1))) := by
  obtain ⟨⟨rest, code⟩, noError⟩ := performed
  rw [setup.planUpTo_succ, run_append]
  cases found : setup.calls[call]? with
  | none =>
      have empty : done = [] := by simpa [Setup.code, found] using (List.append_eq_nil_iff.mp
        (code.trans (by simp [Setup.code, found]))).1
      simp [empty]
  | some args =>
      simp only [Setup.code, found] at code ⊢
      by_cases accepted : args.accepted setup.worldSize rank
      · have whole := events_callCode (setup.context rank (setup.sequenceAt call) call)
          bound accepted
        simp only [Setup.context] at whole
        constructor
        · rw [if_pos accepted.1, List.prefix_append_right_inj, Setup.context, ← whole]
          exact ⟨events rest, by rw [← events_append, code]; rfl⟩
        · rintro rfl -
          rw [if_pos accepted.1, List.append_cancel_left_eq]
          exact whole
      · obtain ⟨status, after, error, -, shape⟩ := callCode_rejected
          (setup.context rank (setup.sequenceAt call) call) accepted
        rw [shape] at code ⊢
        have early : done = [] ∨ done = [.load call] := by
          rcases done with - | ⟨first, - | ⟨second, others⟩⟩
          · exact Or.inl rfl
          · simp only [List.cons_append, List.cons.injEq] at code
            exact Or.inr (by rw [code.1]; rfl)
          · simp only [List.cons_append, List.cons.injEq] at code
            exact absurd (noError status (by simp [code.2.1])) error
        constructor
        · rcases early with rfl | rfl <;> simp [Instr.event]
        · intro same
          rcases early with rfl | rfl <;> simp at same

theorem Setup.code_ne_nil {setup : Setup Value} {call : Nat} (rank : Nat)
    (bound : call < setup.calls.length) : setup.code rank call ≠ [] := by
  simp [Setup.code, List.getElem?_eq_getElem bound, callCode]

theorem events_codeUpTo {setup : Setup Value} {rank calls : Nat} (bound : rank < setup.worldSize)
    (callsBound : calls ≤ setup.calls.length)
    (noError : ∀ status, .ret status ∈ setup.codeUpTo rank calls → status = .success) :
    events (setup.codeUpTo rank calls) = run (setup.planUpTo rank calls) := by
  induction calls with
  | zero => rfl
  | succ call ih =>
      rw [setup.codeUpTo_succ] at noError ⊢
      have earlier := ih (by omega) fun status member =>
        noError status (List.mem_append_left _ member)
      have performed : Performed setup rank call (setup.code rank call) :=
        ⟨List.prefix_rfl, fun status member => noError status (List.mem_append_right _ member)⟩
      rw [events_append, earlier]
      exact (performed.events_done bound).2 rfl (setup.code_ne_nil rank (by omega))

/-- A rank stands in its program, and no error return lies behind it. -/
structure OnSchedule (setup : Setup Value) (rank : Nat) (state : RankState Request) : Prop where
  control : Control setup rank state
  noError : ∀ status, .ret status ∈ state.log → status = .success

theorem onSchedule_of_reachable {setup : Setup Value} {transport : Transport Value Net Request}
    {net : Net} {world : World Value Net Request}
    (reachable : Reachable setup transport net world) (rank : Nat) :
    OnSchedule setup rank (world.rank rank) := by
  refine ⟨control_of_reachable reachable rank, ?_⟩
  apply Runs.Reachable.invariant (fun world => ∀ status,
    .ret status ∈ (world.rank rank).log → status = .success) reachable
  · simp [initialWorld, initialRank]
  · intro before after noError step
    cases step with
    | background done => exact noError
    | rank mover bound taken =>
        have steps := rankStep_cases taken
        by_cases same : rank = mover
        · subst same
          cases steps with
          | enter call idle succeeded next => simpa [RankState.enter] using noError
          | busy instr rest net memory todo outcome => simpa using noError
          | next instr rest net memory vars todo outcome =>
              intro status member
              rw [World.put_rank_same, RankState.advance, List.mem_append,
                List.mem_singleton] at member
              rcases member with old | new
              · exact noError status old
              · exact absurd new.symm ((perform_sequence outcome).1 status)
          | stop instr rest net memory result todo outcome =>
              intro status member
              rw [World.put_rank_same, RankState.leave] at member
              simp only at member
              split at member
              · rename_i success
                subst success
                rw [perform_stop_success outcome, List.mem_append, List.mem_singleton] at member
                rcases member with old | new
                · exact noError status old
                · exact Instr.ret.inj new
              · exact noError status member
        · have kept : after.rank rank = before.rank rank := by
            cases steps <;> exact World.put_rank_other _ _ _ _ _ same
          rwa [kept]

theorem Performed.log_ahead {setup : Setup Value} {rank call : Nat} {args : Call Value}
    {done : List Instr} (found : setup.calls[call]? = some args)
    (ahead : done <+: setup.code rank call) (bound : rank < setup.worldSize)
    (noError : ∀ status, .ret status ∈ setup.codeUpTo rank call ++ done → status = .success) :
    events (setup.codeUpTo rank call ++ done) <+: run (setup.planUpTo rank (call + 1)) := by
  have callBound : call < setup.calls.length := (List.getElem?_eq_some_iff.mp found).1
  have performed : Performed setup rank call done :=
    ⟨ahead, fun status member => noError status (List.mem_append_right _ member)⟩
  rw [events_append, events_codeUpTo bound (by omega) fun status member =>
    noError status (List.mem_append_left _ member)]
  exact (performed.events_done bound).1

theorem Setup.planUpTo_isPrefix_plan (setup : Setup Value) (rank calls : Nat) :
    setup.planUpTo rank calls <+: setup.plan rank := by
  induction calls with
  | zero => exact List.nil_prefix
  | succ call ih =>
      by_cases inside : call < setup.calls.length
      · exact setup.planUpTo_isPrefix rank inside
      · rw [setup.planUpTo_succ, List.getElem?_eq_none (by omega)]
        simpa using ih

/-- What a rank has posted and waited for belongs to the calls it has begun. -/
theorem OnSchedule.events_begun {setup : Setup Value} {rank : Nat} {state : RankState Request}
    (onSchedule : OnSchedule setup rank state) (bound : rank < setup.worldSize) :
    events state.log <+: run (setup.planUpTo rank (state.results.length + 1)) := by
  obtain ⟨control, noError⟩ := onSchedule
  cases control with
  | between calls callsBound todo results sequence log =>
      rw [log] at noError ⊢
      rw [events_codeUpTo bound callsBound noError, results, List.length_replicate]
      exact run_isPrefix (setup.planUpTo_isPrefix rank (Nat.le_succ calls))
  | inside call args found done code busy results sequence log =>
      rw [log] at noError ⊢
      rw [results, List.length_replicate]
      exact Performed.log_ahead found ⟨state.todo, code.symm⟩ bound noError
  | failed call args found done instr rest code todo status error results log =>
      rw [log] at noError ⊢
      rw [results, List.length_append, List.length_replicate]
      exact (Performed.log_ahead found ⟨instr :: rest, code.symm⟩ bound noError).trans
        (run_isPrefix (setup.planUpTo_isPrefix rank (by simp)))

theorem OnSchedule.events_log {setup : Setup Value} {rank : Nat} {state : RankState Request}
    (onSchedule : OnSchedule setup rank state) (bound : rank < setup.worldSize) :
    events state.log <+: run (setup.plan rank) :=
  (onSchedule.events_begun bound).trans (run_isPrefix (setup.planUpTo_isPrefix_plan rank _))

theorem OnSchedule.next_begun {setup : Setup Value} {rank : Nat} {state : RankState Request}
    (onSchedule : OnSchedule setup rank state) (bound : rank < setup.worldSize) {instr : Instr}
    {rest : List Instr} (todo : state.todo = instr :: rest) {event : Event Post}
    (isEvent : instr.event = some event) :
    events state.log ++ [event] <+: run (setup.planUpTo rank (state.results.length + 1)) := by
  have notRet : ∀ status, instr ≠ .ret status := by
    rintro status rfl
    simp [Instr.event] at isEvent
  obtain ⟨control, noError⟩ := onSchedule
  cases control with
  | inside call args found done code busy results sequence log =>
      rw [todo] at code
      have noErrorNext : ∀ status,
          .ret status ∈ setup.codeUpTo rank call ++ (done ++ [instr]) → status = .success := by
        intro status member
        rw [← List.append_assoc, ← log, List.mem_append, List.mem_singleton] at member
        exact noError status (member.resolve_right fun same => notRet status same.symm)
      have ahead := Performed.log_ahead found
        (show done ++ [instr] <+: setup.code rank call from ⟨rest, by rw [code]; simp⟩) bound
        noErrorNext
      rw [← List.append_assoc, ← log, events_append] at ahead
      rw [results, List.length_replicate]
      simpa [isEvent] using ahead
  | between calls callsBound idle results sequence log => simp [idle] at todo
  | failed call args found done other rest code idle status error results log =>
      simp [idle] at todo

theorem OnSchedule.events_next {setup : Setup Value} {rank : Nat} {state : RankState Request}
    (onSchedule : OnSchedule setup rank state) (bound : rank < setup.worldSize) {instr : Instr}
    {rest : List Instr} (todo : state.todo = instr :: rest) {event : Event Post}
    (isEvent : instr.event = some event) :
    ∃ after, run (setup.plan rank) = events state.log ++ event :: after := by
  obtain ⟨after, split⟩ := (onSchedule.next_begun bound todo isEvent).trans
    (run_isPrefix (setup.planUpTo_isPrefix_plan rank _))
  exact ⟨after, by rw [← split]; simp⟩

end RingAllReduce
