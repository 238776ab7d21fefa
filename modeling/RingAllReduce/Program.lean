import RingAllReduce.Execution
import RingAllReduce.Tags
import RingAllReduce.Library.Splits

/-! Whatever the transport does, a rank performs a prefix of one fixed list of operations: the
code of its calls, one after the other. -/

namespace RingAllReduce

variable {Value Net Request : Type}

def Instr.Inner : Instr → Prop
  | .load _ => False
  | .advanceSequence => False
  | .ret status => status ≠ .success
  | _ => True

theorem batchPosts_error {context : Context} {phase : CollectivePhase}
    {step elementSize pieceElements batch : Nat} {flow : Flow} {status : Status}
    (member : .error status ∈
      batchPosts context phase step elementSize pieceElements flow batch) : status = .tagRange := by
  simp only [batchPosts, List.mem_map] at member
  obtain ⟨piece, -, failed⟩ := member
  unfold postFor at failed
  split at failed
  · rename_i found made
    simp only [Except.error.injEq] at failed
    exact failed ▸ makeTag_error made
  · simp at failed

theorem stepBody_inner (context : Context) (phase : CollectivePhase)
    (step elementSize pieceElements : Nat) (recv send : Flow) {afterWait : Post → List Instr}
    (afterInner : ∀ post, ∀ instr ∈ afterWait post, instr.Inner) :
    ∀ instr ∈ stepBody context phase step elementSize pieceElements recv send afterWait,
      instr.Inner := by
  intro instr member
  simp only [stepBody, batchBody, postAll, List.mem_flatMap, List.mem_append, List.mem_map] at member
  obtain ⟨batch, -, ((⟨made, madeIn, rfl⟩ | ⟨made, madeIn, rfl⟩) | ⟨post, -, inside⟩) |
    ⟨post, -, rfl⟩⟩ := member
  · split
    · trivial
    · rw [batchPosts_error madeIn]
      simp [Instr.Inner]
  · split
    · trivial
    · rw [batchPosts_error madeIn]
      simp [Instr.Inner]
  · exact afterInner post instr inside
  · trivial

theorem computeBlockLayout_error {count : Nat} {worldSize : Int} {status : Status}
    (failed : computeBlockLayout count worldSize = .error status) : status ≠ .success := by
  unfold computeBlockLayout at failed
  split at failed
  · rw [← Except.error.inj failed]
    simp
  · simp at failed

theorem ringReduceScatterInplace_inner (context : Context) (count : Nat) (datatype : Datatype)
    (operation : Operation) :
    ∀ instr ∈ ringReduceScatterInplace context count datatype operation, instr.Inner := by
  intro instr member
  unfold ringReduceScatterInplace at member
  split at member
  · rw [List.mem_singleton.mp member]
    simp [Instr.Inner]
  · split at member
    · rename_i status failed
      rw [List.mem_singleton.mp member]
      exact computeBlockLayout_error failed
    · rename_i layout _
      rcases List.mem_append.mp member with inSteps | owned
      · obtain ⟨step, -, inStep⟩ := List.mem_flatMap.mp inSteps
        apply stepBody_inner _ _ _ _ _ _ _ _ instr inStep
        intro post other inside
        rcases List.mem_pair.mp inside with rfl | rfl <;> trivial
      · rw [List.mem_singleton.mp owned]
        trivial

theorem ringAllGatherInplace_inner (context : Context) (count : Nat) (datatype : Datatype)
    (owned : Int) :
    ∀ instr ∈ ringAllGatherInplace context count datatype owned, instr.Inner := by
  intro instr member
  unfold ringAllGatherInplace at member
  repeat' split at member
  · rw [List.mem_singleton.mp member]
    simp [Instr.Inner]
  · rw [List.mem_singleton.mp member]
    simp [Instr.Inner]
  · rw [List.mem_singleton.mp member]
    simp [Instr.Inner]
  · rename_i status failed
    rw [List.mem_singleton.mp member]
    exact computeBlockLayout_error failed
  · obtain ⟨step, -, inStep⟩ := List.mem_flatMap.mp member
    apply stepBody_inner _ _ _ _ _ _ _ _ instr inStep
    intro post other inside
    rw [List.mem_singleton.mp inside]
    trivial

def Kind.ending : Kind → List Instr
  | .allReduce => [.advanceSequence, .ret .success]
  | .reduceScatter => [.ret .success]
  | .allGather => [.ret .success]

/-- A call's code is its `load`, then operations of which none returns successfully, and then
either the successful ending or, where the arguments are rejected at once, nothing. -/
theorem callCode_shape (context : Context) (call : Call Value) :
    ∃ body, (∀ instr ∈ body, instr.Inner) ∧
      (callCode context call = .load context.call :: body ++ call.kind.ending ∨
        ∃ status, body = [.ret status] ∧ callCode context call = .load context.call :: body) := by
  unfold callCode
  split
  · rename_i kind
    unfold ringAllReduce
    split
    · exact ⟨_, by simp [Instr.Inner], Or.inr ⟨_, rfl, rfl⟩⟩
    · split
      · exact ⟨_, by simp [Instr.Inner], Or.inr ⟨_, rfl, rfl⟩⟩
      · refine ⟨_, ?_, Or.inl (by rw [kind, List.cons_append]; rfl)⟩
        intro instr member
        rcases List.mem_append.mp member with front | gather
        · rcases List.mem_append.mp front with copy | scatter
          · split at copy
            · simp at copy
            · rw [List.mem_singleton.mp copy]
              trivial
          · exact ringReduceScatterInplace_inner _ _ _ _ instr scatter
        · exact ringAllGatherInplace_inner _ _ _ _ instr gather
  · rename_i kind
    exact ⟨_, ringReduceScatterInplace_inner _ _ _ _, Or.inl (by rw [kind, List.cons_append]; rfl)⟩
  · rename_i kind
    exact ⟨_, ringAllGatherInplace_inner _ _ _ _, Or.inl (by rw [kind, List.cons_append]; rfl)⟩

theorem callCode_ends (context : Context) (call : Call Value) :
    ∃ front status, callCode context call = front ++ [.ret status] := by
  obtain ⟨body, -, success | ⟨status, rfl, failure⟩⟩ := callCode_shape context call
  · cases kind : call.kind with
    | allReduce =>
        refine ⟨.load context.call :: body ++ [.advanceSequence], .success, ?_⟩
        simp [success, kind, Kind.ending]
    | reduceScatter | allGather =>
        refine ⟨.load context.call :: body, .success, ?_⟩
        simp [success, kind, Kind.ending]
  · exact ⟨[.load context.call], status, failure⟩

def Kind.advances (kind : Kind) : Nat := if kind = .allReduce then 1 else 0

theorem count_advanceSequence {body : List Instr} (inner : ∀ instr ∈ body, instr.Inner) :
    body.count .advanceSequence = 0 := by
  rw [List.count_eq_zero]
  intro member
  exact inner _ member

theorem callCode_success {context : Context} {call : Call Value} {done rest : List Instr}
    (split : callCode context call = done ++ .ret .success :: rest) :
    rest = [] ∧ done.count .advanceSequence = call.kind.advances := by
  obtain ⟨body, inner, shape⟩ := callCode_shape context call
  have inBody : ∀ found : List Instr, ∀ tail, body = found ++ .ret .success :: tail → False := by
    intro found tail bodyEq
    exact inner (.ret .success) (by simp [bodyEq]) rfl
  have front : ∀ tail, (.load context.call :: body) = done ++ .ret .success :: tail → False := by
    intro tail bodyEq
    cases done with
    | nil => simp at bodyEq
    | cons head done =>
        simp only [List.cons_append, List.cons.injEq] at bodyEq
        exact inBody done tail bodyEq.2
  rcases shape with success | ⟨status, -, failure⟩
  · rw [success] at split
    rcases Splits.append_split split with ⟨tail, bodyEq, -⟩ | ⟨lead, doneEq, endEq⟩
    · exact (front tail bodyEq).elim
    · cases kind : call.kind with
      | allReduce =>
          rw [kind, Kind.ending] at endEq
          cases lead with
          | nil => simp at endEq
          | cons head lead =>
              simp only [List.cons_append, List.cons.injEq] at endEq
              cases lead with
              | nil =>
                  simp only [List.nil_append, List.cons.injEq, true_and] at endEq
                  refine ⟨endEq.2.symm, ?_⟩
                  rw [doneEq, ← endEq.1, List.count_append, List.count_cons_of_ne (by simp),
                    count_advanceSequence inner]
                  rfl
              | cons next lead => simp at endEq
      | reduceScatter | allGather =>
          rw [kind, Kind.ending] at endEq
          cases lead with
          | nil =>
              simp only [List.nil_append, List.cons.injEq, true_and] at endEq
              refine ⟨endEq.symm, ?_⟩
              rw [doneEq, List.append_nil, List.count_cons_of_ne (by simp),
                count_advanceSequence inner]
              rfl
          | cons head lead => simp at endEq
  · rw [failure] at split
    exact (front rest split).elim

/-- The sequence number of a context before its call number `call`, if all earlier calls
succeeded. -/
def Setup.sequenceAt (setup : Setup Value) : Nat → UInt32
  | 0 => 0
  | call + 1 => setup.sequenceAt call + match setup.calls[call]? with
      | some args => UInt32.ofNat args.kind.advances
      | none => 0

def Setup.code (setup : Setup Value) (rank call : Nat) : List Instr :=
  match setup.calls[call]? with
  | some args => callCode (setup.context rank (setup.sequenceAt call) call) args
  | none => []

def Setup.codeUpTo (setup : Setup Value) (rank calls : Nat) : List Instr :=
  (List.range calls).flatMap (setup.code rank)

def Setup.program (setup : Setup Value) (rank : Nat) : List Instr :=
  setup.codeUpTo rank setup.calls.length

theorem Setup.codeUpTo_succ (setup : Setup Value) (rank call : Nat) :
    setup.codeUpTo rank (call + 1) = setup.codeUpTo rank call ++ setup.code rank call := by
  simp [Setup.codeUpTo, List.range_succ]

theorem Setup.codeUpTo_isPrefix (setup : Setup Value) (rank : Nat) {few many : Nat}
    (le : few ≤ many) : setup.codeUpTo rank few <+: setup.codeUpTo rank many := by
  induction many with
  | zero => simp [Nat.le_zero.mp le]
  | succ many ih =>
      by_cases last : few = many + 1
      · simp [last]
      · rw [setup.codeUpTo_succ]
        exact (ih (by omega)).trans (List.prefix_append _ _)

/-- Where a rank stands in its program. -/
inductive Control (setup : Setup Value) (rank : Nat) (state : RankState Request) : Prop
  /-- Between two calls, after `calls` successful ones. -/
  | between (calls : Nat) (bound : calls ≤ setup.calls.length) (todo : state.todo = [])
      (results : state.results = List.replicate calls .success)
      (sequence : state.vars.sequence = setup.sequenceAt calls)
      (log : state.log = setup.codeUpTo rank calls)
  /-- Inside call number `call`, of which `done` is performed. -/
  | inside (call : Nat) (args : Call Value) (found : setup.calls[call]? = some args)
      (done : List Instr) (code : setup.code rank call = done ++ state.todo)
      (busy : state.todo ≠ []) (results : state.results = List.replicate call .success)
      (sequence : state.vars.sequence =
        setup.sequenceAt call + UInt32.ofNat (done.count .advanceSequence))
      (log : state.log = setup.codeUpTo rank call ++ done)
  /-- Call number `call` returned an error after `done`, instead of performing `instr`. -/
  | failed (call : Nat) (args : Call Value) (found : setup.calls[call]? = some args)
      (done : List Instr) (instr : Instr) (rest : List Instr)
      (code : setup.code rank call = done ++ instr :: rest)
      (todo : state.todo = []) (status : Status) (error : status ≠ .success)
      (results : state.results = List.replicate call .success ++ [status])
      (log : state.log = setup.codeUpTo rank call ++ done)

theorem perform_sequence {setup : Setup Value} {transport : Transport Value Net Request}
    {rank : Nat} {vars after : Variables Request} {net net' : Net} {memory memory' : Memory Value}
    {instr : Instr}
    (outcome : perform setup transport rank vars net memory instr =
      .done (net', memory') (.next after)) :
    (∀ status, instr ≠ .ret status) ∧
      after.sequence = vars.sequence + UInt32.ofNat ([instr].count .advanceSequence) := by
  have mapped : ∀ {Answer : Type} {convert : Answer → Verdict Request}
      {base : Outcome (Net × Memory Value) Answer},
      base.map convert = .done (net', memory') (.next after) →
        ∃ answer, convert answer = .next after := by
    intro Answer convert base eq
    cases base <;> simp only [Outcome.map, reduceCtorEq, Outcome.done.injEq] at eq
    exact ⟨_, eq.2⟩
  cases instr with
  | postRecv post | postSend post =>
      obtain ⟨answer, answered⟩ := mapped outcome
      cases answer <;> simp only [reduceCtorEq, Verdict.next.injEq] at answered
      subst answered
      exact ⟨by simp, by simp [Variables.assign]⟩
  | waitRecv post | waitSend post =>
      simp only [perform] at outcome
      split at outcome
      · simp at outcome
      · obtain ⟨answer, answered⟩ := mapped outcome
        cases answer <;> simp only [reduceCtorEq, Verdict.next.injEq, if_true, if_false,
          Bool.false_eq_true] at answered
        subst answered
        exact ⟨by simp, by simp [Variables.assign]⟩
  | storeOwned block | advanceSequence =>
      simp only [perform, Outcome.done.injEq, Verdict.next.injEq] at outcome
      obtain ⟨-, rfl⟩ := outcome
      exact ⟨by simp, by simp⟩
  | ret status => simp [perform, performLocal] at outcome
  | load call | copyInput count | reduce _ _ _ _ _ =>
      simp only [perform] at outcome
      split at outcome
      · simp only [Outcome.done.injEq, Verdict.next.injEq] at outcome
        obtain ⟨-, rfl⟩ := outcome
        exact ⟨by simp, by simp⟩
      · simp at outcome

theorem perform_stop_success {setup : Setup Value} {transport : Transport Value Net Request}
    {rank : Nat} {vars : Variables Request} {net net' : Net} {memory memory' : Memory Value}
    {instr : Instr}
    (outcome : perform setup transport rank vars net memory instr =
      .done (net', memory') (.stop .success)) : instr = .ret .success := by
  have mapped : ∀ {Answer : Type} {convert : Answer → Verdict Request}
      {base : Outcome (Net × Memory Value) Answer},
      base.map convert = .done (net', memory') (.stop .success) →
        ∃ answer, convert answer = .stop .success := by
    intro Answer convert base eq
    cases base <;> simp only [Outcome.map, reduceCtorEq, Outcome.done.injEq] at eq
    exact ⟨_, eq.2⟩
  cases instr with
  | postRecv post | postSend post =>
      obtain ⟨answer, answered⟩ := mapped outcome
      cases answer <;> simp at answered
  | waitRecv post | waitSend post =>
      simp only [perform] at outcome
      split at outcome
      · simp at outcome
      · obtain ⟨answer, answered⟩ := mapped outcome
        cases answer <;> simp at answered
  | ret status =>
      simp only [perform, performLocal, Outcome.done.injEq, Verdict.stop.injEq] at outcome
      rw [outcome.2]
  | reduce destination source count datatype operation =>
      simp only [perform, performLocal] at outcome
      split at outcome
      · simp at outcome
      · rename_i status failed
        simp only [Outcome.done.injEq, Verdict.stop.injEq] at outcome
        split at failed
        · simp at failed
        · rename_i error rejected
          have cause := reduceInPlace_error rejected
          rw [Except.error.inj failed, outcome.2] at cause
          simp at cause
  | load call =>
      simp only [perform, performLocal] at outcome
      split at outcome
      · simp at outcome
      · rename_i status failed
        split at failed <;> simp at failed
  | copyInput count | storeOwned block | advanceSequence =>
      simp only [perform, performLocal, Outcome.done.injEq, reduceCtorEq, and_false] at outcome

theorem control_step {setup : Setup Value} {transport : Transport Value Net Request} {rank : Nat}
    {before after : World Value Net Request} (taken : RankStep setup transport rank before after)
    (control : Control setup rank (before.rank rank)) :
    Control setup rank (after.rank rank) := by
  cases taken with
  | enter call idle succeeded next =>
      rw [World.put_rank_same]
      cases control with
      | between calls bound todo results sequence log =>
          have length : (before.rank rank).results.length = calls := by simp [results]
          rw [length] at next
          have code : setup.code rank calls = callCode (setup.context rank
              (before.rank rank).vars.sequence calls) call := by
            simp [Setup.code, next, sequence]
          refine .inside calls call next [] ?_ ?_ results (by simpa [RankState.enter] using sequence)
            (by simpa [RankState.enter] using log)
          · simpa [RankState.enter, length] using code
          · simp [RankState.enter, callCode]
      | inside call args found done code busy results sequence log => exact absurd idle busy
      | failed call args found done instr rest code todo status error results log =>
          exact absurd (succeeded status (by simp [results])) error
  | busy instr rest net memory todo outcome => simpa using control
  | next instr rest net memory vars todo outcome =>
      rw [World.put_rank_same]
      obtain ⟨notRet, counted⟩ := perform_sequence outcome
      cases control with
      | inside call args found done code busy results sequence log =>
          rw [todo] at code
          refine .inside call args found (done ++ [instr]) ?_ ?_ results ?_ ?_
          · simpa [RankState.advance] using code
          · intro empty
            have codeEq : setup.code rank call = done ++ [instr] := by
              simpa [show rest = [] from empty] using code
            obtain ⟨front, status, ends⟩ := callCode_ends
              (setup.context rank (setup.sequenceAt call) call) args
            simp only [Setup.code, found] at codeEq
            rw [ends] at codeEq
            have last := (List.append_inj' codeEq rfl).2
            exact notRet status (List.cons.inj last).1.symm
          · simp only [RankState.advance, counted, sequence, List.count_append, UInt32.ofNat_add,
              UInt32.add_assoc]
          · simp [RankState.advance, log]
      | between calls bound idle results sequence log => simp [idle] at todo
      | failed call args found done other rest code idle status error results log =>
          simp [idle] at todo
  | stop instr rest net memory status todo outcome =>
      rw [World.put_rank_same]
      cases control with
      | inside call args found done code busy results sequence log =>
          rw [todo] at code
          by_cases success : status = .success
          · subst success
            obtain rfl := perform_stop_success outcome
            have shape := code
            simp only [Setup.code, found] at shape
            obtain ⟨rfl, counted⟩ := callCode_success shape
            have callBound : call < setup.calls.length := (List.getElem?_eq_some_iff.mp found).1
            refine .between (call + 1) (by omega) rfl ?_ ?_ ?_
            · simp [RankState.leave, results, List.replicate_succ']
            · simp only [RankState.leave, sequence, counted, Setup.sequenceAt, found]
            · simp [RankState.leave, log, Setup.codeUpTo_succ, code]
          · exact .failed call args found done instr rest code rfl status success
              (by simp [RankState.leave, results]) (by simp [RankState.leave, log, success])
      | between calls bound idle results sequence log => simp [idle] at todo
      | failed call args found done other rest code idle status error results log =>
          simp [idle] at todo

theorem control_of_reachable {setup : Setup Value} {transport : Transport Value Net Request}
    {net : Net} {world : World Value Net Request}
    (reachable : Reachable setup transport net world) :
    ∀ rank, Control setup rank (world.rank rank) := by
  apply Runs.Reachable.invariant (fun world => ∀ rank, Control setup rank (world.rank rank))
    reachable
  · intro rank
    exact .between 0 (by omega) rfl rfl rfl rfl
  · intro before after control step rank
    cases step with
    | rank mover bound taken =>
        by_cases same : rank = mover
        · subst same
          exact control_step (rankStep_cases taken) (control rank)
        · have kept : after.rank rank = before.rank rank := by
            cases rankStep_cases taken <;> exact World.put_rank_other _ _ _ _ _ same
          rw [kept]
          exact control rank
    | background done => exact control rank

/-- What a rank has performed and what its call has yet to perform are the beginning of its
program. -/
theorem Control.on_program {setup : Setup Value} {rank : Nat} {state : RankState Request}
    (control : Control setup rank state) :
    state.log ++ state.todo <+: setup.program rank := by
  have upTo : ∀ {call : Nat} {args : Call Value}, setup.calls[call]? = some args →
      setup.codeUpTo rank call ++ setup.code rank call <+: setup.program rank := by
    intro call args found
    rw [← Setup.codeUpTo_succ]
    exact setup.codeUpTo_isPrefix rank (List.getElem?_eq_some_iff.mp found).1
  cases control with
  | between calls bound todo results sequence log =>
      rw [todo, log, List.append_nil]
      exact setup.codeUpTo_isPrefix rank bound
  | inside call args found done code busy results sequence log =>
      rw [log, List.append_assoc, ← code]
      exact upTo found
  | failed call args found done instr rest code todo status error results log =>
      have whole := upTo found
      rw [code, ← List.append_assoc] at whole
      rw [todo, log, List.append_nil]
      exact (List.prefix_append _ _).trans whole

end RingAllReduce
