import RingAllReduce.Races

/-!
A rank whose open receives are still under way works as if they had all delivered what they
should: the operations of the rank itself preserve the agreement of its memory with the expected
one outside the open receives.
-/

namespace RingAllReduce

open Exchange Rotation

variable {Value Net Request : Type} {setup : Setup Value} {rank : Nat}

def AgreeOutside (requests : List Post) (memory expected : Memory Value) : Prop :=
  ∀ buffer index, (∀ request ∈ requests, ¬ request.covers buffer index) →
    memory buffer index = expected buffer index

theorem AgreeOutside.store {requests : List Post} {memory expected : Memory Value}
    (agree : AgreeOutside requests memory expected) (buffer : Buffer) (start : Nat)
    (payload : List Value) :
    AgreeOutside requests (memory.store buffer start payload)
      (expected.store buffer start payload) := by
  intro target index outside
  unfold Memory.store
  rw [agree target index outside]

theorem AgreeOutside.load_eq {requests : List Post} {memory expected : Memory Value}
    (agree : AgreeOutside requests memory expected) {buffer : Buffer} {start count : Nat}
    (outside : ∀ index < count, ∀ request ∈ requests, ¬ request.covers buffer (start + index)) :
    memory.load buffer start count = expected.load buffer start count :=
  Memory.load_congr fun index bound => agree buffer (start + index) (outside index bound)

/-- The operations of the rank itself change what they write, and nothing else. -/
theorem performLocal_unwritten {instr : Instr} {memory memory' : Memory Value}
    (performed : performLocal setup rank memory instr = .ok memory') {buffer : Buffer} {index : Nat}
    (unwritten : ¬ instr.writes buffer index) : memory' buffer index = memory buffer index := by
  cases instr with
  | load call =>
      simp only [performLocal] at performed
      split at performed
      · rw [← Except.ok.inj performed]
        cases buffer with
        | workbuf => simp [Instr.writes] at unwritten
        | sendbuf => simp [Instr.writes] at unwritten
        | temporary => rfl
      · rw [← Except.ok.inj performed]
  | copyInput count =>
      simp only [performLocal, Except.ok.injEq] at performed
      rw [← performed]
      apply Memory.store_outside
      rw [Memory.load_length]
      by_contra inside
      simp only [not_or, not_not, not_lt, not_le] at inside
      exact unwritten ⟨inside.1, by omega⟩
  | reduce destination source count datatype operation =>
      simp only [performLocal] at performed
      split at performed
      · rename_i reduced isReduced
        have short := reduceInPlace_length isReduced
        rw [Memory.load_length] at short
        rw [← Except.ok.inj performed]
        apply Memory.store_outside
        by_contra inside
        simp only [not_or, not_not, not_lt, not_le] at inside
        exact unwritten ⟨inside.1, by omega, by omega⟩
      · simp at performed
  | ret status => simp [performLocal] at performed
  | _ =>
      simp only [performLocal, Except.ok.injEq] at performed
      rw [performed]

theorem perform_local_next {transport : Transport Value Net Request}
    {vars vars' : Variables Request} {net net' : Net} {memory memory' : Memory Value} {instr : Instr}
    (noEvent : instr.event = none)
    (outcome : perform setup transport rank vars net memory instr =
      .done (net', memory') (.next vars')) :
    net' = net ∧ vars'.requests = vars.requests ∧
      performLocal setup rank memory instr = .ok memory' := by
  cases instr with
  | postRecv post | postSend post | waitRecv post | waitSend post => simp [Instr.event] at noEvent
  | storeOwned block | advanceSequence =>
      simp only [perform, Outcome.done.injEq, Prod.mk.injEq, Verdict.next.injEq] at outcome
      obtain ⟨⟨rfl, rfl⟩, rfl⟩ := outcome
      exact ⟨rfl, rfl, rfl⟩
  | load call | copyInput count | reduce _ _ _ _ _ | ret status =>
      simp only [perform] at outcome
      split at outcome
      · rename_i performed
        simp only [Outcome.done.injEq, Prod.mk.injEq, Verdict.next.injEq] at outcome
        obtain ⟨⟨rfl, rfl⟩, rfl⟩ := outcome
        exact ⟨rfl, rfl, performed⟩
      · simp at outcome

theorem perform_local_stop {transport : Transport Value Net Request}
    {vars : Variables Request} {net net' : Net} {memory memory' : Memory Value} {instr : Instr}
    {status : Status} (noEvent : instr.event = none)
    (outcome : perform setup transport rank vars net memory instr =
      .done (net', memory') (.stop status)) : net' = net ∧ memory' = memory := by
  cases instr with
  | postRecv post | postSend post | waitRecv post | waitSend post => simp [Instr.event] at noEvent
  | storeOwned block | advanceSequence => simp [perform] at outcome
  | load call | copyInput count | reduce _ _ _ _ _ | ret status =>
      simp only [perform] at outcome
      split at outcome
      · simp at outcome
      · simp only [Outcome.done.injEq, Prod.mk.injEq] at outcome
        exact ⟨outcome.1.1.symm, outcome.1.2.symm⟩

theorem perform_local_busy {transport : Transport Value Net Request}
    {vars : Variables Request} {net net' : Net} {memory memory' : Memory Value} {instr : Instr}
    (noEvent : instr.event = none) :
    perform setup transport rank vars net memory instr ≠ .busy (net', memory') ∧
      perform setup transport rank vars net memory instr ≠ .blocked := by
  cases instr with
  | postRecv post | postSend post | waitRecv post | waitSend post => simp [Instr.event] at noEvent
  | storeOwned block | advanceSequence => simp [perform]
  | load call | copyInput count | reduce _ _ _ _ _ | ret status =>
      simp only [perform]
      split <;> simp

theorem leave_log {Request : Type} (state : RankState Request) {instr : Instr} (status : Status)
    (noEvent : instr.event = none) : events (state.leave instr status).log = events state.log := by
  unfold RankState.leave
  simp only
  split <;> simp [noEvent]

theorem leave_expected {transport : Transport Value Net Request} {state : RankState Request}
    {net net' : Net} {memory memory' : Memory Value} {instr : Instr} {status : Status}
    (outcome : perform setup transport rank state.vars net memory instr =
      .done (net', memory') (.stop status)) :
    expectedMemory setup rank (setup.memory rank) (state.leave instr status).log =
      expectedMemory setup rank (setup.memory rank) state.log := by
  unfold RankState.leave
  simp only
  split
  · rename_i success
    rw [success] at outcome
    rw [perform_stop_success outcome, expectedMemory_append]
    rfl
  · rfl

theorem AgreeOutside.performLocal {done : List (Event Post)} {instr : Instr}
    {memory memory' expected : Memory Value} (free : RaceFree done instr)
    (agree : AgreeOutside (openRecvs done) memory expected) (noEvent : instr.event = none)
    (performed : RingAllReduce.performLocal setup rank memory instr = .ok memory') :
    AgreeOutside (openRecvs done) memory' (expectedStep setup rank expected instr) := by
  cases instr with
  | load call =>
      simp only [RingAllReduce.performLocal, expectedStep] at performed ⊢
      split at performed
      · rename_i args found
        rw [← Except.ok.inj performed]
        intro buffer index outside
        cases buffer with
        | workbuf => rfl
        | sendbuf => rfl
        | temporary => exact agree .temporary index outside
      · rwa [← Except.ok.inj performed]
  | copyInput count =>
      simp only [RingAllReduce.performLocal, expectedStep] at performed ⊢
      have same : memory.load .sendbuf 0 count = expected.load .sendbuf 0 count := by
        apply agree.load_eq
        intro index bound request member covers
        exact (free.recvs request member _ _ covers).1 ⟨rfl, by omega⟩
      rw [← Except.ok.inj performed, same]
      exact agree.store _ _ _
  | reduce destination source count datatype operation =>
      simp only [RingAllReduce.performLocal, expectedStep] at performed ⊢
      have sameDestination : memory.load .workbuf destination count =
          expected.load .workbuf destination count := by
        apply agree.load_eq
        intro index bound request member covers
        exact (free.recvs request member _ _ covers).1 (Or.inl ⟨rfl, by omega, by omega⟩)
      have sameSource : memory.load .temporary source count =
          expected.load .temporary source count := by
        apply agree.load_eq
        intro index bound request member covers
        exact (free.recvs request member _ _ covers).1 (Or.inr ⟨rfl, by omega, by omega⟩)
      rw [sameDestination, sameSource] at performed
      cases reduced : reduceInPlace setup.element (expected.load .workbuf destination count)
          (expected.load .temporary source count) count datatype operation with
      | error status => simp [reduced] at performed
      | ok values =>
          simp only [reduced, Except.ok.injEq] at performed
          rw [← performed]
          exact agree.store _ _ _
  | storeOwned block | advanceSequence =>
      simp only [RingAllReduce.performLocal, expectedStep] at performed ⊢
      rwa [← Except.ok.inj performed]
  | ret status => simp [RingAllReduce.performLocal] at performed
  | postRecv post | postSend post | waitRecv post | waitSend post => simp [Instr.event] at noEvent

theorem OnSchedule.payload {state : RankState Request} (onSchedule : OnSchedule setup rank state)
    (bound : rank < setup.worldSize) {post : Post} {rest : List Instr}
    (todo : state.todo = .postSend post :: rest) :
    (expectedMemory setup rank (setup.memory rank) state.log).load post.buffer post.start
      post.elementCount = setup.payload post.toPiece := by
  obtain ⟨call, args, done, found, code, log, -, noError, -⟩ := onSchedule.underway bound todo
  rw [log, expectedMemory_append]
  exact payload_in_call found bound code noError _

/-- A payload in flight is what a rank reads from memory that agrees with the expected one. -/
theorem OnSchedule.payload_of_agree {state : RankState Request}
    (onSchedule : OnSchedule setup rank state) (bound : rank < setup.worldSize) {post : Post}
    {rest : List Instr} (todo : state.todo = .postSend post :: rest) {memory : Memory Value}
    (agree : AgreeOutside (openRecvs (events state.log)) memory
      (expectedMemory setup rank (setup.memory rank) state.log)) :
    memory.load post.buffer post.start post.elementCount = setup.payload post.toPiece := by
  rw [← onSchedule.payload bound todo]
  apply agree.load_eq
  intro index inside request member covers
  obtain ⟨after, split⟩ := onSchedule.events_next bound todo rfl
  have ahead : events state.log <+: run (setup.plan rank) := ⟨_, split.symm⟩
  have aheadNext : events state.log ++ [.postSend post] <+: run (setup.plan rank) :=
    ⟨after, by rw [split]; simp⟩
  have apart := open_apart bound aheadNext
  rw [openRecvs_snoc_postSend, openSends_snoc_postSend (sendWaits_isPrefix ahead).length_le] at apart
  exact apart.separate request member post (by simp) _ _ covers ⟨rfl, by omega, by omega⟩

end RingAllReduce
