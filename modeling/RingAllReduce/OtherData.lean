import RingAllReduce.ZeroCopyRefinement

/-! The same run with other data: what the ranks do, and when, does not depend on the elements. -/

namespace RingAllReduce

open TagQueue

variable {Value : Type} {setup : Setup Value} {buffers : Nat → Nat → Nat → Value}

def Setup.filled (setup : Setup Value) (buffers : Nat → Nat → Nat → Value) : Setup Value :=
  { setup with calls := setup.calls.mapIdx fun call args => { args with workbuf := buffers call } }

theorem Setup.filled_call (setup : Setup Value) (buffers : Nat → Nat → Nat → Value) (call : Nat) :
    (setup.filled buffers).calls[call]? =
      setup.calls[call]?.map fun args => { args with workbuf := buffers call } := by
  simp [filled, List.getElem?_mapIdx]

/-- What a receive looks at of a message. -/
def Message.heading (message : Message Value) : UInt32 × Nat := (message.tag, message.bytes)

/-- The queues of two rings differ at most in the data. -/
def MockRing.Alongside (ring ring' : MockRing Value) : Prop :=
  ∀ rank, (ring'.incoming rank).map Message.heading = (ring.incoming rank).map Message.heading

section Alongside

variable {ring ring' next : MockRing Value} (alongside : ring.Alongside ring')

include alongside

theorem MockRing.Alongside.takeFirst_eq (rank : Nat) (tag : UInt32) :
    (takeFirst Message.tag tag (ring'.incoming rank)).map
        (fun (found, remaining) => (Message.heading found, remaining.map Message.heading)) =
      (takeFirst Message.tag tag (ring.incoming rank)).map
        fun (found, remaining) => (Message.heading found, remaining.map Message.heading) := by
  have same := congrArg (takeFirst Prod.fst tag) (alongside rank)
  rw [takeFirst_map, takeFirst_map] at same
  exact same

theorem MockRing.Alongside.update {rank : Nat} {queue queue' : List (Message Value)}
    (same : queue'.map Message.heading = queue.map Message.heading)
    {matched matched' : Nat → List (Piece × Piece)} :
    MockRing.Alongside ⟨Function.update ring.incoming rank queue, matched⟩
      ⟨Function.update ring'.incoming rank queue', matched'⟩ := by
  intro other
  by_cases here : other = rank
  · subst here
    simpa using same
  · simpa [Function.update_of_ne here] using alongside other

theorem tryCompleteReceive_none {rank : Nat} {request : RequestState} {memory : Memory Value}
    (none : tryCompleteReceive rank request ring memory = none) (memory' : Memory Value) :
    tryCompleteReceive rank request ring' memory' = .none := by
  have same := alongside.takeFirst_eq rank request.post.tag
  unfold tryCompleteReceive at none ⊢
  cases taken : takeFirst Message.tag request.post.tag (ring.incoming rank) with
  | none =>
      rw [taken, Option.map_none, Option.map_eq_none_iff] at same
      rw [same]
  | some result =>
      simp only [taken] at none
      split at none <;> simp at none

theorem tryCompleteReceive_alongside {rank : Nat} {request request' : RequestState}
    {memory after : Memory Value}
    (done : tryCompleteReceive rank request ring memory = some (request', next, after))
    (memory' : Memory Value) :
    ∃ next' after', tryCompleteReceive rank request ring' memory' = some (request', next', after') ∧
      next.Alongside next' := by
  have same := alongside.takeFirst_eq rank request.post.tag
  unfold tryCompleteReceive at done ⊢
  cases taken : takeFirst Message.tag request.post.tag (ring.incoming rank) with
  | none => simp [taken] at done
  | some result =>
      obtain ⟨message, queue⟩ := result
      rw [taken, Option.map_some, Option.map_eq_some_iff] at same
      obtain ⟨⟨message', queue'⟩, taken', headings⟩ := same
      obtain ⟨heading, queues⟩ := Prod.mk.inj headings
      have bytes : message'.bytes = message.bytes := (Prod.mk.inj heading).2
      simp only [taken] at done
      simp only [taken', bytes]
      split at done
      · rename_i differs
        simp only [Option.some.injEq, Prod.mk.injEq] at done
        obtain ⟨rfl, rfl, -⟩ := done
        rw [if_pos differs]
        exact ⟨_, _, rfl, alongside.update queues⟩
      · rename_i agrees
        simp only [Option.some.injEq, Prod.mk.injEq] at done
        obtain ⟨rfl, rfl, -⟩ := done
        rw [if_neg agrees]
        exact ⟨_, _, rfl, alongside.update queues⟩

end Alongside

section Perform

variable {ring ring' next : MockRing Value} {rank : Nat} {vars : Variables RequestState}
  {memory memory' after : Memory Value} {instr : Instr} {verdict : Verdict RequestState}

def Outcome.Alongside {Answer : Type} (outcome outcome' : Outcome (MockRing Value × Memory Value)
    Answer) : Prop :=
  ∀ next after answer, outcome = .done (next, after) answer →
    ∃ next' after', outcome' = .done (next', after') answer ∧ next.Alongside next'

theorem Outcome.Alongside.map {Answer Result : Type} {convert : Answer → Result}
    {outcome outcome' : Outcome (MockRing Value × Memory Value) Answer}
    (alongside : outcome.Alongside outcome') :
    (outcome.map convert).Alongside (outcome'.map convert) := by
  intro next after result done
  obtain ⟨answer, answered, rfl⟩ := Outcome.map_eq_done done
  obtain ⟨next', after', answered', headings⟩ := alongside next after answer answered
  exact ⟨next', after', by rw [answered']; rfl, headings⟩

theorem Outcome.alongside_done {Answer : Type} {answer : Answer} (headings : ring.Alongside ring') :
    Outcome.Alongside (.done (ring, memory) answer) (.done (ring', memory') answer) := by
  intro next after other done
  obtain ⟨same, rfl⟩ := Outcome.done.inj done
  obtain ⟨rfl, rfl⟩ := Prod.mk.inj same
  exact ⟨ring', memory', rfl, headings⟩

theorem mockPostSendNext_alongside (headings : ring.Alongside ring') (worldSize : Nat) (post : Post) :
    (mockPostSendNext worldSize rank post ring memory).Alongside
      (mockPostSendNext worldSize rank post ring' memory') := by
  apply Outcome.alongside_done
  apply headings.update
  simp [headings _, Message.heading]

theorem mockPostRecvPrev_alongside (headings : ring.Alongside ring') (post : Post) :
    (mockPostRecvPrev rank post ring memory).Alongside
      (mockPostRecvPrev rank post ring' memory') := by
  unfold mockPostRecvPrev
  cases tried : tryCompleteReceive rank (.mk .receive post false 0) ring memory with
  | none =>
      simp only [tried, tryCompleteReceive_none headings tried memory']
      exact Outcome.alongside_done headings
  | some result =>
      obtain ⟨request, next, after⟩ := result
      obtain ⟨next', after', tried', headings'⟩ :=
        tryCompleteReceive_alongside headings tried memory'
      simp only [tried, tried']
      exact Outcome.alongside_done headings'

theorem mockWait_alongside (headings : ring.Alongside ring') (request : RequestState) :
    (mockWait rank request ring memory).Alongside (mockWait rank request ring' memory') := by
  unfold mockWait
  split
  · cases tried : tryCompleteReceive rank request ring memory with
    | none =>
        intro next after answer done
        simp at done
    | some result =>
        obtain ⟨request', next, after⟩ := result
        obtain ⟨next', after', tried', headings'⟩ :=
          tryCompleteReceive_alongside headings tried memory'
        simp only [tried']
        exact Outcome.alongside_done headings'
  · exact Outcome.alongside_done headings

theorem performLocal_filled_error (buffers : Nat → Nat → Nat → Value) {status : Status}
    (failed : performLocal setup rank memory instr = .error status) (memory' : Memory Value) :
    performLocal (setup.filled buffers) rank memory' instr = .error status := by
  have same := performLocal_error failed memory'
  cases instr with
  | load call =>
      simp only [performLocal] at failed
      split at failed <;> simp at failed
  | _ => exact same

theorem performLocal_filled_ok (buffers : Nat → Nat → Nat → Value)
    (done : performLocal setup rank memory instr = .ok after) (memory' : Memory Value) :
    ∃ after', performLocal (setup.filled buffers) rank memory' instr = .ok after' := by
  cases performed : performLocal (setup.filled buffers) rank memory' instr with
  | ok after' => exact ⟨after', rfl⟩
  | error status =>
      cases instr with
      | load call =>
          simp only [performLocal] at performed
          split at performed <;> simp at performed
      | copyInput count => simp [performLocal] at performed
      | reduce destination source count datatype operation =>
          have failed : performLocal setup rank memory'
            (.reduce destination source count datatype operation) = .error status := performed
          rw [performLocal_error failed] at done
          simp at done
      | ret code => simp [performLocal] at done
      | _ => simp [performLocal] at performed

theorem perform_alongside (headings : ring.Alongside ring') :
    (perform setup (mockTransport Value setup.worldSize) rank vars ring memory instr).Alongside
      (perform (setup.filled buffers) (mockTransport Value setup.worldSize) rank vars ring' memory'
        instr) := by
  cases instr with
  | postRecv post => exact (mockPostRecvPrev_alongside headings post).map
  | postSend post =>
      simp only [perform]
      exact (mockPostSendNext_alongside headings setup.worldSize post).map
  | waitRecv post | waitSend post =>
      simp only [perform]
      split
      · exact Outcome.alongside_done headings
      · exact (mockWait_alongside headings _).map
  | storeOwned block | advanceSequence => exact Outcome.alongside_done headings
  | load call | copyInput count | reduce _ _ _ _ _ | ret status =>
      simp only [perform]
      generalize performed : performLocal setup rank memory _ = result
      cases result with
      | ok after =>
          obtain ⟨after', performed'⟩ := performLocal_filled_ok buffers performed memory'
          rw [performed']
          exact Outcome.alongside_done headings
      | error status =>
          rw [performLocal_filled_error buffers performed]
          exact Outcome.alongside_done headings

end Perform

section Step

variable {before after mirror : MockWorld Value}

/-- Two worlds that differ at most in the data. -/
structure SameCourse (world mirror : MockWorld Value) : Prop where
  rank : mirror.rank = world.rank
  headings : world.net.Alongside mirror.net

theorem SameCourse.put (same : SameCourse before mirror) {rank : Nat} {state : RankState RequestState}
    {ring ring' : MockRing Value} {memory memory' : Memory Value} (headings : ring.Alongside ring') :
    SameCourse (before.put rank state ring memory) (mirror.put rank state ring' memory') :=
  ⟨by simp only [World.put, same.rank], headings⟩

theorem rankStep_filled (buffers : Nat → Nat → Nat → Value) {rank : Nat} (same : SameCourse before mirror)
    (taken : rankStep setup (mockTransport Value setup.worldSize) rank before = some after) :
    ∃ mirror', rankStep (setup.filled buffers) (mockTransport Value setup.worldSize) rank mirror =
      some mirror' ∧ SameCourse after mirror' := by
  have performs := fun instr => @perform_alongside _ setup buffers before.net mirror.net rank
    (mirror.rank rank).vars (before.memory rank) (mirror.memory rank) instr same.headings
  cases rankStep_cases taken with
  | enter call idle succeeded next =>
      refine ⟨mirror.put rank ((mirror.rank rank).enter (setup.filled buffers) rank
        { call with workbuf := buffers (before.rank rank).results.length }) mirror.net
          (mirror.memory rank), ?_, ?_⟩
      · have made : (setup.filled buffers).calls[(before.rank rank).results.length]? =
            some { call with workbuf := buffers (before.rank rank).results.length } := by
          rw [setup.filled_call, next]
          rfl
        have every : (before.rank rank).results.all (· = .success) = true := by simpa using succeeded
        simp only [rankStep, same.rank, idle, every, made, if_true]
      · rw [same.rank]
        exact same.put same.headings
  | busy instr rest ring memory todo outcome => exact absurd outcome mock_not_busy
  | next instr rest ring memory vars todo outcome =>
      rw [← same.rank] at outcome todo ⊢
      obtain ⟨ring', memory', performed, headings⟩ := performs instr _ _ _ outcome
      exact ⟨_, rankStep_of_next todo performed, same.put headings⟩
  | stop instr rest ring memory status todo outcome =>
      rw [← same.rank] at outcome todo ⊢
      obtain ⟨ring', memory', performed, headings⟩ := performs instr _ _ _ outcome
      exact ⟨_, rankStep_of_stop todo performed, same.put headings⟩

end Step

/-- Every run is one with any other data, too. -/
theorem exists_sameCourse {world : MockWorld Value} (reachable : MockReachable setup world)
    (buffers : Nat → Nat → Nat → Value) :
    ∃ mirror, MockReachable (setup.filled buffers) mirror ∧ mirror.rank = world.rank := by
  have related : SameCourse (initialWorld setup emptyRing)
      (initialWorld (setup.filled buffers) emptyRing) := ⟨rfl, fun _ => rfl⟩
  obtain ⟨mirror, reached, same⟩ := reachable.simulate SameCourse related
    fun before after mirror _ _ same step => by
      cases step with
      | background done => exact done.elim
      | rank mover bound taken =>
          obtain ⟨mirror', taken', same'⟩ := rankStep_filled buffers same taken
          have next : Step (setup.filled buffers) (mockTransport Value setup.worldSize) mirror
            mirror' := .rank mover bound taken'
          exact ⟨mirror', .single next, same'⟩
  exact ⟨mirror, reached, same.rank⟩

end RingAllReduce
