import RingAllReduce.Agreement

/-!
Which request a wait is about. The requests of a rank are numbered in the order they were posted;
those that are still open are found in the slots of their pieces, and a wait is for the oldest.
-/

namespace RingAllReduce

open Exchange Rotation

variable {Value Net Request : Type} {setup : Setup Value} {rank : Nat}
  {state : RankState Request} {recvs sends : List Request} {post : Post} {rest : List Instr}

/-- `recvs` and `sends` are the requests a rank was given for its posts, in posting order. -/
structure Slotted (state : RankState Request) (recvs sends : List Request) : Prop where
  recvLength : recvs.length = (recvPosts (events state.log)).length
  sendLength : sends.length = (sendPosts (events state.log)).length
  recvSlots : ∀ place post request, (recvPosts (events state.log))[place]? = some post →
    recvs[place]? = some request → (recvWaits (events state.log)).length ≤ place →
      state.vars.requests (.recv post.pieceIndex) = some request
  sendSlots : ∀ place post request, (sendPosts (events state.log))[place]? = some post →
    sends[place]? = some request → (sendWaits (events state.log)).length ≤ place →
      state.vars.requests (.send post.pieceIndex) = some request

theorem Slotted.quiet (slotted : Slotted state recvs sends) {state' : RankState Request}
    (eventsEq : events state'.log = events state.log)
    (requests : state'.vars.requests = state.vars.requests) : Slotted state' recvs sends := by
  obtain ⟨recvLength, sendLength, recvSlots, sendSlots⟩ := slotted
  constructor <;> rw [eventsEq]
  · exact recvLength
  · exact sendLength
  · rwa [requests]
  · rwa [requests]

theorem mem_open_of_place {posts : List Post} {waits place : Nat}
    (found : posts[place]? = some post) (open_ : waits ≤ place) : post ∈ posts.drop waits := by
  apply List.mem_of_getElem? (i := place - waits)
  rw [List.getElem?_drop, show waits + (place - waits) = place by omega, found]

theorem advance_events (vars : Variables Request) {instr : Instr} {event : Event Post}
    (isEvent : instr.event = some event) :
    events (state.advance vars instr rest).log = events state.log ++ [event] := by
  simp [RankState.advance, isEvent]

theorem slot_of_snoc {posts : List Post} {requests : List Request} {request found : Request}
    {other : Post} {place : Nat} (length : requests.length = posts.length)
    (isPost : (posts ++ [post])[place]? = some other)
    (isRequest : (requests ++ [request])[place]? = some found) :
    (posts[place]? = some other ∧ requests[place]? = some found) ∨ other = post ∧ found = request := by
  by_cases old : place < requests.length
  · rw [List.getElem?_append_left (by omega)] at isPost
    rw [List.getElem?_append_left old] at isRequest
    exact Or.inl ⟨isPost, isRequest⟩
  · have bound := (List.getElem?_eq_some_iff.mp isRequest).1
    simp only [List.length_append, List.length_singleton] at bound
    obtain rfl : place = requests.length := by omega
    rw [List.getElem?_append_right (Nat.le_refl _)] at isRequest
    rw [length, List.getElem?_append_right (Nat.le_refl _)] at isPost
    simp only [Nat.sub_self, List.getElem?_cons_zero, Option.some.injEq] at isRequest isPost
    exact Or.inr ⟨isPost.symm, isRequest.symm⟩

section Events

variable (slotted : Slotted state recvs sends) (onSchedule : OnSchedule setup rank state)
  (bound : rank < setup.worldSize)

include slotted onSchedule bound

theorem Slotted.postRecv (todo : state.todo = .postRecv post :: rest) (request : Request) :
    Slotted (state.advance (state.vars.assign (.recv post.pieceIndex) (some request))
      (.postRecv post) rest) (recvs ++ [request]) sends := by
  have apart := (onSchedule.postRecv_new bound todo).2
  obtain ⟨recvPostsEq, sendPostsEq, recvWaitsEq, sendWaitsEq⟩ :=
    snoc_postRecv (events state.log) post
  constructor <;> rw [advance_events _ rfl]
  · rw [recvPostsEq, List.length_append, List.length_append, slotted.recvLength]
    rfl
  · rw [sendPostsEq, slotted.sendLength]
  · rw [recvPostsEq, recvWaitsEq]
    intro place other found isPost isRequest waits
    rcases slot_of_snoc slotted.recvLength isPost isRequest with ⟨oldPost, oldRequest⟩ | ⟨rfl, rfl⟩
    · have different := (apart other (mem_open_of_place oldPost waits)).2.1
      simpa [RankState.advance, Variables.assign, different] using
        slotted.recvSlots place other found oldPost oldRequest waits
    · simp [RankState.advance, Variables.assign]
  · rw [sendPostsEq, sendWaitsEq]
    intro place other found isPost isRequest waits
    simpa [RankState.advance, Variables.assign] using
      slotted.sendSlots place other found isPost isRequest waits

theorem Slotted.postSend (todo : state.todo = .postSend post :: rest) (request : Request) :
    Slotted (state.advance (state.vars.assign (.send post.pieceIndex) (some request))
      (.postSend post) rest) recvs (sends ++ [request]) := by
  have apart := onSchedule.postSend_apart bound todo
  obtain ⟨recvPostsEq, sendPostsEq, recvWaitsEq, sendWaitsEq⟩ :=
    snoc_postSend (events state.log) post
  constructor <;> rw [advance_events _ rfl]
  · rw [recvPostsEq, slotted.recvLength]
  · rw [sendPostsEq, List.length_append, List.length_append, slotted.sendLength]
    rfl
  · rw [recvPostsEq, recvWaitsEq]
    intro place other found isPost isRequest waits
    simpa [RankState.advance, Variables.assign] using
      slotted.recvSlots place other found isPost isRequest waits
  · rw [sendPostsEq, sendWaitsEq]
    intro place other found isPost isRequest waits
    rcases slot_of_snoc slotted.sendLength isPost isRequest with ⟨oldPost, oldRequest⟩ | ⟨rfl, rfl⟩
    · have different := apart other (mem_open_of_place oldPost waits)
      simpa [RankState.advance, Variables.assign, different] using
        slotted.sendSlots place other found oldPost oldRequest waits
    · simp [RankState.advance, Variables.assign]

omit slotted in
theorem OnSchedule.waitRecv_place (todo : state.todo = .waitRecv post :: rest) :
    (recvPosts (events state.log))[(recvWaits (events state.log)).length]? = some post := by
  obtain ⟨later, opensEq, -⟩ := onSchedule.waitRecv_oldest bound todo
  rw [openRecvs] at opensEq
  rw [← Nat.add_zero (recvWaits _).length, ← List.getElem?_drop, opensEq]
  rfl

omit slotted in
theorem OnSchedule.waitSend_place (todo : state.todo = .waitSend post :: rest) :
    (sendPosts (events state.log))[(sendWaits (events state.log)).length]? = some post := by
  obtain ⟨later, opensEq, -⟩ := onSchedule.waitSend_oldest bound todo
  rw [openSends] at opensEq
  rw [← Nat.add_zero (sendWaits _).length, ← List.getElem?_drop, opensEq]
  rfl

theorem Slotted.waitRecv_request (todo : state.todo = .waitRecv post :: rest) :
    ∃ request, recvs[(recvWaits (events state.log)).length]? = some request ∧
      state.vars.requests (.recv post.pieceIndex) = some request := by
  have place := onSchedule.waitRecv_place bound todo
  have inside := (List.getElem?_eq_some_iff.mp place).1
  rw [← slotted.recvLength] at inside
  exact ⟨_, List.getElem?_eq_getElem inside, slotted.recvSlots _ _ _ place
    (List.getElem?_eq_getElem inside) (Nat.le_refl _)⟩

theorem Slotted.waitSend_request (todo : state.todo = .waitSend post :: rest) :
    ∃ request, sends[(sendWaits (events state.log)).length]? = some request ∧
      state.vars.requests (.send post.pieceIndex) = some request := by
  have place := onSchedule.waitSend_place bound todo
  have inside := (List.getElem?_eq_some_iff.mp place).1
  rw [← slotted.sendLength] at inside
  exact ⟨_, List.getElem?_eq_getElem inside, slotted.sendSlots _ _ _ place
    (List.getElem?_eq_getElem inside) (Nat.le_refl _)⟩

theorem Slotted.waitRecv (todo : state.todo = .waitRecv post :: rest) :
    Slotted (state.advance (state.vars.assign (.recv post.pieceIndex) none) (.waitRecv post) rest)
      recvs sends := by
  obtain ⟨later, opensEq, -, apart⟩ := onSchedule.waitRecv_oldest bound todo
  obtain ⟨recvPostsEq, sendPostsEq, recvWaitsEq, sendWaitsEq⟩ :=
    snoc_waitRecv (events state.log) post
  constructor <;> rw [advance_events _ rfl]
  · rw [recvPostsEq, slotted.recvLength]
  · rw [sendPostsEq, slotted.sendLength]
  · rw [recvPostsEq, recvWaitsEq, List.length_append, List.length_singleton]
    intro place other found isPost isRequest waits
    have inLater : other ∈ later := by
      have dropped := mem_open_of_place isPost waits
      rw [← List.drop_drop, ← openRecvs, opensEq] at dropped
      exact dropped
    simpa [RankState.advance, Variables.assign, (apart other inLater).2.1] using
      slotted.recvSlots place other found isPost isRequest (by omega)
  · rw [sendPostsEq, sendWaitsEq]
    intro place other found isPost isRequest waits
    simpa [RankState.advance, Variables.assign] using
      slotted.sendSlots place other found isPost isRequest waits

theorem Slotted.waitSend (todo : state.todo = .waitSend post :: rest) :
    Slotted (state.advance (state.vars.assign (.send post.pieceIndex) none) (.waitSend post) rest)
      recvs sends := by
  obtain ⟨later, opensEq, -, apart⟩ := onSchedule.waitSend_oldest bound todo
  obtain ⟨recvPostsEq, sendPostsEq, recvWaitsEq, sendWaitsEq⟩ :=
    snoc_waitSend (events state.log) post
  constructor <;> rw [advance_events _ rfl]
  · rw [recvPostsEq, slotted.recvLength]
  · rw [sendPostsEq, slotted.sendLength]
  · rw [recvPostsEq, recvWaitsEq]
    intro place other found isPost isRequest waits
    simpa [RankState.advance, Variables.assign] using
      slotted.recvSlots place other found isPost isRequest waits
  · rw [sendPostsEq, sendWaitsEq, List.length_append, List.length_singleton]
    intro place other found isPost isRequest waits
    have inLater : other ∈ later := by
      have dropped := mem_open_of_place isPost waits
      rw [← List.drop_drop, ← openSends, opensEq] at dropped
      exact dropped
    simpa [RankState.advance, Variables.assign, apart other inLater] using
      slotted.sendSlots place other found isPost isRequest (by omega)

end Events

end RingAllReduce
