import RingAllReduce.RequestLifeCycle

/-! The destructor of a `VerbsTransport` after any use of it, and the posts that fail on the way:
every region and every request state is released once, and no region too early. -/

namespace RingAllReduce.VerbsTransport

def closing (transport : VerbsTransport) : List Event :=
  (if transport.qpNext then [.destroyQp .send] else []) ++
    if transport.qpPrev then [.destroyQp .receive] else []

def farewell (heap : Address → Option RequestState) (address : Address) : List Event :=
  match heap address with
  | none => []
  | some state => [.deregMr state.id, .deleteState state.id]

theorem farewell_update {heap : Address → Option RequestState} {address other : Address}
    (different : other ≠ address) :
    farewell (Function.update heap address none) other = farewell heap other := by
  simp [farewell, different]

theorem releaseAll_eq {transport : VerbsTransport} {order : List Address} (nodup : order.Nodup)
    (live : ∀ address ∈ order, ∃ state, transport.heap address = some state ∧
      state.memoryRegion = some state.id) :
    ∃ final, transport.releaseAll order = some final ∧
      final.trace = transport.trace ++ order.flatMap (farewell transport.heap) := by
  induction order generalizing transport with
  | nil => exact ⟨transport, rfl, by simp⟩
  | cons address order ih =>
      obtain ⟨state, found, region⟩ := live address (by simp)
      obtain ⟨absent, rest⟩ := List.nodup_cons.mp nodup
      have apart : ∀ other ∈ order, other ≠ address := by
        rintro other member rfl
        exact absent member
      have released : transport.release address = some { transport with
          heap := Function.update transport.heap address none
          trace := transport.trace ++ farewell transport.heap address } := by
        simp [release, found, region, farewell]
      obtain ⟨final, ended, told⟩ := @ih { transport with
          heap := Function.update transport.heap address none
          trace := transport.trace ++ farewell transport.heap address } rest (by
        intro other member
        obtain ⟨held, foundHeld, heldRegion⟩ := live other (by simp [member])
        exact ⟨held, (Function.update_of_ne (apart other member) ..).trans foundHeld,
          heldRegion⟩)
      refine ⟨final, by simp only [releaseAll, released, ended], ?_⟩
      have same : order.flatMap (farewell (Function.update transport.heap address none)) =
          order.flatMap (farewell transport.heap) :=
        List.flatMap_congr fun other member => farewell_update (apart other member)
      rw [told, same, List.append_assoc]
      rfl

theorem destroyQps_trace (transport : VerbsTransport) :
    transport.destroyQps.trace = transport.trace ++ transport.closing := by
  unfold destroyQps closing
  cases next : transport.qpNext <;> cases previous : transport.qpPrev <;>
    simp [destroyQp, previous]

theorem destroyQps_heap (transport : VerbsTransport) :
    transport.destroyQps.heap = transport.heap := by
  unfold destroyQps
  cases next : transport.qpNext <;> cases previous : transport.qpPrev <;>
    simp [destroyQp, previous]

theorem destroy_eq {transport : VerbsTransport} {order : List Address} (nodup : order.Nodup)
    (live : ∀ address ∈ order, ∃ state, transport.heap address = some state ∧
      state.memoryRegion = some state.id) :
    ∃ final, transport.destroy order = .returned () final ∧ final.pendingRequests = [] ∧
      final.trace = transport.trace ++ transport.closing ++
        order.flatMap (farewell transport.heap) := by
  let closed : VerbsTransport := { transport with nextSocket := -1, previousSocket := -1 }
  obtain ⟨final, released, told⟩ := @releaseAll_eq closed.destroyQps order nodup (by
    rw [destroyQps_heap]
    exact live)
  rw [destroyQps_trace, destroyQps_heap] at told
  exact ⟨{ final with pendingRequests := [] }, by simp only [destroy, released, closed], rfl, told⟩

/-! The story of one request to its end. -/

theorem closing_eq {transport : VerbsTransport} {event : Event}
    (member : event ∈ transport.closing) : ∃ kind, event = .destroyQp kind := by
  unfold closing at member
  grind

theorem closing_story (transport : VerbsTransport) (id : Nat) :
    story transport.closing id = transport.closing := by
  apply List.filter_eq_self.mpr
  intro event member
  obtain ⟨kind, rfl⟩ := closing_eq member
  rfl

theorem farewell_story_absent {heap : Address → Option RequestState} {order : List Address}
    {id : Nat} (absent : ∀ address ∈ order, ∀ state, heap address = some state → state.id ≠ id) :
    story (order.flatMap (farewell heap)) id = [] := by
  rw [story, List.filter_eq_nil_iff]
  intro event member
  obtain ⟨address, listed, told⟩ := List.mem_flatMap.mp member
  unfold farewell at told
  split at told
  · simp at told
  · rename_i state found
    have different := absent address listed state found
    rcases List.mem_cons.mp told with rfl | told
    · simpa [Event.concerns] using different
    · obtain rfl := List.mem_singleton.mp told
      simpa [Event.concerns] using different

theorem farewell_story {heap : Address → Option RequestState} {order : List Address}
    (nodup : order.Nodup) {address : Address} (listed : address ∈ order) {state : RequestState}
    (found : heap address = some state)
    (distinct : ∀ other held, heap other = some held → held.id = state.id → other = address) :
    story (order.flatMap (farewell heap)) state.id = [.deregMr state.id, .deleteState state.id] := by
  obtain ⟨front, back, rfl⟩ := List.append_of_mem listed
  have frontAbsent : address ∉ front := by
    intro member
    exact (List.nodup_append.mp nodup).2.2 _ member _ (by simp) rfl
  have backAbsent : address ∉ back := by
    exact (List.nodup_cons.mp (List.nodup_append.mp nodup).2.1).1
  have quiet : ∀ {part : List Address}, address ∉ part →
      story (part.flatMap (farewell heap)) state.id = [] := by
    intro part absent
    apply farewell_story_absent
    rintro other member held foundHeld same
    exact absent (distinct other held foundHeld same ▸ member)
  rw [List.flatMap_append, List.flatMap_cons, story_append, story_append, quiet frontAbsent,
    quiet backAbsent, farewell, found]
  simp [story, Event.concerns]

theorem closing_count (transport : VerbsTransport) {event : Event}
    (other : ∀ kind, event ≠ .destroyQp kind) : transport.closing.count event = 0 := by
  apply List.count_eq_zero.mpr
  intro member
  obtain ⟨kind, rfl⟩ := closing_eq member
  exact other kind rfl

theorem closing_calm (transport : VerbsTransport) (region : Region) :
    .deregMr region ∉ transport.closing := by
  apply List.count_eq_zero.mp
  exact closing_count transport (by simp)

theorem Released.append_closing {id : Nat} {events : List Event} (released : Released id events)
    (transport : VerbsTransport) : Released id (events ++ transport.closing) := by
  constructor
  · rw [List.count_append, closing_count _ (by simp), released.registered]
  · rw [List.count_append, closing_count _ (by simp), released.deregistered]
  · rw [List.count_append, closing_count _ (by simp), released.allocated]
  · rw [List.count_append, closing_count _ (by simp), released.deleted]
  · exact released.orderly.append (closing_calm transport)

theorem Sound.closes {transport : VerbsTransport} (sound : Sound [] transport)
    {request : WorkRequest} (member : request ∈ transport.posted) :
    .destroyQp request.work.kind ∈ transport.closing := by
  cases kind : request.work.kind with
  | send => simp [closing, sound.sendsNext request member kind]
  | receive => simp [closing, sound.receivesPrevious request member kind]

theorem Sound.released_last {transport : VerbsTransport} (sound : Sound [] transport)
    {address : Address} {state : RequestState} (found : transport.heap address = some state) :
    Released state.id (story transport.trace state.id ++ transport.closing ++
      [.deregMr state.id, .deleteState state.id]) := by
  obtain ⟨tail, told, calm, safe⟩ : ∃ tail, story transport.trace state.id =
      opened state.id state.kind ++ tail ∧
        (∀ event ∈ tail, ∃ completion, event = .pollWork state.id completion) ∧
        ((∃ completion, .pollWork state.id completion ∈ tail) ∨
          .destroyQp state.kind ∈ transport.closing) := by
    cases (sound.live _ _ found).standing with
    | outstanding request member _ _ kind _ _ told =>
        exact ⟨[], by simpa using told, by simp, Or.inr (kind ▸ sound.closes member)⟩
    | polled _ member => simp at member
    | recorded completion _ _ told =>
        exact ⟨[.pollWork state.id completion], told, by simp, Or.inl ⟨completion, by simp⟩⟩
  have quiet : ∀ event, (∀ completion, event ≠ .pollWork state.id completion) →
      tail.count event = 0 := by
    intro event other
    apply List.count_eq_zero.mpr
    intro member
    obtain ⟨completion, rfl⟩ := calm event member
    exact other completion rfl
  rw [told]
  constructor
  · simp [List.count_append, closing_count, quiet, opened]
  · simp [List.count_append, closing_count, quiet, opened]
  · simp [List.count_append, closing_count, quiet, opened]
  · simp [List.count_append, closing_count, quiet, opened]
  · apply Orderly.release
    · apply Orderly.append _ (closing_calm transport)
      apply Orderly.of_unregistered
      intro region member
      rcases List.mem_append.mp member with early | late
      · simp [opened] at early
      · obtain ⟨completion, wrong⟩ := calm _ late
        simp at wrong
    · intro other kind member
      have own : other = state.id ∧ kind = state.kind := by
        rcases List.mem_append.mp member with early | late
        · rcases List.mem_append.mp early with first | second
          · simpa [opened] using first
          · obtain ⟨completion, wrong⟩ := calm _ second
            simp at wrong
        · obtain ⟨_, wrong⟩ := closing_eq late
          simp at wrong
      obtain ⟨rfl, rfl⟩ := own
      rcases safe with ⟨completion, polled⟩ | destroyed
      · exact Or.inl ⟨completion, by simp [polled]⟩
      · exact Or.inr (by simp [destroyed])

theorem Orderly.of_stories {trace : List Event} (stories : ∀ id, Orderly (story trace id)) :
    Orderly trace := by
  rintro before after region rfl id kind posted
  have split : story (before ++ .deregMr region :: after) region =
      story before region ++ .deregMr region :: story after region := by
    simp [story, Event.concerns]
  have seen : .postWork id kind region ∈ story before region :=
    mem_story.mpr ⟨posted, by simp [Event.concerns]⟩
  rcases stories region _ _ region split id kind seen with ⟨completion, polled⟩ | destroyed
  · exact Or.inl ⟨completion, (mem_story.mp polled).1⟩
  · exact Or.inr (mem_story.mp destroyed).1

theorem count_story {trace : List Event} {event : Event} {id : Nat}
    (concerned : event.concerns id = true) :
    (story trace id).count event = trace.count event :=
  List.count_filter concerned

/-- Every region deregistered once, every state deleted once, and none too early. -/
structure TornDown (trace : List Event) : Prop where
  regions : ∀ region, trace.count (.deregMr region) = trace.count (.regMr region) ∧
    trace.count (.regMr region) ≤ 1
  states : ∀ id, trace.count (.deleteState id) = trace.count (.newState id) ∧
    trace.count (.newState id) ≤ 1
  orderly : Orderly trace

theorem TornDown.of_stories {trace : List Event}
    (stories : ∀ id, Released id (story trace id) ∨
      ∀ event ∈ story trace id, ∃ kind, event = .destroyQp kind) : TornDown trace := by
  have absent : ∀ {id event}, (∀ event ∈ story trace id, ∃ kind, event = .destroyQp kind) →
      (∀ kind, event ≠ .destroyQp kind) → (story trace id).count event = 0 := by
    intro id event quiet other
    apply List.count_eq_zero.mpr
    intro member
    obtain ⟨kind, rfl⟩ := quiet event member
    exact other kind rfl
  constructor
  · intro region
    rw [← @count_story trace (.deregMr region) region (by simp [Event.concerns]),
      ← @count_story trace (.regMr region) region (by simp [Event.concerns])]
    rcases stories region with released | quiet
    · simp [released.registered, released.deregistered]
    · simp [absent quiet]
  · intro id
    rw [← @count_story trace (.deleteState id) id (by simp [Event.concerns]),
      ← @count_story trace (.newState id) id (by simp [Event.concerns])]
    rcases stories id with released | quiet
    · simp [released.allocated, released.deleted]
    · simp [absent quiet]
  · apply Orderly.of_stories
    intro id
    rcases stories id with released | quiet
    · exact released.orderly
    · apply Orderly.of_unregistered
      intro region member
      obtain ⟨kind, wrong⟩ := quiet _ member
      simp at wrong

theorem Sound.tornDown {transport : VerbsTransport} (sound : Sound [] transport)
    {order : List Address} (iterated : order.Perm transport.pendingRequests) :
    TornDown (transport.trace ++ transport.closing ++
      order.flatMap (farewell transport.heap)) := by
  have nodup : order.Nodup := iterated.nodup_iff.mpr sound.pendingNodup
  have listed : ∀ address, address ∈ order ↔ ∃ state, transport.heap address = some state := by
    intro address
    rw [iterated.mem_iff, sound.owned]
  apply TornDown.of_stories
  intro id
  rw [story_append, story_append, closing_story]
  by_cases alive : ∃ address state, transport.heap address = some state ∧ state.id = id
  · obtain ⟨address, state, found, rfl⟩ := alive
    left
    rw [farewell_story nodup ((listed address).mpr ⟨state, found⟩) found
      fun other held foundHeld same => sound.distinct _ _ _ _ foundHeld found same]
    exact sound.released_last found
  · have gone : ∀ address state, transport.heap address = some state → state.id ≠ id := by
      intro address state found same
      exact alive ⟨address, state, found, same⟩
    rw [farewell_story_absent fun address _ state found => gone address state found,
      List.append_nil]
    by_cases early : 0 < id ∧ id < transport.nextRequestId
    · left
      exact (sound.released id early.1 early.2 gone).append_closing transport
    · right
      rw [sound.unborn id (by omega), List.nil_append]
      intro event member
      exact closing_eq member

def Untouched (before after : VerbsTransport) : Prop :=
  after.pendingRequests = before.pendingRequests ∧ after.heap = before.heap ∧
    after.posted = before.posted

def StaysPending (before after : VerbsTransport) (address : Address)
    (handle : Option PgRequest) : Prop :=
  ∃ request state, after.posted = before.posted ++ [request] ∧ request.wrId = address ∧
    request.id = state.id ∧ after.heap address = some state ∧
    after.pendingRequests = address :: before.pendingRequests ∧
    handle = some { id := state.id, internal := address }

theorem untouched_of_refused {before after : VerbsTransport}
    (unchanged : after = before ∨ after = before.refusedPost) : Untouched before after := by
  rcases unchanged with rfl | rfl <;> exact ⟨rfl, rfl, rfl⟩

theorem Sound.failed_send {transport after : VerbsTransport} (sound : Sound [] transport)
    {answers : Answers} (fresh : transport.Fresh answers) {buffer : Address} {bytes : Nat}
    {tag : UInt32} {mode : TransferMode} {request handle : Option PgRequest} {text : String}
    (failed : transport.postSendNext answers buffer bytes tag mode request =
      (.threw text after, handle)) : Untouched transport after ∧ handle = request := by
  rcases transport.postSendNext_cases fresh (sound.absent fresh) buffer bytes tag mode request with
    ⟨other, state, posted, -, unchanged⟩ | ⟨chosen, work, posted, -⟩
  · rw [posted] at failed
    simp only [Prod.mk.injEq, CallResult.threw.injEq] at failed
    obtain ⟨⟨-, rfl⟩, rfl⟩ := failed
    exact ⟨untouched_of_refused unchanged, rfl⟩
  · simp [posted] at failed

theorem Sound.failed_receive {transport after : VerbsTransport} (sound : Sound [] transport)
    {answers : Answers} (fresh : transport.Fresh answers) {buffer : Address} {bytes : Nat}
    {tag : UInt32} {mode : TransferMode} {request handle : Option PgRequest} {text : String}
    (failed : transport.postReceivePrevious answers buffer bytes tag mode request =
      (.threw text after, handle)) :
    (Untouched transport after ∧ handle = request) ∨
      StaysPending transport after answers.address handle := by
  rcases transport.postReceivePrevious_cases fresh (sound.absent fresh) buffer bytes tag mode
    request with
    ⟨other, state, posted, -, unchanged⟩ | ⟨chosen, work, -, -, accepted⟩
  · rw [posted] at failed
    simp only [Prod.mk.injEq, CallResult.threw.injEq] at failed
    obtain ⟨⟨-, rfl⟩, rfl⟩ := failed
    exact Or.inl ⟨untouched_of_refused unchanged, rfl⟩
  · rcases accepted with ⟨other, posted, -⟩ | ⟨control, posted⟩
    · rw [posted] at failed
      simp only [Prod.mk.injEq, CallResult.threw.injEq] at failed
      obtain ⟨⟨-, rfl⟩, rfl⟩ := failed
      exact Or.inr ⟨_, _, rfl, rfl, rfl, Function.update_self .., rfl, rfl⟩
    · simp [posted] at failed

/-- Whatever was posted, failed, waited for or abandoned, the destructor leaves every region
deregistered once and every state deleted once, no region was given up while the device could use
it, and a failed post changes nothing unless its receive is already on the queue pair. -/
theorem released_exactly_once {qpNext qpPrev : Bool} {nextSocket previousSocket : Int}
    {transport : VerbsTransport}
    (reachable : Reachable qpNext qpPrev nextSocket previousSocket transport) :
    (∀ order, order.Perm transport.pendingRequests →
      ∃ final, transport.destroy order = .returned () final ∧ final.pendingRequests = [] ∧
        TornDown final.trace) ∧
    ∀ answers buffer bytes tag mode request text after handle, transport.Fresh answers →
      (transport.postSendNext answers buffer bytes tag mode request =
        (.threw text after, handle) → Untouched transport after ∧ handle = request) ∧
      (transport.postReceivePrevious answers buffer bytes tag mode request =
        (.threw text after, handle) →
        (Untouched transport after ∧ handle = request) ∨
          StaysPending transport after answers.address handle) := by
  have sound := reachable.sound
  constructor
  · intro order iterated
    have nodup : order.Nodup := iterated.nodup_iff.mpr sound.pendingNodup
    have live : ∀ address ∈ order, ∃ state, transport.heap address = some state ∧
        state.memoryRegion = some state.id := by
      intro address member
      obtain ⟨state, found⟩ := (sound.owned address).mp (iterated.mem_iff.mp member)
      exact ⟨state, found, (sound.live _ _ found).region⟩
    obtain ⟨final, ended, empty, told⟩ := destroy_eq nodup live
    refine ⟨final, ended, empty, ?_⟩
    rw [told]
    exact sound.tornDown iterated
  · intro answers buffer bytes tag mode request text after handle fresh
    exact ⟨sound.failed_send fresh, sound.failed_receive fresh⟩

theorem released_exactly_once_receive : Reachable true true 3 4 oneReceive ∧
    ∃ final, oneReceive.destroy [7] = .returned () final ∧ final.pendingRequests = [] ∧
      TornDown final.trace := by
  exact ⟨oneReceive_reachable, (released_exactly_once oneReceive_reachable).1 [7] (List.Perm.refl _)⟩

end RingAllReduce.VerbsTransport
