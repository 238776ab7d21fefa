import RingAllReduce.EndpointRing

/-!
The requests of one endpoint, told by handles that are never used again. A handle has a state, the
work request it was posted with, and, until the rank has waited for it, a place on the heap.
-/

namespace RingAllReduce.EndpointRing

open VerbsTransport
open VerbsRing (Handle)

/-- What of a request state does not depend on when and where it was made. -/
def view (state : VerbsTransport.RequestState) : RequestKind × UInt32 × TransferMode × Bool × Int :=
  (state.kind, state.tag, state.mode, state.completed, state.status)

theorem succeeded_view {state other : VerbsTransport.RequestState} (same : view state = view other)
    {completion found : WorkCompletion} (status : completion.status = found.status)
    (opcode : completion.opcode = found.opcode) (withImm : completion.withImm = found.withImm)
    (immData : completion.immData = found.immData) :
    view (state.recorded completion) = view (other.recorded found) := by
  obtain ⟨kind, id, tag, mode, region, completed, value⟩ := state
  obtain ⟨kind', id', tag', mode', region', completed', value'⟩ := other
  simp only [view, Prod.mk.injEq] at same
  obtain ⟨rfl, rfl, rfl, rfl, rfl⟩ := same
  have alike : Succeeded ⟨kind, id, tag, mode, region, completed, value⟩ completion ↔
      Succeeded ⟨kind, id', tag, mode, region', completed, value⟩ found := by
    simp only [Succeeded, status, opcode, withImm, immData]
  simp only [view, RequestState.recorded, verdict, alike]

/-- The requests with a number of waits done for each kind; `unpolled` counts what is on the queue
pairs. -/
structure Books (state : Handle → Option VerbsTransport.RequestState)
    (entry : Handle → Option WorkRequest) (waited unpolled : RequestKind → Nat)
    (endpoint : VerbsTransport) : Prop where
  sound : Sound [] endpoint
  queuePairs : endpoint.qpNext = true ∧ endpoint.qpPrev = true
  sockets : 0 ≤ endpoint.nextSocket ∧ 0 ≤ endpoint.previousSocket
  known : ∀ handle, (entry handle).isSome = (state handle).isSome
  kind : ∀ handle request, entry handle = some request → request.work.kind = handle.1
  below : ∀ handle request, entry handle = some request → request.id < endpoint.nextRequestId
  distinct : ∀ handle other first second, entry handle = some first → entry other = some second →
    first.id = second.id → handle = other
  posted : ∀ handle held request, state handle = some held → entry handle = some request →
    held.completed = false → request ∈ endpoint.posted
  stored : ∀ handle held request, state handle = some held → entry handle = some request →
    waited handle.1 ≤ handle.2 → ∃ own, endpoint.heap request.wrId = some own ∧
      own.id = request.id ∧ view own = view held
  owner : ∀ address own, endpoint.heap address = some own → ∃ handle request,
    entry handle = some request ∧ waited handle.1 ≤ handle.2 ∧ request.wrId = address
  count : ∀ kind, onQueue endpoint kind = unpolled kind

section Books

variable {state : Handle → Option VerbsTransport.RequestState} {entry : Handle → Option WorkRequest}
  {waited unpolled : RequestKind → Nat} {endpoint : VerbsTransport} {handle : Handle}
  {held : VerbsTransport.RequestState} {request : WorkRequest}

theorem books_unused (nextSocket previousSocket : Nat) :
    Books (fun _ => none) (fun _ => none) (fun _ => 0) (fun _ => 0)
      (unused true true nextSocket previousSocket) := by
  refine ⟨unused_sound .., ⟨rfl, rfl⟩, by simp [unused], ?_, ?_, ?_, ?_, ?_, ?_, ?_, ?_⟩
  all_goals simp [unused, onQueue]

theorem Books.wrote (books : Books state entry waited unpolled endpoint)
    (descriptors : List ControlMessage) :
    Books state entry waited unpolled { endpoint with descriptors := descriptors } := by
  obtain ⟨sound, queuePairs, sockets, known, kind, below, distinct, posted, stored, owner, count⟩ :=
    books
  refine ⟨?_, queuePairs, sockets, known, kind, below, distinct, posted, stored, owner, count⟩
  exact ⟨sound.numbered, sound.first, sound.live, sound.owned, sound.pendingNodup, sound.distinct,
    sound.claimed, sound.apart, sound.released, sound.unborn, sound.sendsNext,
    sound.receivesPrevious⟩

theorem Books.accept (books : Books state entry waited unpolled endpoint)
    (absent : state handle = none) (unwaited : waited handle.1 ≤ handle.2) {address : Address}
    (notNull : address ≠ 0) (free : endpoint.heap address = none) {tag : UInt32} {mode : TransferMode} {work : Work}
    (isKind : work.kind = handle.1) (new : view held = (handle.1, tag, mode, false, 0)) :
    Books (Function.update state handle (some held))
      (Function.update entry handle (some ⟨address, endpoint.nextRequestId, work⟩)) waited
      (Function.update unpolled handle.1 (unpolled handle.1 + 1))
      (endpoint.acceptedPost address tag mode work) := by
  have noEntry : entry handle = none := by
    have known := books.known handle
    rw [absent] at known
    simpa using known
  constructor
  case sound =>
    exact books.sound.acceptedPost notNull free (fun _ => books.queuePairs.1)
      fun _ => books.queuePairs.2
  case queuePairs => exact books.queuePairs
  case sockets => exact books.sockets
  case known =>
    intro other
    by_cases here : other = handle
    · simp [here]
    · simpa [here] using books.known other
  case kind =>
    intro other request found
    by_cases here : other = handle
    · subst here
      obtain rfl := by simpa using found
      exact isKind
    · exact books.kind other request (by simpa [here] using found)
  case below =>
    intro other request found
    by_cases here : other = handle
    · subst here
      obtain rfl := by simpa using found
      exact Nat.lt_succ_self _
    · exact Nat.lt_succ_of_lt (books.below other request (by simpa [here] using found))
  case distinct =>
    intro left right first second foundFirst foundSecond same
    by_cases leftHere : left = handle
    · by_cases rightHere : right = handle
      · rw [leftHere, rightHere]
      · subst leftHere
        obtain rfl := by simpa using foundFirst
        have earlier := books.below right second (by simpa [rightHere] using foundSecond)
        simp only at same
        omega
    · by_cases rightHere : right = handle
      · subst rightHere
        obtain rfl := by simpa using foundSecond
        have earlier := books.below left first (by simpa [leftHere] using foundFirst)
        simp only at same
        omega
      · exact books.distinct left right first second (by simpa [leftHere] using foundFirst)
          (by simpa [rightHere] using foundSecond) same
  case posted =>
    intro other owned request isState isEntry running
    by_cases here : other = handle
    · subst here
      obtain rfl := by simpa using isEntry
      simp [acceptedPost]
    · have earlier := books.posted other owned request (by simpa [here] using isState)
        (by simpa [here] using isEntry) running
      exact List.mem_append_left _ earlier
  case stored =>
    intro other owned request isState isEntry open'
    by_cases here : other = handle
    · subst here
      obtain rfl := by simpa using isEntry
      obtain rfl := by simpa using isState
      refine ⟨_, Function.update_self .., rfl, ?_⟩
      rw [new, ← isKind]
      rfl
    · obtain ⟨own, found, sameId, sameView⟩ := books.stored other owned request
        (by simpa [here] using isState) (by simpa [here] using isEntry) open'
      have different : request.wrId ≠ address := by
        intro same
        rw [same, free] at found
        simp at found
      exact ⟨own, (Function.update_of_ne different ..).trans found, sameId, sameView⟩
  case owner =>
    intro place own found
    by_cases here : place = address
    · exact ⟨handle, _, Function.update_self .., unwaited, here.symm⟩
    · obtain ⟨other, request, isEntry, otherUnwaited, isPlace⟩ :=
        books.owner place own ((Function.update_of_ne here ..).symm.trans found)
      have different : other ≠ handle := by
        rintro rfl
        simp [noEntry] at isEntry
      exact ⟨other, request, (Function.update_of_ne different ..).trans isEntry, otherUnwaited,
        isPlace⟩
  case count =>
    intro kind
    have before := books.count kind
    simp only [onQueue] at before
    by_cases here : kind = handle.1
    · subst here
      simp [onQueue, acceptedPost, List.countP_append, before, isKind]
    · have other : ¬ work.kind = kind := fun same => here (same.symm.trans isKind)
      simp [onQueue, acceptedPost, List.countP_append, before, other, here]

theorem Books.apart (books : Books state entry waited unpolled endpoint) {other : Handle}
    {own : VerbsTransport.RequestState} {second : WorkRequest}
    (found : endpoint.heap request.wrId = some own) (ownId : own.id = request.id)
    (isEntry : entry handle = some request) (isOther : entry other = some second)
    {their : VerbsTransport.RequestState} (foundTheir : endpoint.heap second.wrId = some their)
    (theirId : their.id = second.id) (different : other ≠ handle) : second.wrId ≠ request.wrId := by
  intro same
  rw [same, found] at foundTheir
  obtain rfl := Option.some.inj foundTheir
  exact different (books.distinct other handle second request isOther isEntry
    (theirId.symm.trans ownId))

theorem Books.polled (books : Books state entry waited unpolled endpoint)
    (isState : state handle = some held) (isEntry : entry handle = some request)
    (running : held.completed = false) {offer : Offer} (own : offer.id = request.id) :
    ∃ front back, endpoint.posted = front ++ request :: back ∧
      endpoint.ibvPollCq 1 [offer] =
        ([⟨request.wrId, offer.status, offer.opcode, offer.withImm, offer.immData⟩],
          { endpoint with
            posted := front ++ back
            trace := endpoint.trace ++ [.pollWork request.id
              ⟨request.wrId, offer.status, offer.opcode, offer.withImm, offer.immData⟩] }) := by
  have member := books.posted handle held request isState isEntry running
  have seen : TagQueue.lane WorkRequest.id offer.id endpoint.posted ≠ [] := by
    apply List.ne_nil_of_mem
    exact TagQueue.mem_lane.mpr ⟨member, own.symm⟩
  obtain ⟨first, later, laneEq⟩ := List.exists_cons_of_ne_nil seen
  obtain ⟨posted, taken⟩ := TagQueue.takeFirst_isSome laneEq
  obtain ⟨front, back, split, rfl⟩ := TagQueue.takeFirst_split taken
  have firstId : first.id = request.id := (TagQueue.takeFirst_lane taken).1.trans own
  have firstMember : first ∈ endpoint.posted := by simp [split]
  obtain ⟨_, foundFirst, firstOwn, -⟩ := books.sound.of_posted firstMember
  obtain ⟨_, foundRequest, requestOwn, -⟩ := books.sound.of_posted member
  have sameAddress : first.wrId = request.wrId := books.sound.distinct _ _ _ _ foundFirst
    foundRequest (firstOwn.symm.trans (firstId.trans requestOwn))
  have nodup := (List.nodup_append.mp books.sound.apart).1
  obtain rfl : first = request :=
    List.inj_on_of_nodup_map nodup firstMember member sameAddress
  refine ⟨front, back, split, ?_⟩
  simp only [ibvPollCq, List.take_succ_cons, List.take_nil, complete, taken]

theorem Books.poll (books : Books state entry waited unpolled endpoint)
    (isState : state handle = some held) (isEntry : entry handle = some request)
    (running : held.completed = false) (unwaited : waited handle.1 ≤ handle.2) {offer : Offer}
    (own : offer.id = request.id) {completion : WorkCompletion}
    (status : completion.status = offer.status) (opcode : completion.opcode = offer.opcode)
    (withImm : completion.withImm = offer.withImm) (immData : completion.immData = offer.immData) :
    ∃ found middle after, endpoint.ibvPollCq 1 [offer] = ([found], middle) ∧
      middle.handleCompletion found = .returned () after ∧
      (∀ address, (after.heap address).isSome = (endpoint.heap address).isSome) ∧
      Books (Function.update state handle (some (held.recorded completion))) entry waited
        (Function.update unpolled handle.1 (unpolled handle.1 - 1)) after := by
  obtain ⟨front, back, split, polled⟩ := books.polled isState isEntry running own
  have same : (WorkCompletion.mk request.wrId offer.status offer.opcode offer.withImm
    offer.immData).wrId = request.wrId := rfl
  obtain ⟨stored, found, handled, sound⟩ := (books.sound.take split same).record
  obtain ⟨known, foundKnown, knownId, knownView⟩ :=
    books.stored handle held request isState isEntry unwaited
  obtain rfl : stored = known := Option.some.inj (found.symm.trans foundKnown)
  refine ⟨_, _, _, polled, handled, ?_, ?_⟩
  · intro address
    by_cases here : address = request.wrId
    · subst here
      simp [foundKnown]
    · simp [here]
  constructor
  case sound => exact sound
  case queuePairs => exact books.queuePairs
  case sockets => exact books.sockets
  case known =>
    intro other
    by_cases here : other = handle
    · subst here
      simp [isEntry]
    · simpa [here] using books.known other
  case kind => exact books.kind
  case below => exact books.below
  case distinct => exact books.distinct
  case posted =>
    intro other owned second isOther isSecond otherRunning
    by_cases here : other = handle
    · subst here
      obtain rfl := by simpa using isOther
      simp [RequestState.recorded] at otherRunning
    · have member := books.posted other owned second (by simpa [here] using isOther) isSecond
        otherRunning
      have different : second ≠ request := by
        rintro rfl
        exact here (books.distinct other handle second second isSecond isEntry rfl)
      simpa [split, different] using member
  case stored =>
    intro other owned second isOther isSecond otherUnwaited
    by_cases here : other = handle
    · subst here
      obtain rfl := by simpa using isOther
      obtain rfl := Option.some.inj (isEntry.symm.trans isSecond)
      refine ⟨_, Function.update_self .., knownId, ?_⟩
      exact succeeded_view knownView status.symm opcode.symm withImm.symm immData.symm
    · obtain ⟨their, foundTheir, theirId, theirView⟩ := books.stored other owned second
        (by simpa [here] using isOther) isSecond otherUnwaited
      have different := books.apart foundKnown knownId isEntry isSecond foundTheir theirId here
      exact ⟨their, (Function.update_of_ne different ..).trans foundTheir, theirId, theirView⟩
  case owner =>
    intro place own isOwn
    by_cases here : place = request.wrId
    · exact ⟨handle, request, isEntry, unwaited, here.symm⟩
    · exact books.owner place own ((Function.update_of_ne here ..).symm.trans isOwn)
  case count =>
    intro kind
    have before := books.count kind
    have isKind := books.kind handle request isEntry
    simp only [onQueue, split, List.countP_append, List.countP_cons] at before ⊢
    by_cases here : kind = handle.1
    · subst here
      simp only [isKind, decide_true, if_true] at before
      rw [Function.update_self]
      omega
    · have other : ¬ request.work.kind = kind := fun same => here (same.symm.trans isKind)
      simpa [other, here] using before

/-- The rank has waited for a request, and its place on the heap is free again. -/
theorem Books.consume (books : Books state entry waited unpolled endpoint)
    (isState : state handle = some held) (isEntry : entry handle = some request)
    (completed : held.completed = true) (oldest : waited handle.1 = handle.2) (id : Nat) :
    ∃ after, endpoint.waitRequest [] (some { id := id, internal := request.wrId }) =
        .returned (held.status, some { id := 0, internal := 0 }) after ∧
      Books state entry (Function.update waited handle.1 (waited handle.1 + 1)) unpolled after := by
  obtain ⟨own, found, ownId, ownView⟩ := books.stored handle held request isState isEntry oldest.le
  simp only [view, Prod.mk.injEq] at ownView
  obtain ⟨-, -, -, ended, status⟩ := ownView
  rw [completed] at ended
  have notNull := (books.sound.live _ _ found).notNull
  have region := (books.sound.live _ _ found).region
  have pending := (books.sound.owned _).mpr ⟨own, found⟩
  have sound := books.sound.consumed found ended
  refine ⟨{ endpoint with
    pendingRequests := endpoint.pendingRequests.erase request.wrId
    heap := Function.update endpoint.heap request.wrId none
    trace := endpoint.trace ++ [.deregMr own.id, .deleteState own.id] }, ?_, ?_⟩
  · simp only [VerbsTransport.waitRequest, notNull, if_false, pending, not_true, waitLoop, found,
      ended, if_true, CallResult.bind, consumeRequest, release, Option.map_some, region, status,
      Option.toList_some, List.map_cons, List.map_nil, List.append_assoc, List.cons_append,
      List.nil_append]
  constructor
  case sound => exact sound
  case queuePairs => exact books.queuePairs
  case sockets => exact books.sockets
  case known => exact books.known
  case kind => exact books.kind
  case below => exact books.below
  case distinct => exact books.distinct
  case posted => exact books.posted
  case count => exact books.count
  case stored =>
    intro other owned second isOther isSecond otherUnwaited
    have different : other ≠ handle := by
      rintro rfl
      rw [Function.update_self] at otherUnwaited
      omega
    have still : waited other.1 ≤ other.2 := by
      by_cases sameKind : other.1 = handle.1
      · rw [sameKind, Function.update_self] at otherUnwaited
        rw [sameKind]
        omega
      · rwa [Function.update_of_ne sameKind] at otherUnwaited
    obtain ⟨their, foundTheir, theirId, theirView⟩ :=
      books.stored other owned second isOther isSecond still
    have elsewhere := books.apart found ownId isEntry isSecond foundTheir theirId different
    exact ⟨their, (Function.update_of_ne elsewhere ..).trans foundTheir, theirId, theirView⟩
  case owner =>
    intro place their isTheir
    have elsewhere : place ≠ request.wrId := by
      rintro rfl
      simp at isTheir
    obtain ⟨other, second, isSecond, unwaited, isPlace⟩ :=
      books.owner place their ((Function.update_of_ne elsewhere ..).symm.trans isTheir)
    have different : other ≠ handle := by
      rintro rfl
      obtain rfl := Option.some.inj (isEntry.symm.trans isSecond)
      exact elsewhere isPlace.symm
    refine ⟨other, second, isSecond, ?_, isPlace⟩
    by_cases sameKind : other.1 = handle.1
    · have later : other.2 ≠ handle.2 := fun same => different (Prod.ext sameKind same)
      rw [sameKind] at unwaited
      rw [sameKind, Function.update_self]
      omega
    · rwa [Function.update_of_ne sameKind]

theorem Books.pending_length (books : Books state entry waited unpolled endpoint)
    {unwaited : List Handle} (nodup : unwaited.Nodup)
    (all : ∀ handle, handle ∈ unwaited ↔ (entry handle).isSome ∧ waited handle.1 ≤ handle.2) :
    endpoint.pendingRequests.length = unwaited.length := by
  let address := fun handle => ((entry handle).map WorkRequest.wrId).getD 0
  have atHome : ∀ handle ∈ unwaited, ∃ request own, entry handle = some request ∧
      address handle = request.wrId ∧ endpoint.heap request.wrId = some own ∧
        own.id = request.id := by
    intro handle member
    obtain ⟨known, open'⟩ := (all handle).mp member
    obtain ⟨request, isEntry⟩ := Option.isSome_iff_exists.mp known
    obtain ⟨held, isState⟩ := Option.isSome_iff_exists.mp ((books.known handle).symm.trans known)
    obtain ⟨own, found, sameId, -⟩ := books.stored handle held request isState isEntry open'
    exact ⟨request, own, isEntry, by simp [address, isEntry], found, sameId⟩
  have apart : ∀ left ∈ unwaited, ∀ right ∈ unwaited, address left = address right →
      left = right := by
    intro left leftIn right rightIn same
    obtain ⟨first, own, isFirst, isAddress, found, ownId⟩ := atHome left leftIn
    obtain ⟨second, their, isSecond, isAddress', found', theirId⟩ := atHome right rightIn
    by_contra different
    exact books.apart found' theirId isSecond isFirst found ownId different
      (isAddress.symm.trans (same.trans isAddress'))
  have members : ∀ place, place ∈ endpoint.pendingRequests ↔ place ∈ unwaited.map address := by
    intro place
    rw [books.sound.owned, List.mem_map]
    constructor
    · rintro ⟨own, found⟩
      obtain ⟨handle, request, isEntry, open', isPlace⟩ := books.owner place own found
      exact ⟨handle, (all handle).mpr ⟨by simp [isEntry], open'⟩, by simp [address, isEntry, isPlace]⟩
    · rintro ⟨handle, member, rfl⟩
      obtain ⟨request, own, -, isAddress, found, -⟩ := atHome handle member
      exact ⟨own, by rw [isAddress, found]⟩
  have same := (List.perm_ext_iff_of_nodup books.sound.pendingNodup (nodup.map_on apart)).mpr members
  rw [same.length_eq, List.length_map]

theorem Books.waits (books : Books state entry waited unpolled endpoint)
    (isState : state handle = some held) (isEntry : entry handle = some request)
    (running : held.completed = false) (unwaited : waited handle.1 ≤ handle.2) (id : Nat) :
    endpoint.waitRequest [] (some { id := id, internal := request.wrId }) = .waiting endpoint := by
  obtain ⟨own, found, ownId, ownView⟩ := books.stored handle held request isState isEntry unwaited
  simp only [view, Prod.mk.injEq] at ownView
  obtain ⟨-, -, -, going, -⟩ := ownView
  rw [running] at going
  have notNull := (books.sound.live _ _ found).notNull
  have pending := (books.sound.owned _).mpr ⟨own, found⟩
  simp [VerbsTransport.waitRequest, notNull, pending, waitLoop, found, going, CallResult.bind]

theorem Books.turn (books : Books state entry waited unpolled endpoint)
    (isState : state handle = some held) (isEntry : entry handle = some request)
    (running : held.completed = false) (unwaited : waited handle.1 ≤ handle.2) {offer : Offer}
    {found : WorkCompletion} {middle after : VerbsTransport}
    (polled : endpoint.ibvPollCq 1 [offer] = ([found], middle))
    (handled : middle.handleCompletion found = .returned () after)
    (kept : ∀ address, (after.heap address).isSome = (endpoint.heap address).isSome) :
    endpoint.waitLoop request.wrId [[offer]] = .returned () after ∨
      endpoint.waitLoop request.wrId [[offer]] = .waiting after := by
  obtain ⟨own, isOwn, ownId, ownView⟩ := books.stored handle held request isState isEntry unwaited
  simp only [view, Prod.mk.injEq] at ownView
  obtain ⟨-, -, -, going, -⟩ := ownView
  rw [running] at going
  obtain ⟨later, isLater⟩ : ∃ later, after.heap request.wrId = some later := by
    rw [← Option.isSome_iff_exists, kept, isOwn]
    rfl
  simp only [waitLoop, isOwn, going, Bool.false_eq_true, if_false, polled, handled, CallResult.bind,
    isLater]
  cases later.completed with
  | true => exact Or.inl rfl
  | false => exact Or.inr rfl

end Books

end RingAllReduce.EndpointRing
