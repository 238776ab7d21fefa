import RingAllReduce.ProcessGroup
import RingAllReduce.Teardown

/-!
What `connect_process_group` acquires is released again, in time and once: by the function itself
where it fails, and by `pg_close` otherwise, whatever the rank did with its transport in between.
-/

namespace RingAllReduce.ProcessGroup

open Bootstrap Leases VerbsTransport

/-! What is held after the parts of `connect_process_group`. -/

def heldOfDevice : Finset Resource := {.protectionDomain, .context}

def heldOfTransport : Finset Resource := {.completionQueue, .transport} ∪ heldOfDevice

def heldOfQps : Finset Resource := {.queuePair .next, .queuePair .previous} ∪ heldOfTransport

def heldOfSockets : Finset Resource := {.socket .next, .socket .previous} ∪ heldOfQps

def heldOfGroup : Finset Resource := {.collectives, .handle} ∪ heldOfSockets

section Parts

variable (answers : Answers)

/-- What is left of the device list: nothing, unless it is empty. -/
def leaked : Finset Resource := if answers.deviceList = some 0 then {.deviceList} else ∅

theorem openDevice_triple : Triple Resource.bases ∅ (openDevice answers) (fun _ => {.context})
    (leaked answers) := by
  unfold openDevice leaked
  cases answers.deviceList with
  | none => rfl
  | some devices =>
      cases devices with
      | zero => rfl
      | succ more => cases answers.openDevice <;> rfl

theorem allocPd_triple : Triple Resource.bases {.context} (allocPd answers) (fun _ => heldOfDevice)
    ∅ := by
  unfold allocPd
  cases answers.allocPd <;> cases answers.queryPort <;> cases answers.portActive <;> decide

theorem newTransport_triple (rank worldSize : Int) : Triple Resource.bases heldOfDevice
    (newTransport answers rank worldSize) (fun _ => heldOfTransport) heldOfDevice := by
  unfold newTransport
  cases answers.newTransport
  · rfl
  · by_cases invalid : rank < 0 ∨ worldSize ≤ 0 ∨ worldSize ≤ rank
    · simp only [if_true, if_pos invalid]
      decide
    · simp only [if_true, if_neg invalid]
      cases answers.createCq <;> decide

theorem makeTransport_triple (rank worldSize : Int) : Triple Resource.bases heldOfDevice
    (makeTransport answers rank worldSize) (fun _ => heldOfTransport) ∅ :=
  (newTransport_triple answers rank worldSize).catching fun _ => by decide

theorem createQps_triple : Triple Resource.bases heldOfTransport (createQps answers)
    (fun _ => heldOfQps) ∅ := by
  unfold createQps createQp
  cases answers.createQp .next <;> cases answers.createQp .previous <;> decide

end Parts

/-! The TCP ring. Nothing rests on a socket, on the addresses of a host or on a listening socket. -/

section Sockets

variable {held failed : Finset Resource}

theorem socket_top (side : Side) : ∀ other ∈ held, Resource.socket side ∉ other.bases := by
  intro other _
  cases other <;> simp [Resource.bases]

theorem addressList_top : ∀ other ∈ held, Resource.addressList ∉ other.bases := by
  intro other _
  cases other <;> simp [Resource.bases]

theorem listener_top : ∀ other ∈ held, Resource.listener ∉ other.bases := by
  intro other _
  cases other <;> simp [Resource.bases]

def withSocket (held : Finset Resource) (side : Side) (connection : Option Nat) : Finset Resource :=
  if connection.isSome then insert (.socket side) held else held

theorem not_mem_withSocket {resource : Resource} {side : Side} (free : resource ∉ held)
    (apart : resource ≠ .socket side) (connection : Option Nat) :
    resource ∉ withSocket held side connection := by
  unfold withSocket
  split
  · simpa [apart] using free
  · exact free

theorem tryEntries_triple (free : .socket .next ∉ held) (entries : List (Option (Nat × Bool))) :
    Triple Resource.bases held (tryEntries entries) (withSocket held .next) failed := by
  induction entries with
  | nil => exact .pure rfl
  | cons entry entries ih =>
      cases entry with
      | none => exact ih
      | some entry =>
          obtain ⟨candidate, connected⟩ := entry
          refine (Triple.acquire free (Finset.empty_subset _)).bind fun _ => ?_
          cases connected with
          | true => exact .pure rfl
          | false =>
              refine (Triple.release (Finset.mem_insert_self _ _) (socket_top .next)).bind fun _ => ?_
              rw [Finset.erase_insert free]
              exact ih

theorem tryAttempts_triple (free : .socket .next ∉ held)
    (candidates : Nat → List (Option (Nat × Bool))) (left : Nat) :
    Triple Resource.bases held (tryAttempts candidates left) (withSocket held .next) failed := by
  induction left with
  | zero => exact .pure rfl
  | succ left ih =>
      refine (tryEntries_triple free (candidates left)).bind fun connection => ?_
      cases connection with
      | none => exact ih
      | some connection => exact .pure rfl

variable (answers : Answers)

theorem connectToHost_triple (free : .socket .next ∉ held) (unresolved : .addressList ∉ held) :
    Triple Resource.bases held (connectToHost answers) (withSocket held .next) failed := by
  unfold connectToHost
  split
  · refine (Triple.acquire unresolved (Finset.empty_subset _)).bind fun _ => ?_
    refine (tryAttempts_triple (by simpa using free) _ _).bind fun connection => ?_
    have kept : .addressList ∈ withSocket (insert .addressList held) .next connection := by
      unfold withSocket
      split <;> simp
    refine (Triple.release kept addressList_top).bind fun _ => ?_
    have same : (withSocket (insert .addressList held) .next connection).erase .addressList =
        withSocket held .next connection := by
      unfold withSocket
      split
      · rw [Finset.insert_comm, Finset.erase_insert (by simpa using unresolved)]
      · exact Finset.erase_insert unresolved
    rw [same]
    exact .pure rfl
  · exact .pure rfl

theorem listenAndAccept_triple (free : .socket .previous ∉ held) (silent : .listener ∉ held) :
    Triple Resource.bases held (listenAndAccept answers) (withSocket held .previous) failed := by
  unfold listenAndAccept
  split
  · refine (Triple.acquire silent (Finset.empty_subset _)).bind fun _ => ?_
    split
    · cases answers.accept with
      | none =>
          refine (Triple.release (Finset.mem_insert_self _ _) listener_top).bind fun _ => ?_
          rw [Finset.erase_insert silent]
          exact .pure rfl
      | some connection =>
          refine (Triple.acquire (by simpa using free) (Finset.empty_subset _)).bind fun _ => ?_
          rw [Finset.insert_comm]
          refine (Triple.release (Finset.mem_insert_self _ _) listener_top).bind fun _ => ?_
          rw [Finset.erase_insert (by simpa using silent)]
          exact .pure rfl
    · refine (Triple.release (Finset.mem_insert_self _ _) listener_top).bind fun _ => ?_
      rw [Finset.erase_insert silent]
      exact .pure rfl
  · exact .pure rfl

def withSockets (sockets : Option Nat × Option Nat) : Finset Resource :=
  withSocket (withSocket heldOfQps .previous sockets.2) .next sockets.1

theorem withSockets_eq (next previous : Option Nat) :
    withSocket (withSocket heldOfQps .next next) .previous previous = withSockets (next, previous) := by
  cases next <;> cases previous <;> simp [withSockets, withSocket, Finset.insert_comm]

theorem ringSockets_triple (rank : Int) : Triple Resource.bases heldOfQps (ringSockets answers rank)
    withSockets failed := by
  unfold ringSockets
  split
  · refine (connectToHost_triple answers (by decide) (by decide)).bind fun next => ?_
    refine (listenAndAccept_triple answers ?_ ?_).bind fun previous => ?_
    · exact not_mem_withSocket (by decide) (by decide) next
    · exact not_mem_withSocket (by decide) (by decide) next
    · exact .pure (withSockets_eq next previous).symm
  · refine (listenAndAccept_triple answers (by decide) (by decide)).bind fun previous => ?_
    refine (connectToHost_triple answers ?_ ?_).bind fun next => ?_
    · exact not_mem_withSocket (by decide) (by decide) previous
    · exact not_mem_withSocket (by decide) (by decide) previous
    · exact .pure rfl

theorem tcpRing_triple (rank : Int) : Triple Resource.bases heldOfQps (tcpRing answers rank)
    (fun _ => heldOfSockets) ∅ := by
  refine (ringSockets_triple answers rank).bind fun sockets => ?_
  obtain ⟨next, previous⟩ := sockets
  cases next <;> cases previous <;> rfl

end Sockets

/-! The regions and states of the requests a rank makes of its transport. -/

/-- What requests hold: a region and a state each. -/
def leases (ids : Finset Nat) : Finset Resource := ids.image .region ∪ ids.image .requestState

@[simp] theorem mem_leases {ids : Finset Nat} {resource : Resource} : resource ∈ leases ids ↔
    ∃ id ∈ ids, resource = .region id ∨ resource = .requestState id := by
  simp only [leases, Finset.mem_union, Finset.mem_image]
  constructor
  · rintro (⟨id, member, rfl⟩ | ⟨id, member, rfl⟩)
    · exact ⟨id, member, Or.inl rfl⟩
    · exact ⟨id, member, Or.inr rfl⟩
  · rintro ⟨id, member, rfl | rfl⟩
    · exact Or.inl ⟨id, member, rfl⟩
    · exact Or.inr ⟨id, member, rfl⟩

theorem resourceActions_append (first second : List Event) :
    resourceActions (first ++ second) = resourceActions first ++ resourceActions second :=
  List.filterMap_append

/-- Requests rest on the protection domain and on their transport, and have no part in `held`. -/
structure Grounds (held : Finset Resource) : Prop where
  domain : .protectionDomain ∈ held
  transport : .transport ∈ held
  apart : ∀ id, .region id ∉ held ∧ .requestState id ∉ held

section Requests

variable {held : Finset Resource} {ids : Finset Nat} {id : Nat}

theorem region_top : ∀ other ∈ held, Resource.region id ∉ other.bases := by
  intro other _
  cases other <;> simp [Resource.bases]

theorem requestState_top : ∀ other ∈ held, Resource.requestState id ∉ other.bases := by
  intro other _
  cases other <;> simp [Resource.bases]

theorem Grounds.acquire (grounds : Grounds held) (new : id ∉ ids) :
    ledger Resource.bases (held ∪ leases ids)
        [.acquire (.region id), .acquire (.requestState id)] =
      some (held ∪ leases (insert id ids)) := by
  have apart := grounds.apart id
  rw [ledger, act_acquire, Option.bind_some, ledger, act_acquire, Option.bind_some, ledger]
  · congr 1
    ext resource
    simp only [Finset.mem_insert, Finset.mem_union, mem_leases]
    grind
  · simp [apart.2, new]
  · simp [Resource.bases, grounds.transport]
  · simp [apart.1, new]
  · simp [Resource.bases, grounds.domain]

theorem Grounds.release (grounds : Grounds held) (member : id ∈ ids) :
    ledger Resource.bases (held ∪ leases ids)
        [.release (.region id), .release (.requestState id)] =
      some (held ∪ leases (ids.erase id)) := by
  have apart := grounds.apart id
  rw [ledger, act_release, Option.bind_some, ledger, act_release, Option.bind_some, ledger]
  · congr 1
    ext resource
    simp only [Finset.mem_erase, Finset.mem_union, mem_leases]
    grind
  · simp [member]
  · exact requestState_top
  · simp [member]
  · exact region_top

end Requests

/-- A poll or a refused call, as far as the resources go. -/
structure Calm (before after : VerbsTransport) : Prop where
  told : resourceActions after.trace = resourceActions before.trace
  qpNext : after.qpNext = before.qpNext
  qpPrev : after.qpPrev = before.qpPrev
  nextSocket : after.nextSocket = before.nextSocket
  previousSocket : after.previousSocket = before.previousSocket

section Calm

theorem Calm.refl (transport : VerbsTransport) : Calm transport transport := ⟨rfl, rfl, rfl, rfl, rfl⟩

theorem Calm.trans {first second third : VerbsTransport} (left : Calm first second)
    (right : Calm second third) : Calm first third :=
  ⟨right.told.trans left.told, right.qpNext.trans left.qpNext, right.qpPrev.trans left.qpPrev,
    right.nextSocket.trans left.nextSocket, right.previousSocket.trans left.previousSocket⟩

theorem complete_calm (transport : VerbsTransport) (offers : List Offer) :
    Calm transport (transport.complete offers).2 := by
  induction offers generalizing transport with
  | nil => exact .refl transport
  | cons offer offers ih =>
      unfold complete
      split
      · exact ih transport
      · rename_i request posted taken
        have polled : Calm transport { transport with
            posted := posted
            trace := transport.trace ++ [.pollWork request.id
              ⟨request.wrId, offer.status, offer.opcode, offer.withImm, offer.immData⟩] } := by
          refine ⟨?_, rfl, rfl, rfl, rfl⟩
          rw [resourceActions_append]
          exact List.append_nil _
        exact polled.trans (ih _)

theorem handleCompletion_calm {transport after : VerbsTransport} {completion : WorkCompletion}
    (handled : transport.handleCompletion completion = .returned () after) :
    Calm transport after := by
  unfold handleCompletion at handled
  simp only at handled
  repeat' split at handled
  all_goals
    first
      | (obtain ⟨-, rfl⟩ := CallResult.returned.inj handled; exact ⟨rfl, rfl, rfl, rfl, rfl⟩)
      | simp at handled

theorem handleAll_calm {transport after : VerbsTransport} {completions : List WorkCompletion}
    (handled : transport.handleAll completions = .returned () after) : Calm transport after := by
  induction completions generalizing transport with
  | nil =>
      obtain ⟨-, rfl⟩ := CallResult.returned.inj handled
      exact .refl _
  | cons completion completions ih =>
      rw [handleAll] at handled
      cases first : transport.handleCompletion completion with
      | returned answer middle =>
          rw [first] at handled
          exact (handleCompletion_calm first).trans (ih handled)
      | _ => simp [first, CallResult.bind] at handled

theorem pollAvailable_calm {transport after : VerbsTransport} {polls : List (List Offer)}
    {processed count : Nat}
    (polled : transport.pollAvailable polls processed = .returned count after) :
    Calm transport after := by
  induction polls generalizing transport processed with
  | nil =>
      obtain ⟨-, rfl⟩ := CallResult.returned.inj polled
      exact .refl _
  | cons offers polls ih =>
      have completed := complete_calm transport (offers.take 16)
      rw [pollAvailable, ibvPollCq] at polled
      split at polled
      · rename_i middle found
        obtain ⟨-, rfl⟩ := CallResult.returned.inj polled
        rwa [found] at completed
      · rename_i completions middle found notNil
        rw [notNil] at completed
        cases handled : middle.handleAll completions with
        | returned answer later =>
            rw [handled] at polled
            exact (completed.trans (handleAll_calm handled)).trans (ih polled)
        | _ => simp [handled, CallResult.bind] at polled

theorem waitLoop_calm {transport after : VerbsTransport} {address : Address}
    {polls : List (List Offer)} (looped : transport.waitLoop address polls = .returned () after) :
    Calm transport after := by
  induction polls generalizing transport with
  | nil =>
      rw [waitLoop] at looped
      split at looped
      · simp at looped
      · split at looped
        · obtain ⟨-, rfl⟩ := CallResult.returned.inj looped
          exact .refl _
        · simp at looped
  | cons offers polls ih =>
      have completed := complete_calm transport (offers.take 1)
      rw [waitLoop] at looped
      split at looped
      · simp at looped
      split at looped
      · obtain ⟨-, rfl⟩ := CallResult.returned.inj looped
        exact .refl _
      rw [ibvPollCq] at looped
      split at looped
      · rename_i middle found
        rw [found] at completed
        exact completed.trans (ih looped)
      · rename_i completion rest middle found
        rw [found] at completed
        cases handled : middle.handleCompletion completion with
        | returned answer later =>
            rw [handled] at looped
            exact (completed.trans (handleCompletion_calm handled)).trans (ih looped)
        | _ => simp [handled, CallResult.bind] at looped

end Calm

/-- A transport with the pending requests `ids`, that was made with `held`. -/
structure Leasing (held : Finset Resource) (transport : VerbsTransport) (ids : Finset Nat) : Prop where
  live : ∀ id, id ∈ ids ↔ ∃ address, (transport.heap address).map RequestState.id = some id
  settled : ledger Resource.bases held (resourceActions transport.trace) = some (held ∪ leases ids)
  queuePairs : transport.qpNext = true ∧ transport.qpPrev = true
  sockets : 0 ≤ transport.nextSocket ∧ 0 ≤ transport.previousSocket

section Leasing

variable {held : Finset Resource} {ids : Finset Nat} {before after : VerbsTransport}

theorem kept_ids (kept : Kept before after) (address : Address) :
    (after.heap address).map RequestState.id = (before.heap address).map RequestState.id := by
  have same := congrArg (Option.map RequestState.id) (kept.states address)
  rw [Option.map_map, Option.map_map] at same
  exact same

theorem Leasing.polled (leasing : Leasing held before ids) (kept : Kept before after)
    (calm : Calm before after) : Leasing held after ids := by
  refine ⟨fun id => ?_, calm.told ▸ leasing.settled, ?_, ?_⟩
  · simp only [leasing.live, kept_ids kept]
  · rw [calm.qpNext, calm.qpPrev]
    exact leasing.queuePairs
  · rw [calm.nextSocket, calm.previousSocket]
    exact leasing.sockets

theorem Leasing.new (leasing : Leasing held before ids) (sound : Sound [] before) :
    before.nextRequestId ∉ ids := by
  rw [leasing.live]
  rintro ⟨address, same⟩
  obtain ⟨state, found, same⟩ := Option.map_eq_some_iff.mp same
  have below := (sound.live _ _ found).below
  omega

theorem Leasing.refused (leasing : Leasing held before ids) (sound : Sound [] before)
    (grounds : Grounds held) : Leasing held before.refusedPost ids := by
  have new := leasing.new sound
  refine ⟨leasing.live, ?_, leasing.queuePairs, leasing.sockets⟩
  have released := grounds.release (Finset.mem_insert_self before.nextRequestId ids)
  rw [Finset.erase_insert new] at released
  rw [refusedPost, resourceActions_append, sound.numbered]
  exact ledger_trans leasing.settled (ledger_trans (grounds.acquire new) released)

theorem Leasing.accepted (leasing : Leasing held before ids) (sound : Sound [] before)
    (grounds : Grounds held) {address : Address} (free : before.heap address = none) (tag : UInt32)
    (mode : TransferMode) (work : Work) :
    Leasing held (before.acceptedPost address tag mode work) (insert before.nextRequestId ids) := by
  refine ⟨fun id => ?_, ?_, leasing.queuePairs, leasing.sockets⟩
  · rw [Finset.mem_insert, leasing.live]
    constructor
    · rintro (rfl | ⟨other, found⟩)
      · exact ⟨address, by simp [acceptedPost]⟩
      · refine ⟨other, ?_⟩
        have different : other ≠ address := by
          rintro rfl
          simp [free] at found
        simpa [acceptedPost, different] using found
    · rintro ⟨other, found⟩
      by_cases same : other = address
      · left
        simpa [acceptedPost, same] using found.symm
      · right
        exact ⟨other, by simpa [acceptedPost, same] using found⟩
  · rw [acceptedPost, resourceActions_append, sound.numbered]
    exact ledger_trans leasing.settled (grounds.acquire (leasing.new sound))

theorem Leasing.consumed (leasing : Leasing held before ids) (sound : Sound [] before)
    (grounds : Grounds held) {address : Address}
    {state : VerbsTransport.RequestState} (found : before.heap address = some state) :
    Leasing held { before with
      pendingRequests := before.pendingRequests.erase address
      heap := Function.update before.heap address none
      trace := before.trace ++ [.deregMr state.id, .deleteState state.id] } (ids.erase state.id) := by
  have member : state.id ∈ ids := (leasing.live _).mpr ⟨address, by rw [found]; rfl⟩
  refine ⟨fun id => ?_, ?_, leasing.queuePairs, leasing.sockets⟩
  · rw [Finset.mem_erase, leasing.live]
    constructor
    · rintro ⟨different, other, same⟩
      have apart : other ≠ address := by
        rintro rfl
        simp [found, different.symm] at same
      exact ⟨other, by simpa [apart] using same⟩
    · rintro ⟨other, same⟩
      by_cases here : other = address
      · simp [here] at same
      · simp only [Function.update_of_ne here] at same
        refine ⟨?_, other, same⟩
        rintro rfl
        obtain ⟨held, foundHeld, sameId⟩ := Option.map_eq_some_iff.mp same
        exact here (sound.distinct _ _ _ _ foundHeld found sameId)
  · rw [resourceActions_append]
    exact ledger_trans leasing.settled (grounds.release member)

theorem transport?_forget {Answer : Type} (result : CallResult Answer) :
    result.forget.transport? = result.transport? := by
  cases result <;> rfl

theorem Leasing.unchanged (leasing : Leasing held before ids) (sound : Sound [] before)
    (grounds : Grounds held) (same : after = before ∨ after = before.refusedPost) :
    Leasing held after ids := by
  rcases same with rfl | rfl
  · exact leasing
  · exact leasing.refused sound grounds

theorem Leasing.pollAvailable (leasing : Leasing held before ids) (sound : Sound [] before)
    (polls : List (List Offer)) : ∃ count middle, before.pollAvailable polls 0 = .returned count middle ∧
      Leasing held middle ids := by
  obtain ⟨count, middle, polled, -, kept⟩ := pollAvailable_spec sound polls 0
  exact ⟨count, middle, polled, leasing.polled kept (pollAvailable_calm polled)⟩

theorem Leasing.waitRequest (leasing : Leasing held before ids) (sound : Sound [] before)
    (grounds : Grounds held) (polls : List (List Offer)) (request : Option PgRequest)
    (ended : (before.waitRequest polls request).transport? = some after) :
    ∃ ids, Leasing held after ids := by
  cases request with
  | none =>
      obtain rfl := Option.some.inj ended
      exact ⟨ids, leasing⟩
  | some handle =>
      by_cases pending : handle.internal ∈ before.pendingRequests
      · obtain ⟨state, found⟩ := (sound.owned _).mp pending
        have waited := waitLoop_spec sound found polls
        simp only [VerbsTransport.waitRequest, (sound.live _ _ found).notNull, if_false, pending,
          not_true] at ended
        cases result : before.waitLoop handle.internal polls with
        | returned answer middle =>
            rw [result] at waited ended
            cases waited with
            | completed _ later soundLater kept foundLater same completed =>
                simp only [CallResult.bind, foundLater, consumeRequest, release, Option.map_some,
                  (soundLater.live _ _ foundLater).region, Option.toList_some, List.map_cons,
                  List.map_nil, List.append_assoc, List.cons_append, List.nil_append,
                  CallResult.transport?, Option.some.injEq] at ended
                subst ended
                exact ⟨_, (leasing.polled kept (waitLoop_calm result)).consumed soundLater grounds
                  foundLater⟩
        | threw text middle =>
            rw [result] at waited
            cases waited
        | _ => simp [result, CallResult.bind, CallResult.transport?] at ended
      · simp only [VerbsTransport.waitRequest, pending, not_false_eq_true, if_true, ite_self,
          CallResult.transport?, Option.some.injEq] at ended
        exact ⟨ids, ended ▸ leasing⟩

theorem Leasing.testRequest (leasing : Leasing held before ids) (sound : Sound [] before)
    (polls : List (List Offer)) (request : Option PgRequest) (asked : Bool)
    (ended : (before.testRequest polls request asked).transport? = some after) :
    Leasing held after ids := by
  cases request with
  | none =>
      obtain rfl := Option.some.inj ended
      exact leasing
  | some handle =>
      simp only [VerbsTransport.testRequest] at ended
      split at ended
      · obtain rfl := Option.some.inj ended
        exact leasing
      split at ended
      · obtain rfl := Option.some.inj ended
        exact leasing
      · rename_i pending
        obtain ⟨state, found⟩ := (sound.owned _).mp (not_not.mp pending)
        simp only [found] at ended
        split at ended
        · simp only [CallResult.bind, found, CallResult.transport?, Option.some.injEq] at ended
          exact ended ▸ leasing
        · obtain ⟨count, middle, polled, leased⟩ := leasing.pollAvailable sound polls
          simp only [polled, CallResult.bind] at ended
          split at ended
          · simp [CallResult.transport?] at ended
          · obtain rfl := Option.some.inj ended
            exact leased

/-- Whatever a rank calls, its transport holds what its pending requests need. -/
theorem Leasing.step (leasing : Leasing held before ids) (sound : Sound [] before)
    (grounds : Grounds held) (step : VerbsTransport.Step before after) :
    ∃ ids, Leasing held after ids := by
  obtain ⟨operation, feasible, ended⟩ := step
  cases operation with
  | postSendNext answers buffer bytes tag mode request =>
      rcases before.postSendNext_cases feasible (sound.absent feasible) buffer bytes tag mode request
        with ⟨text, other, posted, -, same⟩ | ⟨chosen, work, posted, -⟩
      · rw [call, posted] at ended
        obtain rfl := Option.some.inj ended
        exact ⟨ids, leasing.unchanged sound grounds same⟩
      · rw [call, posted] at ended
        obtain rfl := Option.some.inj ended
        exact ⟨_, leasing.accepted sound grounds feasible.2 tag chosen work⟩
  | postReceivePrevious answers buffer bytes tag mode request =>
      rcases before.postReceivePrevious_cases feasible (sound.absent feasible) buffer bytes tag mode
        request with ⟨text, other, posted, -, same⟩ | ⟨chosen, work, -, -, accepted⟩
      · rw [call, posted] at ended
        obtain rfl := Option.some.inj ended
        exact ⟨ids, leasing.unchanged sound grounds same⟩
      · have leased := leasing.accepted sound grounds feasible.2 tag chosen work
        rcases accepted with ⟨text, posted, -⟩ | ⟨control, posted⟩
        · rw [call, posted] at ended
          obtain rfl := Option.some.inj ended
          exact ⟨_, leased⟩
        · rw [call, posted] at ended
          obtain rfl := Option.some.inj ended
          exact ⟨_, leased.live, leased.settled, leased.queuePairs, leased.sockets⟩
  | testRequest polls request asked =>
      rw [call, transport?_forget] at ended
      exact ⟨ids, leasing.testRequest sound polls request asked ended⟩
  | waitRequest polls request =>
      rw [call, transport?_forget] at ended
      exact leasing.waitRequest sound grounds polls request ended
  | progress polls =>
      obtain ⟨count, middle, polled, leased⟩ := leasing.pollAvailable sound polls
      simp only [call, progress, polled, CallResult.bind, CallResult.forget, CallResult.transport?,
        Option.some.injEq] at ended
      exact ⟨ids, ended ▸ leased⟩

theorem unused_leasing (held : Finset Resource) (nextSocket previousSocket : Nat) :
    Leasing held (unused true true nextSocket previousSocket) ∅ := by
  refine ⟨by simp [unused], ?_, ⟨rfl, rfl⟩, ?_⟩
  · have none : leases ∅ = ∅ := rfl
    rw [none, Finset.union_empty]
    rfl
  · simp [unused]

end Leasing

/-! The destructor. -/

section Delete

variable {held : Finset Resource} {ids : Finset Nat}

theorem farewells_settled (grounds : Grounds held)
    {heap : Address → Option VerbsTransport.RequestState} {order : List Address}
    (nodup : order.Nodup)
    (live : ∀ id, id ∈ ids ↔ ∃ address ∈ order, (heap address).map RequestState.id = some id)
    (present : ∀ address ∈ order, ∃ state, heap address = some state)
    (distinct : ∀ left right state other, heap left = some state → heap right = some other →
      state.id = other.id → left = right) :
    ledger Resource.bases (held ∪ leases ids)
      (resourceActions (order.flatMap (farewell heap))) = some held := by
  induction order generalizing ids with
  | nil =>
      have none : ids = ∅ := Finset.eq_empty_of_forall_notMem fun id => by simp [live]
      subst none
      exact congrArg some (Finset.union_empty held)
  | cons address order ih =>
      obtain ⟨absent, rest⟩ := List.nodup_cons.mp nodup
      obtain ⟨state, found⟩ := present address (by simp)
      have member : state.id ∈ ids := (live _).mpr ⟨address, by simp, by rw [found]; rfl⟩
      have told : farewell heap address = [.deregMr state.id, .deleteState state.id] := by
        rw [farewell, found]
      rw [List.flatMap_cons, resourceActions_append, told]
      refine ledger_trans (grounds.release member) (@ih (ids.erase state.id) rest (fun id => ?_)
        fun other otherIn => present other (by simp [otherIn]))
      rw [Finset.mem_erase, live]
      constructor
      · rintro ⟨different, other, otherIn, same⟩
        rcases List.mem_cons.mp otherIn with rfl | later
        · simp [found, different.symm] at same
        · exact ⟨other, later, same⟩
      · rintro ⟨other, later, same⟩
        refine ⟨?_, other, by simp [later], same⟩
        rintro rfl
        obtain ⟨held, foundHeld, sameId⟩ := Option.map_eq_some_iff.mp same
        exact absent (distinct _ _ _ _ foundHeld found sameId ▸ later)

/-- The destructor gives back what a transport was made of and what its requests hold; `extra` is
what the process holds besides. -/
theorem delete_settled {base extra : Finset Resource} {transport : VerbsTransport}
    (leasing : Leasing base transport ids) (sound : Sound [] transport) {order : List Address}
    (iterated : order.Perm transport.pendingRequests) (besides : extra = ∅ ∨ extra = {.handle}) :
    ∃ actions, deleteTransport transport order = some actions ∧
      ledger Resource.bases (heldOfSockets ∪ extra ∪ leases ids) actions = some extra := by
  have nodup : order.Nodup := iterated.nodup_iff.mpr sound.pendingNodup
  have present : ∀ address ∈ order, ∃ state, transport.heap address = some state := by
    intro address member
    exact (sound.owned address).mp (iterated.mem_iff.mp member)
  obtain ⟨final, destroyed, -, told⟩ := @destroy_eq { transport with trace := [] } order nodup (by
    intro address member
    obtain ⟨state, found⟩ := present address member
    exact ⟨state, found, (sound.live _ _ found).region⟩)
  have closed : closing { transport with trace := [] } =
      [.destroyQp .send, .destroyQp .receive] := by
    simp [closing, leasing.queuePairs]
  rw [closed] at told
  refine ⟨_, by simp only [deleteTransport, destroyed, leasing.sockets, if_true, told]; rfl, ?_⟩
  change ledger Resource.bases (heldOfSockets ∪ extra ∪ leases ids)
    ([.release (.socket .next), .release (.socket .previous), .release (.queuePair .next),
        .release (.queuePair .previous)] ++
      resourceActions (order.flatMap (farewell transport.heap)) ++
      [.release .completionQueue, .release .protectionDomain, .release .context,
        .release .transport]) = some extra
  have front : ledger Resource.bases (heldOfSockets ∪ extra)
      [.release (.socket .next), .release (.socket .previous), .release (.queuePair .next),
        .release (.queuePair .previous)] = some (heldOfTransport ∪ extra) := by
    rcases besides with rfl | rfl <;> decide
  have back : ledger Resource.bases (heldOfTransport ∪ extra)
      [.release .completionQueue, .release .protectionDomain, .release .context,
        .release .transport] = some extra := by
    rcases besides with rfl | rfl <;> decide
  have grounds : Grounds (heldOfTransport ∪ extra) := by
    rcases besides with rfl | rfl
    · exact ⟨by decide, by decide, by simp [heldOfTransport, heldOfDevice]⟩
    · exact ⟨by decide, by decide, by simp [heldOfTransport, heldOfDevice]⟩
  have listed : ∀ id, id ∈ ids ↔
      ∃ address ∈ order, (transport.heap address).map RequestState.id = some id := by
    intro id
    rw [leasing.live]
    constructor
    · rintro ⟨address, same⟩
      obtain ⟨state, found, -⟩ := Option.map_eq_some_iff.mp same
      exact ⟨address, iterated.mem_iff.mpr ((sound.owned _).mpr ⟨state, found⟩), same⟩
    · rintro ⟨address, -, same⟩
      exact ⟨address, same⟩
  have middle := farewells_settled grounds nodup listed present sound.distinct
  refine ledger_trans (ledger_trans (ledger_frame front ?_ ?_) middle) back
  · intro action member
    simp only [List.mem_cons, List.not_mem_nil, or_false] at member
    rcases member with rfl | rfl | rfl | rfl <;> simp [Action.resource]
  · intro resource member other leased
    simp only [List.mem_cons, List.not_mem_nil, or_false, Action.release.injEq] at member
    obtain ⟨id, -, rfl | rfl⟩ := mem_leases.mp leased
    · rcases member with rfl | rfl | rfl | rfl <;> simp [Resource.bases]
    · rcases member with rfl | rfl | rfl | rfl <;> simp [Resource.bases]

theorem abandon_triple (nextSocket previousSocket : Nat) {failed : Finset Resource} :
    Triple Resource.bases heldOfSockets (abandon (unused true true nextSocket previousSocket))
      (fun _ => ∅) failed := by
  obtain ⟨actions, deleted, settled⟩ := @delete_settled _ heldOfSockets ∅ _
    (unused_leasing heldOfSockets nextSocket previousSocket) (unused_sound ..) [] (List.Perm.refl _)
    (Or.inl rfl)
  have none : heldOfSockets ∪ ∅ ∪ leases ∅ = heldOfSockets := by decide
  rw [none] at settled
  rw [Triple, abandon, deleted]
  exact settled

end Delete

section Group

theorem wireQps_triple (answers : Answers) : Triple Resource.bases heldOfSockets (wireQps answers)
    (fun _ => heldOfSockets) ∅ := by
  unfold wireQps
  split
  · rfl
  · rfl

theorem pgCreateFromTransport_triple (answers : Answers) (rank worldSize : Int)
    (transport : VerbsTransport) (owns : Bool) (config : Option Config) :
    Triple Resource.bases heldOfSockets
      (pgCreateFromTransport answers rank worldSize transport owns config) (fun _ => heldOfGroup)
      heldOfSockets := by
  unfold pgCreateFromTransport
  cases answers.newHandle
  · rfl
  · cases ringCollectiveCreate rank worldSize config with
    | error status => rfl
    | ok context => cases answers.newCollectives <;> rfl

theorem connectProcessGroup_triple (environment : Environment) (servername : Option Text)
    (answers : Answers) (accepted : acceptedArguments environment servername
      (environmentRank environment) (environmentWorldSize environment) = true) :
    Triple Resource.bases ∅ (connectProcessGroup environment servername true answers)
      (fun _ => heldOfGroup) (leaked answers) := by
  unfold connectProcessGroup
  simp only [accepted, Bool.true_eq_false, or_self, if_false]
  by_cases empty : answers.deviceList = some 0
  · have opened : openDevice answers = ⟨.error .transport, [.acquire .deviceList]⟩ := by
      unfold openDevice
      rw [empty]
      rfl
    rw [opened, leaked, if_pos empty]
    rfl
  · have kept := openDevice_triple answers
    rw [leaked, if_neg empty] at kept ⊢
    refine kept.bind fun _ => (allocPd_triple answers).bind fun _ =>
      (makeTransport_triple answers _ _).bind fun _ => (createQps_triple answers).bind fun _ =>
        (tcpRing_triple answers _).bind fun sockets => (wireQps_triple answers).bind fun _ => ?_
    obtain ⟨nextSocket, previousSocket⟩ := sockets
    cases collectiveConfig environment with
    | error text => exact (abandon_triple nextSocket previousSocket).bind fun _ => rfl
    | ok config =>
        exact (pgCreateFromTransport_triple answers _ _ _ true (some config)).catching fun status =>
          (abandon_triple nextSocket previousSocket).bind fun _ => rfl

theorem pgCreateFromTransport_ok {answers : Answers} {rank worldSize : Int}
    {transport : VerbsTransport} {owns : Bool} {config : Option Config} {group : Group}
    (made : (pgCreateFromTransport answers rank worldSize transport owns config).result = .ok group) :
    group.transport = transport ∧ group.ownsTransport = owns ∧
      ringCollectiveCreate rank worldSize config = .ok group.collectives := by
  unfold pgCreateFromTransport at made
  split at made
  · obtain ⟨-, -, made⟩ := Run.bind_ok made
    split at made
    · obtain ⟨-, -, made⟩ := Run.bind_ok made
      cases made
    · rename_i context created
      split at made
      · obtain ⟨-, -, made⟩ := Run.bind_ok made
        obtain rfl := Except.ok.inj made
        exact ⟨rfl, rfl, created⟩
      · obtain ⟨-, -, made⟩ := Run.bind_ok made
        cases made
  · cases made

theorem connectProcessGroup_group {environment : Environment} {servername : Option Text}
    {pgHandle : Bool} {answers : Answers} {group : Group}
    (made : (connectProcessGroup environment servername pgHandle answers).result = .ok group) :
    (pgHandle = true ∧ acceptedArguments environment servername (environmentRank environment)
        (environmentWorldSize environment) = true) ∧ group.ownsTransport = true ∧
      (∃ nextSocket previousSocket : Nat,
        group.transport = unused true true nextSocket previousSocket) ∧
      ∃ config, collectiveConfig environment = .ok config ∧
        ringCollectiveCreate (environmentRank environment) (environmentWorldSize environment)
          (some config) = .ok group.collectives := by
  unfold connectProcessGroup at made
  simp only at made
  split at made
  · cases made
  · rename_i accepted
    simp only [not_or, Bool.not_eq_false] at accepted
    obtain ⟨-, -, made⟩ := Run.bind_ok made
    obtain ⟨-, -, made⟩ := Run.bind_ok made
    obtain ⟨-, -, made⟩ := Run.bind_ok made
    obtain ⟨-, -, made⟩ := Run.bind_ok made
    obtain ⟨⟨nextSocket, previousSocket⟩, -, made⟩ := Run.bind_ok made
    obtain ⟨-, -, made⟩ := Run.bind_ok made
    refine ⟨accepted, ?_⟩
    split at made
    · obtain ⟨-, -, made⟩ := Run.bind_ok made
      cases made
    · rename_i config isConfig
      rcases Run.catching_ok made with made | ⟨status, -, made⟩
      · obtain ⟨same, owns, created⟩ := pgCreateFromTransport_ok made
        exact ⟨owns, ⟨nextSocket, previousSocket, same⟩, config, isConfig, created⟩
      · obtain ⟨-, -, made⟩ := Run.bind_ok made
        cases made

/-- Every transport a rank brings its own to holds what its pending requests need. -/
theorem reachable_leasing {held : Finset Resource} (grounds : Grounds held)
    {nextSocket previousSocket : Nat} {transport : VerbsTransport}
    (reachable : VerbsTransport.Reachable true true nextSocket previousSocket transport) :
    ∃ ids, Leasing held transport ids := by
  refine Runs.Reachable.strengthen (fun transport => ∃ ids, Leasing held transport ids) reachable
    ⟨∅, unused_leasing held nextSocket previousSocket⟩ ?_
  rintro before after earlier ⟨ids, leasing⟩ step
  exact leasing.step (VerbsTransport.Reachable.sound earlier) grounds step

theorem heldOfGroup_grounds : Grounds heldOfGroup :=
  ⟨by decide, by decide, by simp [heldOfGroup, heldOfSockets, heldOfQps, heldOfTransport,
    heldOfDevice]⟩

/-- `pg_close` gives back what a process group was made of and what the pending requests hold. -/
theorem pgClose_settled {group : Group} (owns : group.ownsTransport = true) {ids : Finset Nat}
    (leasing : Leasing heldOfGroup group.transport ids) (sound : Sound [] group.transport)
    {order : List Address} (iterated : order.Perm group.transport.pendingRequests) :
    ∃ closing, pgClose group order = some closing ∧
      ledger Resource.bases (heldOfGroup ∪ leases ids) closing = some ∅ := by
  obtain ⟨actions, deleted, settled⟩ := delete_settled leasing sound iterated (Or.inr rfl)
  refine ⟨.release .collectives :: (actions ++ [.release .handle]), ?_, ?_⟩
  · simp [pgClose, owns, deleted]
  · have erased : (heldOfGroup ∪ leases ids).erase .collectives =
        heldOfSockets ∪ {.handle} ∪ leases ids := by
      have apart : .collectives ∉ leases ids := by simp
      have left : heldOfGroup.erase .collectives = heldOfSockets ∪ {.handle} := by decide
      rw [Finset.erase_union_distrib, Finset.erase_eq_of_notMem apart, left]
    have top : ∀ other ∈ heldOfGroup ∪ leases ids, Resource.collectives ∉ other.bases := by
      intro other _
      cases other <;> simp [Resource.bases]
    have member : .collectives ∈ heldOfGroup ∪ leases ids := Finset.mem_union_left _ (by decide)
    rw [ledger, act_release member top, erased]
    exact ledger_trans settled rfl

/-- A rank can close its group whatever it has done with its transport. -/
theorem group_settled {environment : Environment} {servername : Option Text} {pgHandle : Bool}
    {answers : Answers} {group : Group}
    (made : (connectProcessGroup environment servername pgHandle answers).result = .ok group)
    {transport : VerbsTransport}
    (reachable : Runs.Reachable VerbsTransport.Step group.transport transport) {order : List Address}
    (iterated : order.Perm transport.pendingRequests) :
    ∃ closing, pgClose { group with transport := transport } order = some closing ∧
      ledger Resource.bases ∅
        ((connectProcessGroup environment servername pgHandle answers).actions ++
          resourceActions transport.trace ++ closing) = some ∅ := by
  obtain ⟨⟨rfl, accepted⟩, owns, ⟨nextSocket, previousSocket, same⟩, -⟩ :=
    connectProcessGroup_group made
  have held := connectProcessGroup_triple environment servername answers accepted
  rw [Triple, made] at held
  rw [same] at reachable
  obtain ⟨ids, leasing⟩ := reachable_leasing heldOfGroup_grounds reachable
  obtain ⟨closing, closed, settled⟩ := @pgClose_settled { group with transport := transport } owns
    ids leasing (VerbsTransport.Reachable.sound reachable) order iterated
  exact ⟨closing, closed, ledger_trans (ledger_trans held leasing.settled) settled⟩

/-- Whatever fails in `connect_process_group`, nothing is left of what it acquired, but for a list of
no devices. And whatever a rank does with its transport, after `pg_close` nothing is left; all of it
is released once, and before what it rests on. -/
theorem process_group_settled (environment : Environment) (servername : Option Text)
    (pgHandle : Bool) (answers : Answers) :
    (∀ status,
      (connectProcessGroup environment servername pgHandle answers).result = .error status →
      ledger Resource.bases ∅ (connectProcessGroup environment servername pgHandle answers).actions =
        some (if pgHandle = true ∧ acceptedArguments environment servername
            (environmentRank environment) (environmentWorldSize environment) = true
          then leaked answers else ∅)) ∧
    ∀ group, (connectProcessGroup environment servername pgHandle answers).result = .ok group →
      ∀ transport, Runs.Reachable VerbsTransport.Step group.transport transport →
        ∀ order, order.Perm transport.pendingRequests → ∃ closing,
          pgClose { group with transport := transport } order = some closing ∧
          ledger Resource.bases ∅
            ((connectProcessGroup environment servername pgHandle answers).actions ++
              resourceActions transport.trace ++ closing) = some ∅ := by
  constructor
  · intro status failed
    split
    · rename_i asked
      obtain ⟨rfl, accepted⟩ := asked
      have held := connectProcessGroup_triple environment servername answers accepted
      rwa [Triple, failed] at held
    · rename_i refused
      have rejected : pgHandle = false ∨ acceptedArguments environment servername
          (environmentRank environment) (environmentWorldSize environment) = false := by
        rwa [not_and_or, Bool.not_eq_true, Bool.not_eq_true] at refused
      have nothing : connectProcessGroup environment servername pgHandle answers =
          .fail .invalidArgument := if_pos rejected
      rw [nothing]
      rfl
  · intro group made transport reachable order iterated
    exact group_settled made reachable iterated

/-- The second address answers at the last attempt. -/
def lateAnswers : Answers where
  deviceList := some 1
  openDevice := true
  allocPd := true
  queryPort := true
  portActive := true
  newTransport := true
  createCq := true
  createQp := fun _ => true
  resolved := true
  candidates := fun left => if left = 0 then [none, some (7, false), some (8, true)] else [none]
  listenSocket := true
  bindAndListen := true
  accept := some 9
  exchanged := true
  modifyQp := fun _ _ => true
  ready := some (1, 1)
  newHandle := true
  newCollectives := true

def firstOfTwo : Environment where
  rank := some ['0']
  worldSize := some ['2']
  hostList := some ['a', ',', 'b']
  pieceBytes := none
  maxInflight := none
  transferMode := none

theorem process_group_settled_two : ∃ group,
    (connectProcessGroup firstOfTwo none true lateAnswers).result = .ok group ∧
      ∃ closing, pgClose group [] = some closing ∧
        ledger Resource.bases ∅
          ((connectProcessGroup firstOfTwo none true lateAnswers).actions ++ [] ++ closing) =
            some ∅ := by
  obtain ⟨closing, closed, settled⟩ := (process_group_settled firstOfTwo none true lateAnswers).2 _
    rfl _ Relation.ReflTransGen.refl [] (List.Perm.refl _)
  exact ⟨_, rfl, closing, closed, settled⟩

end Group

end RingAllReduce.ProcessGroup
