import Mathlib.Data.List.Nodup
import RingAllReduce.VerbsEndpoint

/-! What holds of the request states of a `VerbsTransport` whatever its rank calls and whatever
the device completes. -/

namespace RingAllReduce.VerbsTransport

theorem reverseBytes_eq {first second third fourth : Nat} (secondBound : second < 256)
    (thirdBound : third < 256) (fourthBound : fourth < 256) :
    reverseBytes (first * 2 ^ 24 + second * 2 ^ 16 + third * 2 ^ 8 + fourth) =
      fourth * 2 ^ 24 + third * 2 ^ 16 + second * 2 ^ 8 + first := by
  unfold reverseBytes
  omega

theorem reverseBytes_reverseBytes {value : Nat} (bound : value < 2 ^ 32) :
    reverseBytes (reverseBytes value) = value := by
  have reversed : reverseBytes (reverseBytes value) =
      value / 2 ^ 24 * 2 ^ 24 + value / 2 ^ 16 % 256 * 2 ^ 16 + value / 2 ^ 8 % 256 * 2 ^ 8 +
        value % 256 := by
    apply reverseBytes_eq <;> omega
  rw [reversed]
  omega

theorem reverseBytes_lt {value : Nat} (bound : value < 2 ^ 32) : reverseBytes value < 2 ^ 32 := by
  unfold reverseBytes
  omega

theorem htonl_htonl (host : UInt32) : htonl (htonl host) = host := by
  apply UInt32.toNat_inj.mp
  have bound := host.toNat_lt
  have reversed := reverseBytes_lt bound
  simp only [htonl, UInt32.toNat_ofNat']
  rw [Nat.mod_eq_of_lt reversed, reverseBytes_reverseBytes bound, Nat.mod_eq_of_lt bound]

theorem ntohl_eq_iff (network tag : UInt32) : ntohl network = tag ↔ network = htonl tag := by
  constructor
  · rintro rfl
    exact (htonl_htonl network).symm
  · rintro rfl
    exact htonl_htonl tag

/-! A completion is good when it is of the kind and mode of its request and, for a receive, brings
its tag. -/

def expectedOpcode : RequestKind → TransferMode → Option WcOpcode
  | .send, .eager => some .send
  | .send, .rendezvous => some .rdmaWrite
  | .receive, .eager => some .recv
  | .receive, .rendezvous => some .recvRdmaWithImm
  | _, _ => none

def Succeeded (state : RequestState) (completion : WorkCompletion) : Prop :=
  completion.status = 0 ∧ some completion.opcode = expectedOpcode state.kind state.mode ∧
    (state.kind = .receive → completion.withImm = true ∧ completion.immData = htonl state.tag)

instance (state : RequestState) (completion : WorkCompletion) :
    Decidable (Succeeded state completion) :=
  inferInstanceAs (Decidable (_ ∧ _ ∧ _))

def verdict (state : RequestState) (completion : WorkCompletion) : Int :=
  if Succeeded state completion then 0 else -1

def RequestState.recorded (state : RequestState) (completion : WorkCompletion) : RequestState :=
  { state with completed := true, status := verdict state completion }

/-- A state without what a completion changes in it. -/
def RequestState.identity (state : RequestState) : RequestState :=
  { state with completed := false, status := 0 }

@[simp] theorem RequestState.recorded_identity (state : RequestState)
    (completion : WorkCompletion) : (state.recorded completion).identity = state.identity := rfl

theorem verdict_identity {state other : RequestState} (same : state.identity = other.identity)
    (completion : WorkCompletion) : verdict state completion = verdict other completion := by
  cases state
  cases other
  simp only [RequestState.identity, RequestState.mk.injEq] at same
  obtain ⟨rfl, rfl, rfl, rfl, rfl, -⟩ := same
  rfl

theorem handleCompletion_eq {transport : VerbsTransport} {completion : WorkCompletion}
    {state : RequestState} (notNull : completion.wrId ≠ 0)
    (pending : completion.wrId ∈ transport.pendingRequests)
    (found : transport.heap completion.wrId = some state) (unset : state.status = 0) :
    transport.handleCompletion completion = .returned () { transport with
      heap := Function.update transport.heap completion.wrId
        (some (state.recorded completion)) } := by
  obtain ⟨kind, id, tag, mode, region, completed, status⟩ := state
  obtain rfl : status = 0 := unset
  simp only [handleCompletion, notNull, pending, not_true, or_self, if_false, found,
    RequestState.recorded, verdict]
  by_cases bad : completion.status ≠ 0
  · simp [bad, Succeeded]
  · have good : completion.status = 0 := not_ne_iff.mp bad
    rw [if_neg bad]
    cases kind with
    | send =>
        have right : Succeeded ⟨.send, id, tag, mode, region, completed, 0⟩ completion ↔
            (mode = .eager ∧ completion.opcode = .send) ∨
              (mode = .rendezvous ∧ completion.opcode = .rdmaWrite) := by
          cases mode <;> simp [Succeeded, good, expectedOpcode]
        simp only [right]
        split <;> rfl
    | receive =>
        have wrong : (¬((mode = .eager ∧ completion.opcode = .recv) ∨
              (mode = .rendezvous ∧ completion.opcode = .recvRdmaWithImm)) ∨
            completion.withImm = false ∨ ntohl completion.immData ≠ tag) ↔
              ¬Succeeded ⟨.receive, id, tag, mode, region, completed, 0⟩ completion := by
          cases mode <;> simp [Succeeded, good, expectedOpcode, ntohl_eq_iff, Classical.or_iff_not_imp_left]
        simp only [wrong, ite_not]
        split <;> rfl

/-! What the trace says of one request. A request and its region have the same number. -/

def Event.concerns (id : Nat) : Event → Bool
  | .regMr region => region = id
  | .deregMr region => region = id
  | .newState other => other = id
  | .deleteState other => other = id
  | .postWork _ _ region => region = id
  | .pollWork other _ => other = id
  | .destroyQp _ => true

def story (trace : List Event) (id : Nat) : List Event := trace.filter (Event.concerns id)

@[simp] theorem story_append (before after : List Event) (id : Nat) :
    story (before ++ after) id = story before id ++ story after id :=
  List.filter_append ..

theorem mem_story {trace : List Event} {id : Nat} {event : Event} :
    event ∈ story trace id ↔ event ∈ trace ∧ event.concerns id = true :=
  List.mem_filter

def opened (id : Nat) (kind : RequestKind) : List Event :=
  [.regMr id, .newState id, .postWork id kind id]

/-- No region is deregistered while the device may still use it. -/
def Orderly (trace : List Event) : Prop :=
  ∀ before after region, trace = before ++ .deregMr region :: after →
    ∀ id kind, .postWork id kind region ∈ before →
      (∃ completion, .pollWork id completion ∈ before) ∨ .destroyQp kind ∈ before

theorem append_eq_append_cons {Item : Type} {front back before after : List Item} {item : Item}
    (split : front ++ back = before ++ item :: after) :
    (∃ middle, front = before ++ item :: middle) ∨
      ∃ middle, before = front ++ middle ∧ back = middle ++ item :: after := by
  rcases List.append_eq_append_iff.mp split with ⟨middle, beforeEq, backEq⟩ |
    ⟨middle, frontEq, itemEq⟩
  · exact Or.inr ⟨middle, beforeEq, backEq⟩
  · cases middle with
    | nil =>
        right
        refine ⟨[], by simpa using frontEq.symm, ?_⟩
        simpa using itemEq.symm
    | cons first middle =>
        left
        simp only [List.cons_append, List.cons.injEq] at itemEq
        obtain ⟨rfl, -⟩ := itemEq
        exact ⟨middle, frontEq⟩

theorem Orderly.append {trace more : List Event} (orderly : Orderly trace)
    (calm : ∀ region, .deregMr region ∉ more) : Orderly (trace ++ more) := by
  intro before after region split
  rcases append_eq_append_cons split with ⟨middle, traceEq⟩ | ⟨middle, -, moreEq⟩
  · exact orderly before middle region traceEq
  · exact absurd (by simp [moreEq]) (calm region)

/-- A request is released after its completion was polled or its queue pair destroyed. -/
theorem Orderly.release {trace : List Event} {region id : Nat} (orderly : Orderly trace)
    (safe : ∀ other kind, .postWork other kind region ∈ trace →
      (∃ completion, .pollWork other completion ∈ trace) ∨ .destroyQp kind ∈ trace) :
    Orderly (trace ++ [.deregMr region, .deleteState id]) := by
  intro before after other split
  rcases append_eq_append_cons split with ⟨middle, traceEq⟩ | ⟨middle, rfl, moreEq⟩
  · exact orderly before middle other traceEq
  · cases middle with
    | nil =>
        simp only [List.nil_append, List.cons.injEq, Event.deregMr.injEq] at moreEq
        obtain ⟨rfl, -⟩ := moreEq
        simpa using safe
    | cons first middle =>
        simp only [List.cons_append, List.cons.injEq] at moreEq
        obtain ⟨-, rest⟩ := moreEq
        cases middle <;> simp at rest

theorem Orderly.of_unregistered {trace : List Event} (calm : ∀ region, .deregMr region ∉ trace) :
    Orderly trace := by
  intro before after region split
  exact absurd (by simp [split]) (calm region)

/-- A request of which nothing is left. -/
structure Released (id : Nat) (story : List Event) : Prop where
  registered : story.count (.regMr id) = 1
  deregistered : story.count (.deregMr id) = 1
  allocated : story.count (.newState id) = 1
  deleted : story.count (.deleteState id) = 1
  orderly : Orderly story

/-- How far a pending request has come. -/
inductive Standing (inHand : List WorkCompletion) (posted : List WorkRequest) (trace : List Event)
    (address : Address) (state : RequestState) : Prop where
  | outstanding (request : WorkRequest) (member : request ∈ posted)
      (own : request.wrId = address) (id : request.id = state.id)
      (kind : request.work.kind = state.kind) (running : state.completed = false)
      (unset : state.status = 0) (told : story trace state.id = opened state.id state.kind)
  | polled (completion : WorkCompletion) (member : completion ∈ inHand)
      (own : completion.wrId = address) (running : state.completed = false)
      (unset : state.status = 0)
      (told : story trace state.id =
        opened state.id state.kind ++ [.pollWork state.id completion])
  | recorded (completion : WorkCompletion) (ended : state.completed = true)
      (status : state.status = verdict state completion)
      (told : story trace state.id =
        opened state.id state.kind ++ [.pollWork state.id completion])

structure Live (inHand : List WorkCompletion) (posted : List WorkRequest) (trace : List Event)
    (nextRequestId : Nat) (address : Address) (state : RequestState) : Prop where
  notNull : address ≠ 0
  positive : 0 < state.id
  below : state.id < nextRequestId
  region : state.memoryRegion = some state.id
  standing : Standing inHand posted trace address state

/-- The addresses the device still answers for: of work requests on a queue pair and of completions
that were polled and are `inHand`, not handled yet. -/
def claims (inHand : List WorkCompletion) (posted : List WorkRequest) : List Address :=
  posted.map WorkRequest.wrId ++ inHand.map WorkCompletion.wrId

structure Sound (inHand : List WorkCompletion) (transport : VerbsTransport) : Prop where
  numbered : transport.regions = transport.nextRequestId
  first : 0 < transport.nextRequestId
  live : ∀ address state, transport.heap address = some state →
    Live inHand transport.posted transport.trace transport.nextRequestId address state
  owned : ∀ address, address ∈ transport.pendingRequests ↔ ∃ state,
    transport.heap address = some state
  pendingNodup : transport.pendingRequests.Nodup
  distinct : ∀ left right state other, transport.heap left = some state →
    transport.heap right = some other → state.id = other.id → left = right
  claimed : ∀ address ∈ claims inHand transport.posted, ∃ state,
    transport.heap address = some state ∧ state.completed = false
  apart : (claims inHand transport.posted).Nodup
  released : ∀ id, 0 < id → id < transport.nextRequestId →
    (∀ address state, transport.heap address = some state → state.id ≠ id) →
    Released id (story transport.trace id)
  unborn : ∀ id, id = 0 ∨ transport.nextRequestId ≤ id → story transport.trace id = []
  sendsNext : ∀ request ∈ transport.posted, request.work.kind = .send → transport.qpNext = true
  receivesPrevious : ∀ request ∈ transport.posted, request.work.kind = .receive →
    transport.qpPrev = true

theorem Live.mono {inHand inHand' : List WorkCompletion} {posted posted' : List WorkRequest}
    {trace trace' : List Event} {next next' : Nat} {address : Address} {state : RequestState}
    (live : Live inHand posted trace next address state)
    (requests : ∀ request ∈ posted, request.id = state.id → request ∈ posted')
    (completions : ∀ completion ∈ inHand, completion.wrId = address → completion ∈ inHand')
    (told : story trace' state.id = story trace state.id) (le : next ≤ next') :
    Live inHand' posted' trace' next' address state := by
  refine ⟨live.notNull, live.positive, Nat.lt_of_lt_of_le live.below le, live.region, ?_⟩
  cases live.standing with
  | outstanding request member own id kind running unset before =>
      exact .outstanding request (requests request member id) own id kind running unset
        (told.trans before)
  | polled completion member own running unset before =>
      exact .polled completion (completions completion member own) own running unset
        (told.trans before)
  | recorded completion ended status before =>
      exact .recorded completion ended status (told.trans before)

section Steps

variable {inHand : List WorkCompletion} {transport : VerbsTransport}

theorem story_other {trace : List Event} {event : Event} {id : Nat}
    (other : event.concerns id = false) : story (trace ++ [event]) id = story trace id := by
  simp [story, other]

theorem Sound.of_posted (sound : Sound inHand transport) {request : WorkRequest}
    (member : request ∈ transport.posted) :
    ∃ state, transport.heap request.wrId = some state ∧ request.id = state.id ∧
      request.work.kind = state.kind ∧ state.completed = false ∧ state.status = 0 ∧
      story transport.trace state.id = opened state.id state.kind := by
  have claim : request.wrId ∈ claims inHand transport.posted := by
    simp only [claims, List.mem_append, List.mem_map]
    exact Or.inl ⟨request, member, rfl⟩
  obtain ⟨state, found, running⟩ := sound.claimed _ claim
  refine ⟨state, found, ?_⟩
  have apart := List.nodup_append.mp sound.apart
  cases (sound.live _ _ found).standing with
  | outstanding other otherMember own id kind _ unset told =>
      obtain rfl : other = request :=
        List.inj_on_of_nodup_map apart.1 otherMember member own
      exact ⟨id, kind, running, unset, told⟩
  | polled completion held own =>
      have left : request.wrId ∈ transport.posted.map WorkRequest.wrId := List.mem_map_of_mem member
      have right : completion.wrId ∈ inHand.map WorkCompletion.wrId := List.mem_map_of_mem held
      exact absurd own.symm (apart.2.2 _ left _ right)
  | recorded _ ended => simp [running] at ended

theorem Sound.of_inHand (sound : Sound inHand transport) {completion : WorkCompletion}
    (member : completion ∈ inHand) :
    ∃ state, transport.heap completion.wrId = some state ∧ state.completed = false ∧
      state.status = 0 ∧ story transport.trace state.id =
        opened state.id state.kind ++ [.pollWork state.id completion] := by
  have claim : completion.wrId ∈ claims inHand transport.posted := by
    simp only [claims, List.mem_append, List.mem_map]
    exact Or.inr ⟨completion, member, rfl⟩
  obtain ⟨state, found, running⟩ := sound.claimed _ claim
  refine ⟨state, found, running, ?_⟩
  have apart := List.nodup_append.mp sound.apart
  cases (sound.live _ _ found).standing with
  | outstanding request posted own =>
      have left : request.wrId ∈ transport.posted.map WorkRequest.wrId := List.mem_map_of_mem posted
      have right : completion.wrId ∈ inHand.map WorkCompletion.wrId := List.mem_map_of_mem member
      exact absurd own (apart.2.2 _ left _ right)
  | polled other otherMember own _ unset told =>
      obtain rfl : other = completion :=
        List.inj_on_of_nodup_map apart.2.1 otherMember member own
      exact ⟨unset, told⟩
  | recorded _ ended => simp [running] at ended

theorem update_eq_some {heap : Address → Option RequestState} {address target : Address}
    {value : Option RequestState} {state : RequestState}
    (found : Function.update heap target value address = some state) :
    (address = target ∧ value = some state) ∨ (address ≠ target ∧ heap address = some state) := by
  by_cases same : address = target
  · subst same
    exact Or.inl ⟨rfl, by simpa using found⟩
  · exact Or.inr ⟨same, by simpa [Function.update_of_ne same] using found⟩

theorem Sound.take (sound : Sound inHand transport) {front back : List WorkRequest}
    {request : WorkRequest} (split : transport.posted = front ++ request :: back)
    {completion : WorkCompletion} (own : completion.wrId = request.wrId) :
    Sound (inHand ++ [completion]) { transport with
      posted := front ++ back
      trace := transport.trace ++ [.pollWork request.id completion] } := by
  have member : request ∈ transport.posted := by simp [split]
  obtain ⟨state, found, idEq, kindEq, running, unset, told⟩ := sound.of_posted member
  have moved : (claims (inHand ++ [completion]) (front ++ back)).Perm
      (claims inHand transport.posted) := by
    simp only [claims, split, List.map_append, List.map_cons, own, List.map_nil, List.append_assoc,
      List.cons_append]
    apply List.Perm.append_left
    rw [← List.append_assoc]
    exact List.perm_append_singleton _ _
  have remaining : ∀ {posted}, posted ∈ front ++ back → posted ∈ transport.posted := by
    intro posted member
    simp only [split, List.mem_append, List.mem_cons] at member ⊢
    tauto
  have other : ∀ id, id ≠ request.id →
      story (transport.trace ++ [.pollWork request.id completion]) id = story transport.trace id := by
    intro id different
    apply story_other
    simpa [Event.concerns] using different.symm
  constructor
  case live =>
    intro address held foundHeld
    have before := sound.live address held foundHeld
    by_cases same : held.id = request.id
    · obtain rfl : address = request.wrId :=
        sound.distinct _ _ _ _ foundHeld found (same.trans idEq)
      obtain rfl : held = state := by simpa [found] using foundHeld.symm
      refine ⟨before.notNull, before.positive, before.below, before.region, ?_⟩
      refine .polled completion (by simp) own running unset ?_
      rw [story_append, told, same]
      simp [story, Event.concerns]
    · apply before.mono _ _ (other _ same) (le_refl _)
      · intro posted member id
        have different : posted ≠ request := by
          rintro rfl
          exact same id.symm
        simpa [split, different] using member
      · intro earlier member _
        exact List.mem_append_left _ member
  case claimed =>
    intro address claim
    exact sound.claimed address (moved.mem_iff.mp claim)
  case apart => exact moved.nodup_iff.mpr sound.apart
  case released =>
    intro id positive below gone
    have different : id ≠ request.id := by
      rintro rfl
      exact gone _ _ found idEq.symm
    rw [other id different]
    exact sound.released id positive below gone
  case unborn =>
    intro id beyond
    have before := sound.live _ _ found
    have different : id ≠ request.id := by
      rcases beyond with rfl | beyond
      · exact Nat.ne_of_lt (idEq ▸ before.positive)
      · exact Nat.ne_of_gt (idEq ▸ Nat.lt_of_lt_of_le before.below beyond)
    rw [other id different]
    exact sound.unborn id beyond
  case sendsNext =>
    intro posted posting
    exact sound.sendsNext posted (remaining posting)
  case receivesPrevious =>
    intro posted posting
    exact sound.receivesPrevious posted (remaining posting)
  case numbered => exact sound.numbered
  case first => exact sound.first
  case owned => exact sound.owned
  case pendingNodup => exact sound.pendingNodup
  case distinct => exact sound.distinct

theorem Sound.record {completion : WorkCompletion}
    (sound : Sound (completion :: inHand) transport) :
    ∃ state, transport.heap completion.wrId = some state ∧
      transport.handleCompletion completion = .returned () { transport with
        heap := Function.update transport.heap completion.wrId
          (some (state.recorded completion)) } ∧
      Sound inHand { transport with
        heap := Function.update transport.heap completion.wrId
          (some (state.recorded completion)) } := by
  obtain ⟨state, found, running, unset, told⟩ := sound.of_inHand (List.mem_cons_self ..)
  have before := sound.live _ _ found
  have pending := (sound.owned _).mpr ⟨state, found⟩
  refine ⟨state, found, handleCompletion_eq before.notNull pending found unset, ?_⟩
  have apart : (completion.wrId :: claims inHand transport.posted).Nodup := by
    have moved := @List.perm_middle _ completion.wrId
      (transport.posted.map WorkRequest.wrId) (inHand.map WorkCompletion.wrId)
    exact moved.nodup_iff.mp sound.apart
  have ids : ∀ address held, Function.update transport.heap completion.wrId
      (some (state.recorded completion)) address = some held →
      ∃ old, transport.heap address = some old ∧ old.id = held.id := by
    intro address held foundHeld
    rcases update_eq_some foundHeld with ⟨rfl, heldEq⟩ | ⟨-, old⟩
    · obtain rfl := Option.some.inj heldEq
      exact ⟨state, found, rfl⟩
    · exact ⟨held, old, rfl⟩
  constructor
  case live =>
    intro address held foundHeld
    rcases update_eq_some foundHeld with ⟨rfl, heldEq⟩ | ⟨different, old⟩
    · obtain rfl := Option.some.inj heldEq
      refine ⟨before.notNull, before.positive, before.below, before.region, ?_⟩
      exact .recorded completion rfl (verdict_identity rfl _) told
    · apply (sound.live _ _ old).mono (fun _ member _ => member) _ rfl (le_refl _)
      intro other member own
      rcases List.mem_cons.mp member with rfl | later
      · exact absurd own.symm different
      · exact later
  case owned =>
    intro address
    rw [sound.owned]
    by_cases same : address = completion.wrId
    · subst same
      simp [found]
    · simp [Function.update_of_ne same]
  case distinct =>
    intro left right first second foundFirst foundSecond same
    obtain ⟨_, oldFirst, idFirst⟩ := ids _ _ foundFirst
    obtain ⟨_, oldSecond, idSecond⟩ := ids _ _ foundSecond
    exact sound.distinct _ _ _ _ oldFirst oldSecond (idFirst.trans (same.trans idSecond.symm))
  case claimed =>
    intro address claim
    have different : address ≠ completion.wrId := by
      rintro rfl
      exact (List.nodup_cons.mp apart).1 claim
    have earlier : address ∈ claims (completion :: inHand) transport.posted := by
      simp only [claims, List.map_cons, List.mem_append, List.mem_cons] at claim ⊢
      tauto
    obtain ⟨held, foundHeld, running⟩ := sound.claimed address earlier
    exact ⟨held, (Function.update_of_ne different ..).trans foundHeld, running⟩
  case apart => exact (List.nodup_cons.mp apart).2
  case released =>
    intro id positive below gone
    apply sound.released id positive below
    intro address held foundHeld sameId
    by_cases same : address = completion.wrId
    · subst same
      obtain rfl : held = state := by simpa [found] using foundHeld.symm
      exact gone _ _ (Function.update_self ..) sameId
    · exact gone address held ((Function.update_of_ne same ..).trans foundHeld) sameId
  case numbered => exact sound.numbered
  case first => exact sound.first
  case pendingNodup => exact sound.pendingNodup
  case unborn => exact sound.unborn
  case sendsNext => exact sound.sendsNext
  case receivesPrevious => exact sound.receivesPrevious

def refusedPost (transport : VerbsTransport) : VerbsTransport :=
  { transport with
    nextRequestId := transport.nextRequestId + 1
    regions := transport.regions + 1
    trace := transport.trace ++ [.regMr transport.regions, .newState transport.nextRequestId,
      .deregMr transport.regions, .deleteState transport.nextRequestId] }

def acceptedPost (transport : VerbsTransport) (address : Address) (tag : UInt32)
    (mode : TransferMode) (work : Work) : VerbsTransport :=
  let id := transport.nextRequestId
  let state : RequestState :=
    { kind := work.kind, id := id, tag := tag, mode := mode
      memoryRegion := some transport.regions, completed := false, status := 0 }
  { transport with
    nextRequestId := id + 1
    regions := transport.regions + 1
    pendingRequests := address :: transport.pendingRequests
    heap := Function.update transport.heap address (some state)
    posted := transport.posted ++ [{ wrId := address, id := id, work := work }]
    trace := transport.trace ++
      [.regMr transport.regions, .newState id, .postWork id work.kind transport.regions] }

theorem append_ne {start rest text : String} (different : ¬ start.toList <+: text.toList) :
    start ++ rest ≠ text := by
  rintro rfl
  exact different (by simp)

theorem submit_cases (transport : VerbsTransport) {answers : Answers}
    (fresh : transport.Fresh answers) (absent : answers.address ∉ transport.pendingRequests)
    {function : String} (verbs : ¬ function.toList <+: unknownWrId.toList) (buffer : Address)
    (bytes : Nat) (tag : UInt32) (mode : TransferMode) (work : Region → Work) :
    (∃ text after, transport.submit answers function buffer bytes tag mode work =
        .error (text, after) ∧ text ≠ unknownWrId ∧
          (after = transport ∨ after = transport.refusedPost)) ∨
      ∃ remoteKey, transport.submit answers function buffer bytes tag mode work =
        .ok ({ id := transport.nextRequestId, internal := answers.address }, remoteKey,
          transport.acceptedPost answers.address tag mode (work transport.regions)) := by
  by_cases empty : buffer = 0 ∨ bytes = 0
  · left
    refine ⟨"Cannot register an empty buffer", transport, ?_, by decide, Or.inl rfl⟩
    simp [submit, registerMemory, empty]
  · cases registration : answers.registration with
    | error reason =>
        left
        refine ⟨"ibv_reg_mr failed: " ++ reason, transport, ?_, append_ne (by decide), Or.inl rfl⟩
        simp [submit, registerMemory, empty, registration]
    | ok remoteKey =>
        by_cases refused : answers.postStatus ≠ 0
        · left
          refine ⟨function ++ " failed with code " ++ toString answers.postStatus,
            transport.refusedPost, ?_, ?_, Or.inr rfl⟩
          · have restored : Function.update transport.heap answers.address none =
                transport.heap := by
              rw [← fresh.2, Function.update_eq_self]
            simp [submit, registerMemory, empty, registration, newRequest, refused, refusedPost,
              List.insert_of_not_mem absent, restored]
          · rw [String.append_assoc]
            exact append_ne verbs
        · right
          refine ⟨remoteKey, ?_⟩
          simp [submit, registerMemory, empty, registration, newRequest, not_ne_iff.mp refused,
            acceptedPost, List.insert_of_not_mem absent]

theorem Sound.refusedPost (sound : Sound inHand transport) :
    Sound inHand transport.refusedPost := by
  have numbered := sound.numbered
  have other : ∀ id, id ≠ transport.nextRequestId →
      story transport.refusedPost.trace id = story transport.trace id := by
    intro id different
    simp [VerbsTransport.refusedPost, story, Event.concerns, numbered, different.symm]
  have own : story transport.refusedPost.trace transport.nextRequestId =
      [.regMr transport.nextRequestId, .newState transport.nextRequestId] ++
        [.deregMr transport.nextRequestId, .deleteState transport.nextRequestId] := by
    have unborn := sound.unborn _ (Or.inr (le_refl _))
    rw [VerbsTransport.refusedPost, story_append, unborn]
    simp [story, Event.concerns, numbered]
  constructor
  case numbered => exact congrArg (· + 1) numbered
  case first => exact Nat.succ_pos _
  case live =>
    intro address state found
    have before := sound.live address state found
    exact before.mono (fun _ member _ => member) (fun _ member _ => member)
      (other _ (Nat.ne_of_lt before.below)) (Nat.le_succ _)
  case released =>
    intro id positive below gone
    by_cases last : id = transport.nextRequestId
    · subst last
      rw [own]
      refine ⟨by simp, by simp, by simp, by simp, ?_⟩
      exact Orderly.release (Orderly.of_unregistered (by simp)) (by simp)
    · rw [other id last]
      have earlier : id < transport.nextRequestId + 1 := below
      exact sound.released id positive (by omega) gone
  case unborn =>
    intro id beyond
    have first := sound.first
    have later : id = 0 ∨ transport.nextRequestId + 1 ≤ id := beyond
    rw [other id (by omega)]
    exact sound.unborn id (by omega)
  case owned => exact sound.owned
  case pendingNodup => exact sound.pendingNodup
  case distinct => exact sound.distinct
  case claimed => exact sound.claimed
  case apart => exact sound.apart
  case sendsNext => exact sound.sendsNext
  case receivesPrevious => exact sound.receivesPrevious

theorem Sound.acceptedPost (sound : Sound inHand transport) {address : Address} {tag : UInt32}
    {mode : TransferMode} {work : Work} (notNull : address ≠ 0)
    (free : transport.heap address = none) (next : work.kind = .send → transport.qpNext = true)
    (previous : work.kind = .receive → transport.qpPrev = true) :
    Sound inHand (transport.acceptedPost address tag mode work) := by
  have numbered := sound.numbered
  have other : ∀ id, id ≠ transport.nextRequestId →
      story (transport.acceptedPost address tag mode work).trace id =
        story transport.trace id := by
    intro id different
    simp [VerbsTransport.acceptedPost, story, Event.concerns, numbered, different.symm]
  have own : story (transport.acceptedPost address tag mode work).trace transport.nextRequestId =
      opened transport.nextRequestId work.kind := by
    have unborn := sound.unborn _ (Or.inr (le_refl _))
    rw [VerbsTransport.acceptedPost, story_append, unborn]
    simp [story, Event.concerns, numbered, opened]
  have unused : address ∉ claims inHand transport.posted := by
    intro claim
    obtain ⟨state, found, -⟩ := sound.claimed address claim
    simp [free] at found
  have moved : (claims inHand (transport.acceptedPost address tag mode work).posted).Perm
      (address :: claims inHand transport.posted) := by
    simp only [claims, VerbsTransport.acceptedPost, List.map_append, List.map_cons, List.map_nil,
      List.append_assoc, List.cons_append, List.nil_append]
    exact List.perm_middle
  have earlierOf : ∀ {held state}, transport.heap held = some state → held ≠ address := by
    rintro held state found rfl
    simp [free] at found
  constructor
  case numbered => exact congrArg (· + 1) numbered
  case first => exact Nat.succ_pos _
  case live =>
    intro held state found
    rcases update_eq_some found with ⟨rfl, stateEq⟩ | ⟨-, old⟩
    · obtain rfl := Option.some.inj stateEq
      refine ⟨notNull, sound.first, Nat.lt_succ_self _, congrArg some numbered, ?_⟩
      refine .outstanding ⟨held, transport.nextRequestId, work⟩ ?_ rfl rfl rfl rfl rfl own
      simp [VerbsTransport.acceptedPost]
    · have before := sound.live held state old
      exact before.mono (fun _ member _ => List.mem_append_left _ member)
        (fun _ member _ => member) (other _ (Nat.ne_of_lt before.below)) (Nat.le_succ _)
  case owned =>
    intro held
    by_cases same : held = address
    · subst same
      simp [VerbsTransport.acceptedPost]
    · simp [VerbsTransport.acceptedPost, same, sound.owned]
  case pendingNodup =>
    refine List.nodup_cons.mpr ⟨?_, sound.pendingNodup⟩
    rw [sound.owned]
    simp [free]
  case distinct =>
    intro left right first second foundFirst foundSecond same
    rcases update_eq_some foundFirst with ⟨rfl, firstEq⟩ | ⟨-, oldFirst⟩
    · obtain rfl := Option.some.inj firstEq
      rcases update_eq_some foundSecond with ⟨rfl, -⟩ | ⟨-, oldSecond⟩
      · rfl
      · exact absurd same (Nat.ne_of_gt (sound.live _ _ oldSecond).below)
    · rcases update_eq_some foundSecond with ⟨rfl, secondEq⟩ | ⟨-, oldSecond⟩
      · obtain rfl := Option.some.inj secondEq
        exact absurd same (Nat.ne_of_lt (sound.live _ _ oldFirst).below)
      · exact sound.distinct _ _ _ _ oldFirst oldSecond same
  case claimed =>
    intro held claim
    rcases List.mem_cons.mp (moved.mem_iff.mp claim) with rfl | earlier
    · exact ⟨_, Function.update_self .., rfl⟩
    · obtain ⟨state, found, running⟩ := sound.claimed held earlier
      exact ⟨state, (Function.update_of_ne (earlierOf found) ..).trans found, running⟩
  case apart => exact moved.nodup_iff.mpr (List.nodup_cons.mpr ⟨unused, sound.apart⟩)
  case released =>
    intro id positive below gone
    have different : id ≠ transport.nextRequestId := by
      rintro rfl
      exact gone address _ (Function.update_self ..) rfl
    rw [other id different]
    have earlier : id < transport.nextRequestId + 1 := below
    apply sound.released id positive (by omega)
    intro held state found
    exact gone held state ((Function.update_of_ne (earlierOf found) ..).trans found)
  case unborn =>
    intro id beyond
    have first := sound.first
    have later : id = 0 ∨ transport.nextRequestId + 1 ≤ id := beyond
    rw [other id (by omega)]
    exact sound.unborn id (by omega)
  case sendsNext =>
    intro request member
    rcases List.mem_append.mp member with earlier | last
    · exact sound.sendsNext request earlier
    · obtain rfl := List.mem_singleton.mp last
      exact next
  case receivesPrevious =>
    intro request member
    rcases List.mem_append.mp member with earlier | last
    · exact sound.receivesPrevious request earlier
    · obtain rfl := List.mem_singleton.mp last
      exact previous

theorem Sound.consumed (sound : Sound inHand transport) {address : Address} {state : RequestState}
    (found : transport.heap address = some state) (ended : state.completed = true) :
    Sound inHand { transport with
      pendingRequests := transport.pendingRequests.erase address
      heap := Function.update transport.heap address none
      trace := transport.trace ++ [.deregMr state.id, .deleteState state.id] } := by
  have alive := sound.live _ _ found
  have other : ∀ id, id ≠ state.id →
      story (transport.trace ++ [.deregMr state.id, .deleteState state.id]) id =
        story transport.trace id := by
    intro id different
    simp [story, Event.concerns, different.symm]
  have old : ∀ {held current}, Function.update transport.heap address none held = some current →
      held ≠ address ∧ transport.heap held = some current := by
    intro held current foundHeld
    rcases update_eq_some foundHeld with ⟨-, noneEq⟩ | kept
    · simp at noneEq
    · exact kept
  constructor
  case live =>
    intro held current foundHeld
    obtain ⟨different, before⟩ := old foundHeld
    have apart : current.id ≠ state.id := by
      intro same
      exact different (sound.distinct _ _ _ _ before found same)
    exact (sound.live _ _ before).mono (fun _ member _ => member) (fun _ member _ => member)
      (other _ apart) (le_refl _)
  case owned =>
    intro held
    rw [sound.pendingNodup.mem_erase_iff, sound.owned]
    by_cases same : held = address
    · simp [same]
    · simp [same]
  case pendingNodup => exact sound.pendingNodup.erase _
  case distinct =>
    intro left right first second foundFirst foundSecond same
    exact sound.distinct _ _ _ _ (old foundFirst).2 (old foundSecond).2 same
  case claimed =>
    intro held claim
    obtain ⟨current, foundHeld, running⟩ := sound.claimed held claim
    have different : held ≠ address := by
      rintro rfl
      obtain rfl : current = state := by simpa [found] using foundHeld.symm
      simp [ended] at running
    exact ⟨current, (Function.update_of_ne different ..).trans foundHeld, running⟩
  case released =>
    intro id positive below gone
    by_cases same : id = state.id
    · subst same
      obtain ⟨completion, told⟩ : ∃ completion, story transport.trace state.id =
          opened state.id state.kind ++ [.pollWork state.id completion] := by
        cases alive.standing with
        | outstanding _ _ _ _ _ running => simp [ended] at running
        | polled _ _ _ running => simp [ended] at running
        | recorded completion _ _ told => exact ⟨completion, told⟩
      have full : story (transport.trace ++ [.deregMr state.id, .deleteState state.id]) state.id =
          (opened state.id state.kind ++ [.pollWork state.id completion]) ++
            [.deregMr state.id, .deleteState state.id] := by
        rw [story_append, told]
        simp [story, Event.concerns]
      rw [full]
      refine ⟨by simp [opened], by simp [opened], by simp [opened], by simp [opened], ?_⟩
      exact Orderly.release (Orderly.of_unregistered (by simp [opened])) (by simp [opened])
    · rw [other id same]
      apply sound.released id positive below
      intro held current foundHeld
      by_cases here : held = address
      · subst here
        obtain rfl : current = state := by simpa [found] using foundHeld.symm
        exact fun sameId => same sameId.symm
      · exact gone held current ((Function.update_of_ne here ..).trans foundHeld)
  case unborn =>
    intro id beyond
    have different : id ≠ state.id := by
      rcases beyond with rfl | beyond
      · exact Nat.ne_of_lt alive.positive
      · exact Nat.ne_of_gt (Nat.lt_of_lt_of_le alive.below beyond)
    rw [other id different]
    exact sound.unborn id beyond
  case numbered => exact sound.numbered
  case first => exact sound.first
  case apart => exact sound.apart
  case sendsNext => exact sound.sendsNext
  case receivesPrevious => exact sound.receivesPrevious

end Steps

end RingAllReduce.VerbsTransport
