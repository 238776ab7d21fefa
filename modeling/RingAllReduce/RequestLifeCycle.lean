import RingAllReduce.RequestStates

/-! The life cycle of the requests of a `VerbsTransport`: what its calls make of a sound state. -/

namespace RingAllReduce.VerbsTransport

/-- What polling leaves as it is: which requests are pending, and what they are. -/
structure Kept (before after : VerbsTransport) : Prop where
  pending : after.pendingRequests = before.pendingRequests
  states : ∀ address, (after.heap address).map RequestState.identity =
    (before.heap address).map RequestState.identity

theorem Kept.refl (transport : VerbsTransport) : Kept transport transport := ⟨rfl, fun _ => rfl⟩

theorem Kept.trans {first second third : VerbsTransport} (left : Kept first second)
    (right : Kept second third) : Kept first third :=
  ⟨right.pending.trans left.pending, fun address =>
    (right.states address).trans (left.states address)⟩

theorem Kept.found {before after : VerbsTransport} (kept : Kept before after) {address : Address}
    {state : RequestState} (found : before.heap address = some state) :
    ∃ later, after.heap address = some later ∧ later.identity = state.identity := by
  have same := kept.states address
  rw [found, Option.map_some, Option.map_eq_some_iff] at same
  exact same

theorem complete_spec {inHand : List WorkCompletion} {transport : VerbsTransport}
    (sound : Sound inHand transport) (offers : List Offer) :
    Sound (inHand ++ (transport.complete offers).1) (transport.complete offers).2 ∧
      Kept transport (transport.complete offers).2 := by
  induction offers generalizing inHand transport with
  | nil => simpa [complete] using ⟨sound, Kept.refl transport⟩
  | cons offer offers ih =>
      unfold complete
      split
      · exact ih sound
      · rename_i request posted taken
        obtain ⟨front, back, split, rfl⟩ := TagQueue.takeFirst_split taken
        have own : (WorkCompletion.mk request.wrId offer.status offer.opcode offer.withImm
          offer.immData).wrId = request.wrId := rfl
        obtain ⟨later, kept⟩ := ih (sound.take split own)
        refine ⟨?_, kept.pending, kept.states⟩
        simpa [List.append_assoc] using later

theorem complete_length_le (transport : VerbsTransport) (offers : List Offer) :
    (transport.complete offers).1.length ≤ offers.length := by
  induction offers generalizing transport with
  | nil => simp [complete]
  | cons offer offers ih =>
      unfold complete
      split
      · exact (ih _).trans (Nat.le_succ _)
      · simpa using ih _

theorem handleCompletion_spec {inHand : List WorkCompletion} {transport : VerbsTransport}
    {completion : WorkCompletion} (sound : Sound (completion :: inHand) transport) :
    ∃ after, transport.handleCompletion completion = .returned () after ∧ Sound inHand after ∧
      Kept transport after := by
  obtain ⟨state, found, handled, recorded⟩ := sound.record
  refine ⟨_, handled, recorded, rfl, ?_⟩
  intro address
  by_cases same : address = completion.wrId
  · subst same
    simp [found]
  · simp [same]

theorem handleAll_spec {transport : VerbsTransport} {completions : List WorkCompletion}
    (sound : Sound completions transport) :
    ∃ after, transport.handleAll completions = .returned () after ∧ Sound [] after ∧
      Kept transport after := by
  induction completions generalizing transport with
  | nil => exact ⟨transport, rfl, sound, Kept.refl transport⟩
  | cons completion completions ih =>
      obtain ⟨middle, handled, recorded, kept⟩ := handleCompletion_spec sound
      obtain ⟨after, rest, ended, keptRest⟩ := ih recorded
      refine ⟨after, ?_, ended, kept.trans keptRest⟩
      simp [handleAll, handled, CallResult.bind, rest]

theorem pollAvailable_spec {transport : VerbsTransport} (sound : Sound [] transport)
    (polls : List (List Offer)) (processed : Nat) :
    ∃ count after, transport.pollAvailable polls processed = .returned count after ∧
      Sound [] after ∧ Kept transport after := by
  induction polls generalizing transport processed with
  | nil => exact ⟨processed, transport, rfl, sound, Kept.refl transport⟩
  | cons offers polls ih =>
      obtain ⟨polled, kept⟩ := complete_spec sound (offers.take 16)
      rw [List.nil_append] at polled
      obtain ⟨middle, handled, recorded, keptMiddle⟩ := handleAll_spec polled
      unfold pollAvailable ibvPollCq
      split
      · rename_i found
        rw [found] at polled kept
        exact ⟨processed, _, rfl, polled, kept⟩
      · rename_i found
        rw [found] at handled kept keptMiddle
        obtain ⟨count, after, rest, ended, keptRest⟩ := ih recorded (processed + _)
        refine ⟨count, after, ?_, ended, (kept.trans keptMiddle).trans keptRest⟩
        rw [handled]
        exact rest

/-- How the loop of a wait ends: with its own request completed, or with its own work request
still posted. -/
inductive Waited (before : VerbsTransport) (address : Address) (state : RequestState) :
    CallResult Unit → Prop where
  | completed (after : VerbsTransport) (later : RequestState) (sound : Sound [] after)
      (kept : Kept before after) (found : after.heap address = some later)
      (same : later.identity = state.identity) (ended : later.completed = true) :
      Waited before address state (.returned () after)
  | outstanding (after : VerbsTransport) (later : RequestState) (sound : Sound [] after)
      (kept : Kept before after) (found : after.heap address = some later)
      (same : later.identity = state.identity) (running : later.completed = false) :
      Waited before address state (.waiting after)

theorem Waited.before {first second : VerbsTransport} {address : Address}
    {state later : RequestState} {result : CallResult Unit} (kept : Kept first second)
    (same : later.identity = state.identity) (waited : Waited second address later result) :
    Waited first address state result := by
  cases waited with
  | completed after final sound keptAfter found sameAfter ended =>
      exact .completed after final sound (kept.trans keptAfter) found (sameAfter.trans same) ended
  | outstanding after final sound keptAfter found sameAfter running =>
      exact .outstanding after final sound (kept.trans keptAfter) found (sameAfter.trans same)
        running

theorem waitLoop_spec {transport : VerbsTransport} (sound : Sound [] transport)
    {address : Address} {state : RequestState} (found : transport.heap address = some state)
    (polls : List (List Offer)) :
    Waited transport address state (transport.waitLoop address polls) := by
  induction polls generalizing transport state with
  | nil =>
      cases ended : state.completed with
      | true =>
          simp only [waitLoop, found, ended, if_true]
          exact .completed transport state sound (Kept.refl _) found rfl ended
      | false =>
          simp only [waitLoop, found, ended, Bool.false_eq_true, if_false]
          exact .outstanding transport state sound (Kept.refl _) found rfl ended
  | cons offers polls ih =>
      cases ended : state.completed with
      | true =>
          simp only [waitLoop, found, ended, if_true]
          exact .completed transport state sound (Kept.refl _) found rfl ended
      | false =>
          simp only [waitLoop, found, ended, Bool.false_eq_true, if_false, ibvPollCq]
          obtain ⟨polled, kept⟩ := complete_spec sound (offers.take 1)
          have few := complete_length_le transport (offers.take 1)
          rw [List.nil_append] at polled
          split
          · rename_i after answer
            rw [answer] at polled kept
            obtain ⟨later, foundLater, same⟩ := kept.found found
            exact (ih polled foundLater).before kept same
          · rename_i completion rest after answer
            rw [answer] at polled kept few
            obtain rfl : rest = [] := by
              have short : (completion :: rest).length ≤ 1 :=
                few.trans (by simp [List.length_take])
              simpa using short
            obtain ⟨middle, handled, recorded, keptMiddle⟩ := handleCompletion_spec polled
            have keptBoth := kept.trans keptMiddle
            obtain ⟨later, foundLater, same⟩ := keptBoth.found found
            rw [handled]
            exact (ih recorded foundLater).before keptBoth same

theorem waitLoop_cons (transport : VerbsTransport) (address : Address) (offers : List Offer)
    (polls : List (List Offer)) :
    transport.waitLoop address (offers :: polls) =
      match transport.heap address with
      | none => .undefined
      | some state =>
          if state.completed then .returned () transport
          else
            match transport.ibvPollCq 1 offers with
            | ([], transport) => transport.waitLoop address polls
            | (completion :: _, transport) =>
                (transport.handleCompletion completion).bind fun _ transport =>
                  transport.waitLoop address polls := rfl

theorem waitLoop_append {transport after : VerbsTransport} (sound : Sound [] transport)
    {address : Address} {polls : List (List Offer)}
    (waiting : transport.waitLoop address polls = .waiting after) (more : List (List Offer)) :
    transport.waitLoop address (polls ++ more) = after.waitLoop address more := by
  induction polls generalizing transport with
  | nil =>
      unfold waitLoop at waiting
      split at waiting
      · simp at waiting
      · split at waiting
        · simp at waiting
        · obtain rfl := CallResult.waiting.inj waiting
          rfl
  | cons offers polls ih =>
      rw [List.cons_append, waitLoop_cons]
      rw [waitLoop_cons] at waiting
      obtain ⟨polled, -⟩ := complete_spec sound (offers.take 1)
      have few := complete_length_le transport (offers.take 1)
      rw [List.nil_append] at polled
      split at waiting
      · simp at waiting
      · split at waiting
        · simp at waiting
        · rename_i running
          rw [if_neg running]
          split at waiting
          · rename_i answer
            rw [ibvPollCq] at answer
            rw [answer] at polled
            exact ih polled waiting
          · rename_i completion rest middle answer
            rw [ibvPollCq] at answer
            rw [answer] at polled few
            obtain rfl : rest = [] := by
              have short : (completion :: rest).length ≤ 1 :=
                few.trans (by simp [List.length_take])
              simpa using short
            obtain ⟨next, handled, recorded, -⟩ := handleCompletion_spec polled
            simp only [handled, CallResult.bind] at waiting ⊢
            exact ih recorded waiting

theorem waitLoop_own {transport : VerbsTransport} (sound : Sound [] transport)
    {address : Address} {state : RequestState} (found : transport.heap address = some state)
    (running : state.completed = false) {offer : Offer} (own : offer.id = state.id) :
    ∃ after, transport.waitLoop address [[offer]] = .returned () after := by
  cases (sound.live _ _ found).standing with
  | outstanding request member _ id =>
      have seen : TagQueue.lane WorkRequest.id offer.id transport.posted ≠ [] := by
        apply List.ne_nil_of_mem
        exact TagQueue.mem_lane.mpr ⟨member, id.trans own.symm⟩
      obtain ⟨first, later, laneEq⟩ := List.exists_cons_of_ne_nil seen
      obtain ⟨posted, taken⟩ := TagQueue.takeFirst_isSome laneEq
      obtain ⟨front, back, split, rfl⟩ := TagQueue.takeFirst_split taken
      have firstId : first.id = state.id := (TagQueue.takeFirst_lane taken).1.trans own
      have firstMember : first ∈ transport.posted := by simp [split]
      obtain ⟨held, foundHeld, heldId, -⟩ := sound.of_posted firstMember
      have firstOwn : first.wrId = address :=
        sound.distinct _ _ _ _ foundHeld found (heldId.symm.trans firstId)
      have same : (WorkCompletion.mk first.wrId offer.status offer.opcode offer.withImm
        offer.immData).wrId = first.wrId := rfl
      obtain ⟨recorded, -, handled, -⟩ := (sound.take split same).record
      rw [waitLoop_cons]
      simp only [found, running, Bool.false_eq_true, if_false, ibvPollCq, List.take_succ_cons,
        List.take_nil, complete, taken, handled, CallResult.bind]
      simp [waitLoop, ← firstOwn, RequestState.recorded]
  | polled completion member => simp at member
  | recorded _ ended => simp [running] at ended

theorem chooseMode_error {mode : TransferMode} {bytes : Nat} {text : String}
    (failed : chooseMode mode bytes = .error text) : text ≠ unknownWrId := by
  cases mode with
  | other code =>
      obtain rfl := Except.error.inj failed
      decide
  | _ => simp [chooseMode] at failed

theorem postSendNext_cases (transport : VerbsTransport) {answers : Answers}
    (fresh : transport.Fresh answers) (absent : answers.address ∉ transport.pendingRequests)
    (buffer : Address) (bytes : Nat) (tag : UInt32) (mode : TransferMode)
    (request : Option PgRequest) :
    (∃ text after, transport.postSendNext answers buffer bytes tag mode request =
        (.threw text after, request) ∧ text ≠ unknownWrId ∧
          (after = transport ∨ after = transport.refusedPost)) ∨
      ∃ chosen work, transport.postSendNext answers buffer bytes tag mode request =
        (.returned () (transport.acceptedPost answers.address tag chosen work),
          some { id := transport.nextRequestId, internal := answers.address }) ∧
        work.kind = .send ∧ transport.qpNext = true := by
  unfold postSendNext
  split
  · exact Or.inl ⟨_, transport, rfl, by decide, Or.inl rfl⟩
  · rename_i valid
    have queuePair : transport.qpNext = true := by
      cases next : transport.qpNext with
      | true => rfl
      | false => exact absurd (Or.inl next) valid
    split
    · exact Or.inl ⟨_, transport, rfl, by decide, Or.inl rfl⟩
    · cases choice : chooseMode mode bytes with
      | error text => exact Or.inl ⟨text, transport, rfl, chooseMode_error choice, Or.inl rfl⟩
      | ok chosen =>
          cases answers.descriptor with
          | none => exact Or.inl ⟨_, transport, rfl, by decide, Or.inl rfl⟩
          | some control =>
              simp only
              split
              · refine Or.inl ⟨_, transport, rfl, ?_, Or.inl rfl⟩
                simp only [String.append_assoc]
                exact append_ne (by decide)
              · rcases transport.submit_cases fresh absent
                    (show ¬ "ibv_post_send".toList <+: unknownWrId.toList by decide) buffer bytes
                    tag chosen (sendWork buffer bytes tag chosen control) with
                  ⟨text, after, failed, different, unchanged⟩ | ⟨remoteKey, accepted⟩
                · exact Or.inl ⟨text, after, by rw [failed], different, unchanged⟩
                · exact Or.inr ⟨chosen, _, by rw [accepted], sendWork_kind .., queuePair⟩

theorem postReceivePrevious_cases (transport : VerbsTransport) {answers : Answers}
    (fresh : transport.Fresh answers) (absent : answers.address ∉ transport.pendingRequests)
    (buffer : Address) (bytes : Nat) (tag : UInt32) (mode : TransferMode)
    (request : Option PgRequest) :
    (∃ text after, transport.postReceivePrevious answers buffer bytes tag mode request =
        (.threw text after, request) ∧ text ≠ unknownWrId ∧
          (after = transport ∨ after = transport.refusedPost)) ∨
      ∃ chosen work, work.kind = .receive ∧ transport.qpPrev = true ∧
        ((∃ text, transport.postReceivePrevious answers buffer bytes tag mode request =
          (.threw text (transport.acceptedPost answers.address tag chosen work),
            some { id := transport.nextRequestId, internal := answers.address }) ∧
          text ≠ unknownWrId) ∨
        ∃ control, transport.postReceivePrevious answers buffer bytes tag mode request =
          (.returned () { transport.acceptedPost answers.address tag chosen work with
              descriptors := transport.descriptors ++ [control] },
            some { id := transport.nextRequestId, internal := answers.address })) := by
  unfold postReceivePrevious
  split
  · exact Or.inl ⟨_, transport, rfl, by decide, Or.inl rfl⟩
  · rename_i valid
    have queuePair : transport.qpPrev = true := by
      cases previous : transport.qpPrev with
      | true => rfl
      | false => exact absurd (Or.inl previous) valid
    split
    · exact Or.inl ⟨_, transport, rfl, by decide, Or.inl rfl⟩
    · cases choice : chooseMode mode bytes with
      | error text => exact Or.inl ⟨text, transport, rfl, chooseMode_error choice, Or.inl rfl⟩
      | ok chosen =>
          simp only
          rcases transport.submit_cases fresh absent
              (show ¬ "ibv_post_recv".toList <+: unknownWrId.toList by decide) buffer bytes tag
              chosen (receiveWork buffer bytes chosen) with
            ⟨text, after, failed, different, unchanged⟩ | ⟨remoteKey, accepted⟩
          · exact Or.inl ⟨text, after, by rw [failed], different, unchanged⟩
          · refine Or.inr ⟨chosen, receiveWork buffer bytes chosen transport.regions, rfl, queuePair, ?_⟩
            rw [accepted]
            simp only
            split
            · exact Or.inr ⟨_, rfl⟩
            · exact Or.inl ⟨_, rfl, by decide⟩

/-- A call that ends does so in a state with `property`, and not for a completion of a request the
transport does not know. -/
def CallResult.Ends {Answer : Type} (property : VerbsTransport → Prop) :
    CallResult Answer → Prop
  | .returned _ transport => property transport
  | .threw error transport => error ≠ unknownWrId ∧ property transport
  | .waiting _ => True
  | .undefined => False

theorem CallResult.Ends.forget {Answer : Type} {property : VerbsTransport → Prop}
    {result : CallResult Answer} (ends : result.Ends property) : result.forget.Ends property := by
  cases result <;> exact ends

theorem CallResult.Ends.transport? {Answer : Type} {property : VerbsTransport → Prop}
    {result : CallResult Answer} (ends : result.Ends property) {after : VerbsTransport}
    (ended : result.transport? = some after) : property after := by
  cases result with
  | returned answer transport =>
      obtain rfl := Option.some.inj ended
      exact ends
  | threw error transport =>
      obtain rfl := Option.some.inj ended
      exact ends.2
  | waiting transport => simp [CallResult.transport?] at ended
  | undefined => exact ends.elim

def Operation.waitsFor : Operation → Option Address
  | .waitRequest _ request => request.map PgRequest.internal
  | _ => none

/-- What a call makes of a sound transport: every request but the `consumed` one stays what it
is. -/
structure Next (before : VerbsTransport) (consumed : Option Address) (after : VerbsTransport) :
    Prop where
  sound : Sound [] after
  survives : ∀ address state, before.heap address = some state → consumed ≠ some address →
    (after.heap address).map RequestState.identity = some state.identity

section Calls

variable {transport : VerbsTransport}

theorem Kept.next {after : VerbsTransport} (kept : Kept transport after) (sound : Sound [] after)
    (consumed : Option Address) : Next transport consumed after := by
  refine ⟨sound, ?_⟩
  intro address state found _
  rw [kept.states, found, Option.map_some]

theorem Sound.same (sound : Sound [] transport) (consumed : Option Address) :
    Next transport consumed transport :=
  (Kept.refl transport).next sound consumed

theorem Sound.absent (sound : Sound [] transport) {answers : Answers}
    (fresh : transport.Fresh answers) : answers.address ∉ transport.pendingRequests := by
  rw [sound.owned]
  simp [fresh.2]

theorem Sound.accepted (sound : Sound [] transport) {answers : Answers}
    (fresh : transport.Fresh answers) {tag : UInt32} {mode : TransferMode} {work : Work}
    (queuePair : work.kind = .send ∧ transport.qpNext = true ∨
      work.kind = .receive ∧ transport.qpPrev = true) :
    Next transport none (transport.acceptedPost answers.address tag mode work) := by
  constructor
  · apply sound.acceptedPost fresh.1 fresh.2
    · rcases queuePair with ⟨-, next⟩ | ⟨receive, -⟩
      · exact fun _ => next
      · simp [receive]
    · rcases queuePair with ⟨send, -⟩ | ⟨-, previous⟩
      · simp [send]
      · exact fun _ => previous
  · intro address state found _
    have different : address ≠ answers.address := by
      rintro rfl
      simp [fresh.2] at found
    simp [VerbsTransport.acceptedPost, different, found]

theorem Sound.refused (sound : Sound [] transport) {after : VerbsTransport}
    (unchanged : after = transport ∨ after = transport.refusedPost) :
    Next transport none after := by
  rcases unchanged with rfl | rfl
  · exact sound.same none
  · exact ⟨sound.refusedPost, fun _ _ found _ => congrArg _ found⟩

theorem Sound.postSendNext (sound : Sound [] transport) {answers : Answers}
    (fresh : transport.Fresh answers) (buffer : Address) (bytes : Nat) (tag : UInt32)
    (mode : TransferMode) (request : Option PgRequest) :
    (transport.postSendNext answers buffer bytes tag mode request).1.Ends
      (Next transport none) := by
  rcases transport.postSendNext_cases fresh (sound.absent fresh) buffer bytes tag mode request with
    ⟨text, after, posted, different, unchanged⟩ | ⟨chosen, work, posted, send, next⟩
  · rw [posted]
    exact ⟨different, sound.refused unchanged⟩
  · rw [posted]
    exact sound.accepted fresh (Or.inl ⟨send, next⟩)

theorem Sound.postReceivePrevious (sound : Sound [] transport) {answers : Answers}
    (fresh : transport.Fresh answers) (buffer : Address) (bytes : Nat) (tag : UInt32)
    (mode : TransferMode) (request : Option PgRequest) :
    (transport.postReceivePrevious answers buffer bytes tag mode request).1.Ends
      (Next transport none) := by
  rcases transport.postReceivePrevious_cases fresh (sound.absent fresh) buffer bytes tag mode
    request with
    ⟨text, after, posted, different, unchanged⟩ | ⟨chosen, work, receive, previous, accepted⟩
  · rw [posted]
    exact ⟨different, sound.refused unchanged⟩
  · have next := @Sound.accepted _ sound _ fresh tag chosen work (Or.inr ⟨receive, previous⟩)
    rcases accepted with ⟨text, posted, different⟩ | ⟨control, posted⟩
    · rw [posted]
      exact ⟨different, next⟩
    · rw [posted]
      have sound' := next.sound
      exact ⟨⟨sound'.numbered, sound'.first, sound'.live, sound'.owned, sound'.pendingNodup,
        sound'.distinct, sound'.claimed, sound'.apart, sound'.released, sound'.unborn,
        sound'.sendsNext, sound'.receivesPrevious⟩, next.survives⟩

theorem Sound.progress (sound : Sound [] transport) (polls : List (List Offer)) :
    (transport.progress polls).Ends (Next transport none) := by
  obtain ⟨count, after, polled, ended, kept⟩ := pollAvailable_spec sound polls 0
  simpa [VerbsTransport.progress, polled, CallResult.bind, CallResult.Ends]
    using kept.next ended none

theorem Sound.testRequest (sound : Sound [] transport) (polls : List (List Offer))
    (request : Option PgRequest) (asked : Bool) :
    (transport.testRequest polls request asked).Ends (Next transport none) := by
  cases request with
  | none => exact sound.same none
  | some handle =>
      simp only [VerbsTransport.testRequest]
      split
      · exact sound.same none
      · split
        · exact sound.same none
        · rename_i pending
          obtain ⟨state, found⟩ := (sound.owned _).mp (not_not.mp pending)
          simp only [found]
          split
          · simpa [CallResult.bind, CallResult.Ends, found] using sound.same none
          · obtain ⟨count, after, polled, ended, kept⟩ := pollAvailable_spec sound polls 0
            obtain ⟨later, foundLater, -⟩ := kept.found found
            simpa [polled, CallResult.bind, CallResult.Ends, foundLater]
              using kept.next ended none

inductive Consumed (before : VerbsTransport) (request : PgRequest) (state : RequestState)
    (polls : List (List Offer)) : CallResult (Int × Option PgRequest) → Prop where
  | consumed (middle after : VerbsTransport) (later : RequestState) (sound : Sound [] middle)
      (kept : Kept before middle) (found : middle.heap request.internal = some later)
      (same : later.identity = state.identity) (ended : later.completed = true)
      (afterEq : after = { middle with
        pendingRequests := middle.pendingRequests.erase request.internal
        heap := Function.update middle.heap request.internal none
        trace := middle.trace ++ [.deregMr later.id, .deleteState later.id] }) :
      Consumed before request state polls
        (.returned (later.status, some { id := 0, internal := 0 }) after)
  | outstanding (after : VerbsTransport) (later : RequestState) (sound : Sound [] after)
      (kept : Kept before after) (found : after.heap request.internal = some later)
      (same : later.identity = state.identity) (running : later.completed = false)
      (looped : before.waitLoop request.internal polls = .waiting after) :
      Consumed before request state polls (.waiting after)

theorem waitRequest_spec (sound : Sound [] transport) {request : PgRequest} {state : RequestState}
    (found : transport.heap request.internal = some state) (polls : List (List Offer)) :
    Consumed transport request state polls (transport.waitRequest polls (some request)) := by
  have notNull := (sound.live _ _ found).notNull
  have pending := (sound.owned _).mpr ⟨state, found⟩
  simp only [waitRequest, notNull, if_false, pending, not_true]
  have waited := waitLoop_spec sound found polls
  cases result : transport.waitLoop request.internal polls with
  | returned _ middle =>
      rw [result] at waited
      cases waited with
      | completed _ later soundLater kept foundLater same ended =>
          have region := (soundLater.live _ _ foundLater).region
          simp only [CallResult.bind, foundLater, consumeRequest, release, Option.map_some, region,
            Option.toList_some, List.map_cons, List.map_nil, List.append_assoc, List.cons_append,
            List.nil_append]
          exact .consumed middle _ later soundLater kept foundLater same ended rfl
  | waiting after =>
      rw [result] at waited
      cases waited with
      | outstanding _ later soundLater kept foundLater same running =>
          exact .outstanding after later soundLater kept foundLater same running result
  | threw _ _ =>
      rw [result] at waited
      cases waited
  | undefined =>
      rw [result] at waited
      cases waited

theorem Sound.waitRequest (sound : Sound [] transport) (polls : List (List Offer))
    (request : Option PgRequest) :
    (transport.waitRequest polls request).Ends
      (Next transport (request.map PgRequest.internal)) := by
  cases request with
  | none => exact sound.same none
  | some handle =>
      by_cases pending : handle.internal ∈ transport.pendingRequests
      · obtain ⟨state, found⟩ := (sound.owned _).mp pending
        have consumed := waitRequest_spec sound found polls
        generalize transport.waitRequest polls (some handle) = result at consumed
        cases consumed with
        | consumed middle after later soundMiddle kept foundLater same ended afterEq =>
            subst afterEq
            refine ⟨soundMiddle.consumed foundLater ended, ?_⟩
            intro address held foundHeld other
            have different : address ≠ handle.internal := by
              rintro rfl
              exact other rfl
            simpa [different, foundHeld] using kept.states address
        | outstanding => trivial
      · simp only [VerbsTransport.waitRequest, pending, not_false_eq_true, if_true, ite_self]
        exact sound.same _

theorem Sound.call (sound : Sound [] transport) {operation : Operation}
    (feasible : transport.Feasible operation) :
    (transport.call operation).Ends (Next transport operation.waitsFor) := by
  cases operation with
  | postReceivePrevious answers buffer bytes tag mode request =>
      exact sound.postReceivePrevious feasible buffer bytes tag mode request
  | postSendNext answers buffer bytes tag mode request =>
      exact sound.postSendNext feasible buffer bytes tag mode request
  | testRequest polls request asked => exact (sound.testRequest polls request asked).forget
  | waitRequest polls request => exact (sound.waitRequest polls request).forget
  | progress polls => exact (sound.progress polls).forget

end Calls

theorem unused_sound (qpNext qpPrev : Bool) (nextSocket previousSocket : Int) :
    Sound [] (unused qpNext qpPrev nextSocket previousSocket) := by
  constructor <;> simp [unused, claims, story]
  omega

def Reachable (qpNext qpPrev : Bool) (nextSocket previousSocket : Int)
    (transport : VerbsTransport) : Prop :=
  Runs.Reachable Step (unused qpNext qpPrev nextSocket previousSocket) transport

theorem Reachable.sound {qpNext qpPrev : Bool} {nextSocket previousSocket : Int}
    {transport : VerbsTransport}
    (reachable : Reachable qpNext qpPrev nextSocket previousSocket transport) :
    Sound [] transport := by
  refine Runs.Reachable.invariant (Sound []) reachable (unused_sound ..) ?_
  rintro before after sound ⟨operation, feasible, ended⟩
  exact ((sound.call feasible).transport? ended).sound

/-- The one completion polled for a request. -/
def Answered (transport : VerbsTransport) (id : Nat) (completion : WorkCompletion) : Prop :=
  ∀ other, .pollWork id other ∈ transport.trace ↔ other = completion

/-- A pending request is either still on its queue pair, or its completion is recorded in it. -/
def Tracked (transport : VerbsTransport) (address : Address) (state : RequestState) : Prop :=
  (state.completed = false ∧
      (∃ request ∈ transport.posted, request.wrId = address ∧ request.id = state.id) ∧
      ∀ completion, .pollWork state.id completion ∉ transport.trace) ∨
    ∃ completion, state.completed = true ∧ Answered transport state.id completion ∧
      state.status = verdict state completion

theorem mem_trace_iff {transport : VerbsTransport} {id : Nat} {completion : WorkCompletion} :
    .pollWork id completion ∈ transport.trace ↔
      .pollWork id completion ∈ story transport.trace id := by
  simp [mem_story, Event.concerns]

theorem Sound.tracked {transport : VerbsTransport} (sound : Sound [] transport)
    {address : Address} {state : RequestState} (found : transport.heap address = some state) :
    Tracked transport address state := by
  cases (sound.live _ _ found).standing with
  | outstanding request member own id _ running _ told =>
      refine Or.inl ⟨running, ⟨request, member, own, id⟩, ?_⟩
      intro completion
      rw [mem_trace_iff, told]
      simp [opened]
  | polled _ member => simp at member
  | recorded completion ended status told =>
      refine Or.inr ⟨completion, ended, ?_, status⟩
      intro other
      rw [mem_trace_iff, told]
      simp [opened]

/-- What a wait for a pending request promises. It returns with the verdict on the request's own
completion, or that completion has not been polled yet and is all the wait needs. -/
def WaitContract (before : VerbsTransport) (request : PgRequest) (state : RequestState)
    (polls : List (List Offer)) : CallResult (Int × Option PgRequest) → Prop
  | .returned (status, handle) after =>
      (∃ completion, Answered after request.id completion ∧
        status = if Succeeded state completion then 0 else -1) ∧
      handle = some { id := 0, internal := 0 } ∧
      after.pendingRequests = before.pendingRequests.erase request.internal ∧
      after.heap request.internal = none ∧
      ∀ other, other ≠ request.internal →
        (after.heap other).map RequestState.identity =
          (before.heap other).map RequestState.identity
  | .waiting after =>
      (∃ work ∈ after.posted, work.wrId = request.internal ∧ work.id = request.id) ∧
      ∀ offer, offer.id = request.id → ∃ answer final,
        before.waitRequest (polls ++ [[offer]]) (some request) = .returned answer final
  | .threw _ _ => False
  | .undefined => False

theorem Sound.waitContract {transport : VerbsTransport} (sound : Sound [] transport)
    {request : PgRequest} {state : RequestState}
    (found : transport.heap request.internal = some state) (current : state.id = request.id)
    (polls : List (List Offer)) :
    WaitContract transport request state polls
      (transport.waitRequest polls (some request)) := by
  have consumed := waitRequest_spec sound found polls
  cases result : transport.waitRequest polls (some request) with
  | returned answer after =>
      rw [result] at consumed
      cases consumed with
      | consumed middle _ later soundMiddle kept foundLater same ended afterEq =>
          have laterId : later.id = request.id :=
            (congrArg RequestState.id same).trans current
          obtain ⟨completion, -, answered, status⟩ :
              ∃ completion, later.completed = true ∧ Answered middle later.id completion ∧
                later.status = verdict later completion := by
            rcases soundMiddle.tracked foundLater with ⟨running, -⟩ | recorded
            · simp [ended] at running
            · exact recorded
          subst afterEq
          refine ⟨⟨completion, ?_, ?_⟩, rfl, ?_, Function.update_self .., ?_⟩
          · intro other
            rw [← laterId, ← answered other]
            simp
          · rw [status, verdict_identity same]
            rfl
          · rw [kept.pending]
          · intro other different
            rw [← kept.states other]
            simp [different]
  | waiting after =>
      rw [result] at consumed
      cases consumed with
      | outstanding _ later soundLater kept foundLater same running looped =>
          have laterId : later.id = request.id :=
            (congrArg RequestState.id same).trans current
          refine ⟨?_, ?_⟩
          · rcases soundLater.tracked foundLater with ⟨-, posted, -⟩ | ⟨_, ended, -⟩
            · rwa [laterId] at posted
            · simp [running] at ended
          · intro offer own
            obtain ⟨final, returned⟩ := waitLoop_own soundLater foundLater running
              (own.trans laterId.symm)
            rw [← waitLoop_append sound looped] at returned
            have extended := waitRequest_spec sound found (polls ++ [[offer]])
            generalize transport.waitRequest (polls ++ [[offer]]) (some request) = answer
              at extended
            cases extended with
            | consumed => exact ⟨_, _, rfl⟩
            | outstanding _ _ _ _ _ _ _ again => simp [returned] at again
  | threw _ _ =>
      rw [result] at consumed
      cases consumed
  | undefined =>
      rw [result] at consumed
      cases consumed

/-- No call meets a completion of a request it does not know or a state that was deleted, every
completion is kept by its own request, only its own wait ends a request, and that wait answers
for the request's own completion. -/
theorem request_life_cycle {qpNext qpPrev : Bool} {nextSocket previousSocket : Int}
    {transport : VerbsTransport}
    (reachable : Reachable qpNext qpPrev nextSocket previousSocket transport) :
    (∀ operation, transport.Feasible operation → transport.call operation ≠ .undefined ∧
      ∀ after, transport.call operation ≠ .threw unknownWrId after) ∧
    (∀ address, address ∈ transport.pendingRequests ↔ ∃ state,
      transport.heap address = some state ∧ Tracked transport address state) ∧
    (∀ operation after address state, transport.Feasible operation →
      (transport.call operation).transport? = some after →
      transport.heap address = some state → operation.waitsFor ≠ some address →
      (after.heap address).map RequestState.identity = some state.identity) ∧
    ∀ request state polls, transport.heap request.internal = some state → state.id = request.id →
      WaitContract transport request state polls
        (transport.waitRequest polls (some request)) := by
  have sound := reachable.sound
  refine ⟨?_, ?_, ?_, ?_⟩
  · intro operation feasible
    have ends := sound.call feasible
    constructor
    · intro undefined
      simp [undefined, CallResult.Ends] at ends
    · intro after unknown
      simp [unknown, CallResult.Ends] at ends
  · intro address
    rw [sound.owned]
    constructor
    · rintro ⟨state, found⟩
      exact ⟨state, found, sound.tracked found⟩
    · rintro ⟨state, found, -⟩
      exact ⟨state, found⟩
  · intro operation after address state feasible ended found other
    exact ((sound.call feasible).transport? ended).survives address state found other
  · intro request state polls found current
    exact sound.waitContract found current polls

/-- A receive of one integer that is on its queue pair. -/
def oneReceive : VerbsTransport :=
  { (unused true true 3 4).acceptedPost 7 5 .eager (receiveWork 8 4 .eager 1) with
    descriptors := [⟨kControlMagic, 5, 8, 9, 4, 1, 0⟩] }

theorem oneReceive_reachable : Reachable true true 3 4 oneReceive := by
  apply Relation.ReflTransGen.single
  refine ⟨.postReceivePrevious ⟨none, .ok 9, 7, 0, true⟩ 8 4 5 .auto (some ⟨0, 0⟩), ?_, rfl⟩
  exact ⟨by decide, rfl⟩

theorem request_life_cycle_receive :
    Reachable true true 3 4 oneReceive ∧ oneReceive.pendingRequests = [7] ∧
      WaitContract oneReceive ⟨1, 7⟩ ⟨.receive, 1, 5, .eager, some 1, false, 0⟩
        [[⟨1, 0, .recv, true, htonl 5⟩]]
        (oneReceive.waitRequest [[⟨1, 0, .recv, true, htonl 5⟩]] (some ⟨1, 7⟩)) := by
  exact ⟨oneReceive_reachable, rfl, (request_life_cycle oneReceive_reachable).2.2.2 ⟨1, 7⟩ _ _ rfl rfl⟩

end RingAllReduce.VerbsTransport
