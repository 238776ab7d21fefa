import RingAllReduce.EndpointShown
import RingAllReduce.VerbsRefinement

/-!
The ring of endpoints refines the ring of Verbs queues: request for request, step by step. What is
proved of the collectives over the one then holds over the other.
-/

namespace RingAllReduce.EndpointRing

open Exchange Rotation VerbsTransport
open VerbsRing (Handle Fabric FabricSound SendWork RecvWork Descriptor Postable Mismatch VerbsWorld
  VerbsReachable VerbsInvariant Uniform verbsTransport idleFabric unpolledSends unpolledRecvs)

variable {Value : Type} {platform : Platform} {worldSize rank : Nat} {fabric fabric' : Fabric}
  {ring ring' : Ring} {post : Post} {mode : TransferMode} {room : Nat → Bool} {memory : Memory Value}

/-! What the posts of an endpoint come to where they succeed. -/

section Posts

variable (platform ring rank post mode)

def Ring.addRecv : Ring :=
  let endpoint := ring.endpoints rank
  let address := platform.allocate endpoint
  let buffer := platform.place rank post
  let work := receiveWork buffer post.bytes mode endpoint.regions
  let control := announcement buffer post.bytes post.tag mode
    (platform.remoteKey rank endpoint.regions)
  { ring with
    endpoints := Function.update ring.endpoints rank
      { endpoint.acceptedPost address post.tag mode work with
        descriptors := endpoint.descriptors ++ [control] }
    control := Function.update ring.control rank (ring.control rank ++ [control])
    recvs := Function.update ring.recvs rank (ring.recvs rank ++
      [.new post ⟨address, endpoint.nextRequestId, work⟩]) }

/-- After a descriptor is read from `reader` and a send is posted. -/
def Ring.addSend (reader : Nat) (control : ControlMessage) (unread : List ControlMessage) : Ring :=
  let endpoint := ring.endpoints rank
  let address := platform.allocate endpoint
  let work := sendWork (platform.place rank post) post.bytes post.tag mode control endpoint.regions
  { ring with
    endpoints := Function.update ring.endpoints rank
      (endpoint.acceptedPost address post.tag mode work)
    control := Function.update ring.control reader unread
    sends := Function.update ring.sends rank (ring.sends rank ++
      [.new post ⟨address, endpoint.nextRequestId, work⟩]) }

def Ring.newRequest : PgRequest :=
  { id := (ring.endpoints rank).nextRequestId, internal := platform.allocate (ring.endpoints rank) }

end Posts

section Posts

variable {state : Handle → Option VerbsTransport.RequestState} {entry : Handle → Option WorkRequest}
  {waited queued : RequestKind → Nat}
  (books : Books state entry waited queued (ring.endpoints rank)) (postable : Postable post mode)

include books postable

theorem postRecv_eq (hasRoom : room (queued .receive) = true) :
    postRecv platform room rank post ring memory =
      .done (ring.addRecv platform rank post mode, memory) (some (ring.newRequest platform rank)) := by
  obtain ⟨positive, small, chosen⟩ := postable
  obtain ⟨notNull, free⟩ := platform.allocated _ books.sound
  have absent : platform.allocate (ring.endpoints rank) ∉ (ring.endpoints rank).pendingRequests := by
    rw [books.sound.owned]
    simp [free]
  have status : (answers platform room rank (ring.endpoints rank) .receive none).postStatus = 0 := by
    simp [answers, books.count, hasRoom]
  have posted := postReceivePrevious_accepted books.queuePairs.2 books.sockets.2
    (platform.notNull rank post.call (post.buffer, post.start)) positive small chosen rfl status absent
    rfl post.tag
  rw [postRecv, posted, Ring.finish]
  simp only [answers]
  rw [posted_recv _ _ _ rfl]
  rfl

theorem postSend_eq (hasRoom : room (queued .send) = true) {control : ControlMessage}
    {unread : List ControlMessage}
    (available : ring.control (next worldSize rank) = control :: unread)
    (matched : ¬ (control.magic ≠ kControlMagic ∨ control.tag ≠ post.tag ∨
      control.bytes.toNat ≠ post.bytes ∨ control.mode ≠ mode.code)) :
    postSend platform room worldSize rank post ring memory =
      .done (ring.addSend platform rank post mode (next worldSize rank) control unread, memory)
        (some (ring.newRequest platform rank)) := by
  obtain ⟨positive, small, chosen⟩ := postable
  obtain ⟨notNull, free⟩ := platform.allocated _ books.sound
  have absent : platform.allocate (ring.endpoints rank) ∉ (ring.endpoints rank).pendingRequests := by
    rw [books.sound.owned]
    simp [free]
  have status : (answers platform room rank (ring.endpoints rank) .send (some control)).postStatus =
      0 := by
    simp [answers, books.count, hasRoom]
  have asked : reads (ring.endpoints rank) post = true := by
    simp [reads, books.queuePairs.1, books.sockets.1, small, chosen, Except.isOk, Except.toBool]
    omega
  have posted := postSendNext_accepted books.queuePairs.1 books.sockets.1
    (platform.notNull rank post.call (post.buffer, post.start)) positive small chosen rfl status absent
    rfl matched
  simp only [postSend, asked, if_true, available]
  have moved := @posted_send mode
    { ring with control := Function.update ring.control (next worldSize rank) unread } rank post
    (platform.allocate (ring.endpoints rank)) post.tag _ (sendWork_kind (platform.place rank post)
      post.bytes post.tag mode control (ring.endpoints rank).regions)
  rw [posted, Ring.finish]
  exact congrArg (fun after => Outcome.done (after, memory) _) moved

theorem postSend_blocked (none : ring.control (next worldSize rank) = []) :
    postSend platform room worldSize rank post ring memory = .blocked := by
  obtain ⟨positive, small, chosen⟩ := postable
  have asked : reads (ring.endpoints rank) post = true := by
    simp [reads, books.queuePairs.1, books.sockets.1, small, chosen, Except.isOk, Except.toBool]
    omega
  simp only [postSend, asked, if_true, none]

end Posts

/-! The books of a rank after a post. -/

section Tables

theorem entry_addRecv (rank : Nat) : (ring.addRecv platform rank post mode).entry rank =
    Function.update (ring.entry rank) (.receive, (ring.recvs rank).length)
      (some ⟨platform.allocate (ring.endpoints rank), (ring.endpoints rank).nextRequestId,
        receiveWork (platform.place rank post) post.bytes mode (ring.endpoints rank).regions⟩) := by
  simp only [Ring.entry, Ring.addRecv, Function.update_self, column_snoc, table_update_recv]
  rfl

theorem entry_addSend (rank reader : Nat) (control : ControlMessage) (unread : List ControlMessage) :
    (ring.addSend platform rank post mode reader control unread).entry rank =
      Function.update (ring.entry rank) (.send, (ring.sends rank).length)
        (some ⟨platform.allocate (ring.endpoints rank), (ring.endpoints rank).nextRequestId,
          sendWork (platform.place rank post) post.bytes post.tag mode control
            (ring.endpoints rank).regions⟩) := by
  simp only [Ring.entry, Ring.addSend, Function.update_self, column_snoc, table_update_send]
  rfl

theorem stateOf_addRecv (rank : Nat) (work : RecvWork) : (fabric.addRecv rank work).stateOf rank =
    Function.update (fabric.stateOf rank) (.receive, (fabric.recvs rank).length)
      (some work.state) := by
  simp only [stateOf_eq, Fabric.addRecv, Function.update_self, column_snoc, table_update_recv]

theorem stateOf_addSend (rank : Nat) (work : SendWork) : (fabric.addSend rank work).stateOf rank =
    Function.update (fabric.stateOf rank) (.send, (fabric.sends rank).length) (some work.state) := by
  simp only [stateOf_eq, Fabric.addSend, Function.update_self, column_snoc, table_update_send]

theorem unpolled_addRecv (rank : Nat) {work : RecvWork} (running : work.state.completed = false) :
    unpolled (fabric.addRecv rank work) rank = Function.update (unpolled fabric rank) .receive
      (unpolled fabric rank .receive + 1) := by
  funext kind
  cases kind <;> simp [unpolled, unpolledRecvs, Fabric.addRecv, running]

theorem unpolled_addSend (rank : Nat) {work : SendWork} (running : work.state.completed = false) :
    unpolled (fabric.addSend rank work) rank = Function.update (unpolled fabric rank) .send
      (unpolled fabric rank .send + 1) := by
  funext kind
  cases kind <;> simp [unpolled, unpolledSends, Fabric.addSend, running]

theorem kept_addRecv (handle : Handle) (request : WorkRequest)
    (found : ring.entry rank handle = some request) :
    (ring.addRecv platform rank post mode).entry rank handle = some request := by
  rw [entry_addRecv, Function.update_of_ne]
  · exact found
  · rintro rfl
    simp [Ring.entry, table, column] at found

theorem kept_addSend (reader : Nat) (control : ControlMessage) (unread : List ControlMessage)
    (handle : Handle) (request : WorkRequest) (found : ring.entry rank handle = some request) :
    (ring.addSend platform rank post mode reader control unread).entry rank handle =
      some request := by
  rw [entry_addSend, Function.update_of_ne]
  · exact found
  · rintro rfl
    simp [Ring.entry, table, column] at found

variable {waited : RequestKind → Nat} (shown : Shown platform worldSize fabric ring)
  (books : Books (fabric.stateOf rank) (ring.entry rank) waited (unpolled fabric rank)
    (ring.endpoints rank))

include shown books

theorem books_addRecv (few : waited .receive ≤ (fabric.recvs rank).length) :
    Books ((fabric.addRecv rank (fabric.receiveWork rank post mode)).stateOf rank)
      ((ring.addRecv platform rank post mode).entry rank) waited
      (unpolled (fabric.addRecv rank (fabric.receiveWork rank post mode)) rank)
      ((ring.addRecv platform rank post mode).endpoints rank) := by
  obtain ⟨notNull, free⟩ := platform.allocated _ books.sound
  have absent : fabric.stateOf rank (.receive, (fabric.recvs rank).length) = none := by
    simp [Fabric.stateOf]
  rw [stateOf_addRecv, entry_addRecv, unpolled_addRecv rank rfl, (shown.lengths rank).2]
  simp only [Ring.addRecv, Function.update_self]
  exact (books.accept absent few notNull free rfl rfl).wrote _

theorem books_addSend (few : waited .send ≤ (fabric.sends rank).length) (reader : Nat) (control : Descriptor) (unread : List Descriptor)
    (descriptor : ControlMessage) (unseen : List ControlMessage) :
    Books (((fabric.read reader unread).addSend rank
          ((fabric.read reader unread).sendWork rank post mode control)).stateOf rank)
      ((ring.addSend platform rank post mode reader descriptor unseen).entry rank) waited
      (unpolled ((fabric.read reader unread).addSend rank
        ((fabric.read reader unread).sendWork rank post mode control)) rank)
      ((ring.addSend platform rank post mode reader descriptor unseen).endpoints rank) := by
  obtain ⟨notNull, free⟩ := platform.allocated _ books.sound
  have absent : fabric.stateOf rank (.send, (fabric.sends rank).length) = none := by
    simp [Fabric.stateOf]
  rw [stateOf_addSend, entry_addSend, unpolled_addSend rank rfl, (shown.lengths rank).1]
  simp only [Ring.addSend, Function.update_self]
  exact books.accept absent few notNull free (sendWork_kind ..) rfl

end Tables

section Polls

variable {handle : Handle} {completion : WorkCompletion} {waiting : List (Handle × WorkCompletion)}
  {held : VerbsTransport.RequestState}

/-- What is on a completion queue is of a request that is not complete. -/
theorem queue_state (sound : FabricSound worldSize fabric) (bound : rank < worldSize)
    (queue : fabric.cq rank = (handle, completion) :: waiting) :
    ∃ held, fabric.stateOf rank handle = some held ∧ held.completed = false := by
  have served := sound.ranks rank bound
  rw [queue] at served
  obtain ⟨kind, place⟩ := handle
  cases kind with
  | send =>
      obtain ⟨work, found, -, running⟩ := (served.servedSends.owed place).mp (by simp)
      exact ⟨work.state, by simp [Fabric.stateOf, found], running⟩
  | receive =>
      obtain ⟨work, found, -, running⟩ := (served.servedRecvs.owed place).mp (by simp)
      exact ⟨work.state, by simp [Fabric.stateOf, found], running⟩

theorem poll_tables (queue : fabric.cq rank = (handle, completion) :: waiting)
    (polled : fabric.poll rank = some fabric') (isState : fabric.stateOf rank handle = some held)
    (running : held.completed = false) :
    fabric'.stateOf rank =
        Function.update (fabric.stateOf rank) handle (some (held.recorded completion)) ∧
      unpolled fabric' rank = Function.update (unpolled fabric rank) handle.1
        (unpolled fabric rank handle.1 - 1) ∧
      ∀ place, place ≠ rank → fabric'.stateOf place = fabric.stateOf place ∧
        unpolled fabric' place = unpolled fabric place := by
  obtain ⟨kind, place⟩ := handle
  simp only [Fabric.poll, queue] at polled
  cases kind with
  | send =>
      obtain rfl := Option.some.inj polled
      obtain ⟨work, found, rfl⟩ := Option.map_eq_some_iff.mp isState
      refine ⟨?_, ?_, fun other different => ⟨?_, ?_⟩⟩
      · simp only [stateOf_eq, Function.update_self, column_modify _ _ found, table_update_send]
      · have counted := Splits.countP_modify (fun work : SendWork => !work.state.completed)
          (fun work => { work with state := work.state.recorded completion }) found
        simp only [running, Bool.not_false, if_true, RequestState.recorded, Bool.not_true,
          Bool.false_eq_true, if_false] at counted
        funext kind
        cases kind with
        | send =>
            simp only [unpolled, unpolledSends, Function.update_self, RequestState.recorded]
            omega
        | receive => simp [unpolled]
      · simp [stateOf_eq, different]
      · funext kind
        cases kind <;> simp [unpolled, different]
  | receive =>
      obtain rfl := Option.some.inj polled
      obtain ⟨work, found, rfl⟩ := Option.map_eq_some_iff.mp isState
      refine ⟨?_, ?_, fun other different => ⟨?_, ?_⟩⟩
      · simp only [stateOf_eq, Function.update_self, column_modify _ _ found, table_update_recv]
      · have counted := Splits.countP_modify (fun work : RecvWork => !work.state.completed)
          (fun work => { work with state := work.state.recorded completion }) found
        simp only [running, Bool.not_false, if_true, RequestState.recorded, Bool.not_true,
          Bool.false_eq_true, if_false] at counted
        funext kind
        cases kind with
        | receive =>
            simp only [unpolled, unpolledRecvs, Function.update_self, RequestState.recorded]
            omega
        | send => simp [unpolled]
      · simp [stateOf_eq, different]
      · funext kind
        cases kind <;> simp [unpolled, different]

end Polls

/-! Both rings at the same point of their runs. -/

/-- A request and the handle it has in the fabric. -/
def Named (entry : Handle → Option WorkRequest) (request : PgRequest) (handle : Handle) : Prop :=
  ∃ found, entry handle = some found ∧ request = { id := found.id, internal := found.wrId }

structure Alongside (entry : Handle → Option WorkRequest) (state : RankState PgRequest)
    (other : RankState Handle) : Prop where
  todo : state.todo = other.todo
  results : state.results = other.results
  log : state.log = other.log
  sequence : state.vars.sequence = other.vars.sequence
  owned : state.vars.owned = other.vars.owned
  slots : ∀ slot, Option.Rel (Named entry) (state.vars.requests slot) (other.vars.requests slot)

structure Twin (platform : Platform) (worldSize : Nat) (world : EndpointWorld Value)
    (mirror : VerbsWorld Value) : Prop where
  ranks : ∀ rank, Alongside (world.net.entry rank) (world.rank rank) (mirror.rank rank)
  memory : world.memory = mirror.memory
  books : ∀ rank, Books (mirror.net.stateOf rank) (world.net.entry rank)
    (waits (mirror.rank rank).log) (unpolled mirror.net rank) (world.net.endpoints rank)
  shown : Shown platform worldSize mirror.net world.net

section Twin

variable {world : EndpointWorld Value} {mirror : VerbsWorld Value} {state : RankState PgRequest}
  {other : RankState Handle}

theorem rel_mono {First Second : Type} {relates later : First → Second → Prop}
    (weaker : ∀ first second, relates first second → later first second) {first : Option First}
    {second : Option Second} (related : Option.Rel relates first second) :
    Option.Rel later first second := by
  cases related with
  | some holds => exact .some (weaker _ _ holds)
  | none => exact .none

theorem Named.mono {entry later : Handle → Option WorkRequest}
    (kept : ∀ handle request, entry handle = some request → later handle = some request)
    {request : PgRequest} {handle : Handle} (named : Named entry request handle) :
    Named later request handle := by
  obtain ⟨found, isEntry, same⟩ := named
  exact ⟨found, kept _ _ isEntry, same⟩

section Alongside

variable {entry later : Handle → Option WorkRequest} (alongside : Alongside entry state other)
  (kept : ∀ handle request, entry handle = some request → later handle = some request)

include alongside

theorem Alongside.advance {vars : Variables PgRequest} {vars' : Variables Handle}
    (sequence : vars.sequence = vars'.sequence) (owned : vars.owned = vars'.owned)
    (mine : vars.requests = state.vars.requests) (theirs : vars'.requests = other.vars.requests)
    (instr : Instr) (rest : List Instr) :
    Alongside entry (state.advance vars instr rest) (other.advance vars' instr rest) := by
  refine ⟨rfl, alongside.results, congrArg (· ++ [instr]) alongside.log, sequence, owned, fun slot => ?_⟩
  simp only [RankState.advance, mine, theirs]
  exact alongside.slots slot

theorem Alongside.leave (instr : Instr) (status : Status) :
    Alongside entry (state.leave instr status) (other.leave instr status) := by
  refine ⟨rfl, congrArg (· ++ [status]) alongside.results, ?_, alongside.sequence, alongside.owned,
    alongside.slots⟩
  simp only [RankState.leave, alongside.log]

theorem Alongside.enter {setup : Setup Value} (call : Call Value) :
    Alongside entry (state.enter setup rank call) (other.enter setup rank call) := by
  refine ⟨?_, alongside.results, alongside.log, alongside.sequence, alongside.owned,
    alongside.slots⟩
  simp only [RankState.enter, alongside.sequence, alongside.results]

include kept

theorem Alongside.assign {request : Option PgRequest} {handle : Option Handle}
    (named : Option.Rel (Named later) request handle) (slot : Slot) (instr : Instr)
    (rest : List Instr) :
    Alongside later (state.advance (state.vars.assign slot request) instr rest)
      (other.advance (other.vars.assign slot handle) instr rest) := by
  refine ⟨rfl, alongside.results, congrArg (· ++ [instr]) alongside.log, alongside.sequence,
    alongside.owned, fun index => ?_⟩
  simp only [RankState.advance, Variables.assign]
  by_cases here : index = slot
  · subst here
    simpa using named
  · simpa [here] using rel_mono (fun _ _ named => named.mono kept) (alongside.slots index)

end Alongside

theorem Twin.put (twin : Twin platform worldSize world mirror)
    (alongside : Alongside (ring'.entry rank) state other)
    (books : Books (fabric'.stateOf rank) (ring'.entry rank) (waits other.log)
      (unpolled fabric' rank) (ring'.endpoints rank))
    (shown : Shown platform worldSize fabric' ring')
    (others : ∀ place, place ≠ rank → ring'.entry place = world.net.entry place ∧
      ring'.endpoints place = world.net.endpoints place ∧
      fabric'.stateOf place = mirror.net.stateOf place ∧
      unpolled fabric' place = unpolled mirror.net place) (memory : Memory Value) :
    Twin platform worldSize (world.put rank state ring' memory)
      (mirror.put rank other fabric' memory) := by
  constructor
  case ranks =>
    intro place
    by_cases here : place = rank
    · subst here
      simpa [World.put] using alongside
    · simpa [World.put, here, (others place here).1] using twin.ranks place
  case memory => simp only [World.put, twin.memory]
  case books =>
    intro place
    by_cases here : place = rank
    · subst here
      simpa [World.put] using books
    · obtain ⟨entry, endpoints, stateOf, unpolled⟩ := others place here
      simpa [World.put, here, entry, endpoints, stateOf, unpolled] using twin.books place
  case shown => exact shown

end Twin

section Waits

variable {Request : Type} (state : RankState Request) (vars : Variables Request) (rest : List Instr)

theorem waits_advance {instr : Instr} (quiet : ∀ post, instr ≠ .waitRecv post ∧ instr ≠ .waitSend post) :
    waits (state.advance vars instr rest).log = waits state.log := by
  funext kind
  cases instr with
  | waitRecv post => exact absurd rfl (quiet post).1
  | waitSend post => exact absurd rfl (quiet post).2
  | _ => cases kind <;> simp [waits, RankState.advance, Instr.event, Event.waitedRecv, Event.waitedSend]

theorem waits_recv (post : Post) : waits (state.advance vars (.waitRecv post) rest).log =
    Function.update (waits state.log) .receive (waits state.log .receive + 1) := by
  funext kind
  cases kind <;>
    simp [waits, RankState.advance, Instr.event, Event.waitedRecv, Event.waitedSend]

theorem waits_send (post : Post) : waits (state.advance vars (.waitSend post) rest).log =
    Function.update (waits state.log) .send (waits state.log .send + 1) := by
  funext kind
  cases kind <;>
    simp [waits, RankState.advance, Instr.event, Event.waitedRecv, Event.waitedSend]

end Waits

/-- Outcomes of an operation in both rings that lead to the same point again. -/
inductive Agree (platform : Platform) (worldSize : Nat) (world : EndpointWorld Value)
    (mirror : VerbsWorld Value) (rank : Nat) (instr : Instr) (rest : List Instr) :
    Outcome (Ring × Memory Value) (Verdict PgRequest) →
      Outcome (Fabric × Memory Value) (Verdict Handle) → Prop
  | blocked : Agree platform worldSize world mirror rank instr rest .blocked .blocked
  | busy (ring : Ring) (fabric : Fabric) (memory : Memory Value)
      (twin : Twin platform worldSize (world.put rank (world.rank rank) ring memory)
        (mirror.put rank (mirror.rank rank) fabric memory)) :
      Agree platform worldSize world mirror rank instr rest (.busy (ring, memory))
        (.busy (fabric, memory))
  | next (ring : Ring) (fabric : Fabric) (memory : Memory Value) (vars : Variables PgRequest)
      (vars' : Variables Handle)
      (twin : Twin platform worldSize
        (world.put rank ((world.rank rank).advance vars instr rest) ring memory)
        (mirror.put rank ((mirror.rank rank).advance vars' instr rest) fabric memory)) :
      Agree platform worldSize world mirror rank instr rest (.done (ring, memory) (.next vars))
        (.done (fabric, memory) (.next vars'))
  | stop (ring : Ring) (fabric : Fabric) (memory : Memory Value) (status : Status)
      (twin : Twin platform worldSize
        (world.put rank ((world.rank rank).leave instr status) ring memory)
        (mirror.put rank ((mirror.rank rank).leave instr status) fabric memory)) :
      Agree platform worldSize world mirror rank instr rest (.done (ring, memory) (.stop status))
        (.done (fabric, memory) (.stop status))

theorem setEndpoint_self (ring : Ring) (rank : Nat) (endpoint : VerbsTransport) :
    (ring.setEndpoint rank endpoint).endpoints rank = endpoint := Function.update_self ..

section Perform

variable {setup : Setup Value} {world : EndpointWorld Value} {mirror : VerbsWorld Value}
  (twin : Twin platform setup.worldSize world mirror) {rest : List Instr}

include twin

theorem Twin.quiet {instr : Instr} (noEvent : instr.event = none) :
    Agree platform setup.worldSize world mirror rank instr rest
      (perform setup (endpointTransport Value platform room setup.worldSize) rank
        (world.rank rank).vars world.net (world.memory rank) instr)
      (perform setup (verbsTransport Value (fun _ => true) setup.worldSize) rank
        (mirror.rank rank).vars mirror.net (mirror.memory rank) instr) := by
  have alongside := twin.ranks rank
  have books := twin.books rank
  have unmoved : ∀ place, place ≠ rank → world.net.entry place = world.net.entry place ∧
      world.net.endpoints place = world.net.endpoints place ∧
      mirror.net.stateOf place = mirror.net.stateOf place ∧
      unpolled mirror.net place = unpolled mirror.net place := fun _ _ => ⟨rfl, rfl, rfl, rfl⟩
  have quiet : ∀ post, instr ≠ .waitRecv post ∧ instr ≠ .waitSend post := by
    intro post
    constructor <;> rintro rfl <;> simp [Instr.event] at noEvent
  have goesOn : ∀ (vars : Variables PgRequest) (vars' : Variables Handle) (memory : Memory Value),
      vars.sequence = vars'.sequence → vars.owned = vars'.owned →
      vars.requests = (world.rank rank).vars.requests →
      vars'.requests = (mirror.rank rank).vars.requests →
      Agree platform setup.worldSize world mirror rank instr rest
        (.done (world.net, memory) (.next vars)) (.done (mirror.net, memory) (.next vars')) := by
    intro vars vars' memory sequence owned mine theirs
    refine .next _ _ _ _ _ (twin.put (alongside.advance sequence owned mine theirs instr rest) ?_
      twin.shown unmoved memory)
    rw [waits_advance _ _ _ quiet]
    exact books
  have leaves : ∀ (status : Status) (memory : Memory Value),
      Agree platform setup.worldSize world mirror rank instr rest
        (.done (world.net, memory) (.stop status)) (.done (mirror.net, memory) (.stop status)) := by
    intro status memory
    refine .stop _ _ _ _ (twin.put (alongside.leave instr status) ?_ twin.shown unmoved memory)
    have same : waits ((mirror.rank rank).leave instr status).log = waits (mirror.rank rank).log := by
      funext kind
      cases kind <;> simp only [waits, leave_log _ _ noEvent]
    rw [same]
    exact books
  rw [twin.memory]
  cases instr with
  | postRecv post | postSend post | waitRecv post | waitSend post => simp [Instr.event] at noEvent
  | storeOwned block => exact goesOn _ _ _ alongside.sequence rfl rfl rfl
  | advanceSequence =>
      exact goesOn _ _ _ (congrArg (· + 1) alongside.sequence) alongside.owned rfl rfl
  | load call | copyInput count | reduce _ _ _ _ _ | ret status =>
      simp only [perform]
      split
      · exact goesOn _ _ _ alongside.sequence alongside.owned rfl rfl
      · exact leaves _ _

variable (inv : VerbsInvariant setup mirror) (uniform : Uniform setup)
  (onSchedule : ∀ rank, OnSchedule setup rank (mirror.rank rank)) (bound : rank < setup.worldSize)

include inv uniform onSchedule bound

theorem Twin.postRecv (todo : (mirror.rank rank).todo = .postRecv post :: rest)
    (hasRoom : room (unpolledRecvs (mirror.net.recvs rank)) = true) :
    Agree platform setup.worldSize world mirror rank (.postRecv post) rest
      (perform setup (endpointTransport Value platform room setup.worldSize) rank
        (world.rank rank).vars world.net (world.memory rank) (.postRecv post))
      (perform setup (verbsTransport Value (fun _ => true) setup.worldSize) rank
        (mirror.rank rank).vars mirror.net (mirror.memory rank) (.postRecv post)) := by
  obtain ⟨mode, postable, done⟩ := @VerbsInvariant.postRecv_done _ _ _ mirror (fun _ => true) _ _
    uniform (onSchedule rank) bound todo rfl
  have posted := @postRecv_eq _ platform rank world.net post mode room (mirror.memory rank) _ _ _ _
    (twin.books rank) postable hasRoom
  rw [done, twin.memory]
  simp only [perform, endpointTransport, posted, Outcome.map]
  have named : Named ((world.net.addRecv platform rank post mode).entry rank)
      (world.net.newRequest platform rank) (.receive, (mirror.net.recvs rank).length) := by
    have isEntry := @entry_addRecv platform world.net post mode rank
    rw [(twin.shown.lengths rank).2] at isEntry
    exact ⟨_, by rw [isEntry, Function.update_self], rfl⟩
  refine .next _ _ _ _ _ (twin.put ((twin.ranks rank).assign kept_addRecv (.some named) _ _ _) ?_
    (twin.shown.addRecv inv.sound _) ?_ _)
  · rw [waits_advance _ _ _ fun _ => ⟨by simp, by simp⟩]
    exact books_addRecv twin.shown (twin.books rank)
      ((inv.kept rank bound).waits_le (onSchedule rank) bound).1
  · intro place different
    refine ⟨?_, ?_, ?_, ?_⟩
    · simp [Ring.entry, Ring.addRecv, different]
    · simp [Ring.addRecv, different]
    · simp [stateOf_eq, Fabric.addRecv, different]
    · funext kind
      cases kind <;> simp [unpolled, Fabric.addRecv, different]

theorem Twin.postSend (todo : (mirror.rank rank).todo = .postSend post :: rest)
    (hasRoom : room (unpolledSends (mirror.net.sends rank)) = true) :
    Agree platform setup.worldSize world mirror rank (.postSend post) rest
      (perform setup (endpointTransport Value platform room setup.worldSize) rank
        (world.rank rank).vars world.net (world.memory rank) (.postSend post))
      (perform setup (verbsTransport Value (fun _ => true) setup.worldSize) rank
        (mirror.rank rank).vars mirror.net (mirror.memory rank) (.postSend post)) := by
  obtain ⟨mode, postable, outcome⟩ := @VerbsInvariant.postSend_done _ _ _ mirror (fun _ => true) _ _
    inv uniform onSchedule bound todo rfl
  have link := (twin.shown.links rank bound).control
  have drained := (inv.sound.links rank bound).control
  rw [twin.memory]
  rcases outcome with ⟨none, blocked⟩ | ⟨recv, unread, member, -, available, matched, done⟩
  · rw [drained, List.map_eq_nil_iff] at none
    rw [none, List.forall₂_nil_left_iff] at link
    have waiting := @postSend_blocked _ platform setup.worldSize rank world.net post mode room
      (mirror.memory rank) _ _ _ _ (twin.books rank) postable link
    rw [blocked]
    simp only [perform, endpointTransport, waiting, Outcome.map]
    exact .blocked
  · cases isControl : world.net.control (next setup.worldSize rank) with
    | nil =>
        rw [isControl, List.forall₂_nil_right_iff] at link
        simp [drained, link] at available
    | cons descriptor unseen =>
        have alike : ¬ (descriptor.magic ≠ kControlMagic ∨ descriptor.tag ≠ post.tag ∨
            descriptor.bytes.toNat ≠ post.bytes ∨ descriptor.mode ≠ mode.code) := by
          rw [isControl] at link
          rw [available] at drained
          cases front : (mirror.net.recvs (next setup.worldSize rank)).drop
              (mirror.net.sends rank).length with
          | nil => simp [front] at link
          | cons first more =>
              rw [front, List.map_cons, List.cons.injEq] at drained
              rw [front] at link
              rw [drained.1] at matched
              cases link with
              | cons announced =>
                  obtain ⟨key, rfl⟩ := announced
                  exact matched
        have posted := @postSend_eq _ platform setup.worldSize rank world.net post mode room
          (mirror.memory rank) _ _ _ _ (twin.books rank) postable hasRoom _ _ isControl alike
        rw [done]
        simp only [perform, endpointTransport, posted, Outcome.map]
        have named : Named ((world.net.addSend platform rank post mode (next setup.worldSize rank)
              descriptor unseen).entry rank)
            (world.net.newRequest platform rank) (.send, (mirror.net.sends rank).length) := by
          have isEntry := @entry_addSend platform world.net post mode rank
            (next setup.worldSize rank) descriptor unseen
          rw [(twin.shown.lengths rank).1] at isEntry
          exact ⟨_, by rw [isEntry, Function.update_self], rfl⟩
        refine .next _ _ _ _ _ (twin.put ((twin.ranks rank).assign (kept_addSend _ _ _)
          (.some named) _ _ _) ?_ (twin.shown.addSend inv.sound bound available isControl _) ?_ _)
        · rw [waits_advance _ _ _ fun _ => ⟨by simp, by simp⟩]
          exact books_addSend twin.shown (twin.books rank)
            ((inv.kept rank bound).waits_le (onSchedule rank) bound).2 _ _ _ _ _
        · intro place different
          refine ⟨?_, ?_, ?_, ?_⟩
          · simp [Ring.entry, Ring.addSend, different]
          · simp [Ring.addSend, different]
          · simp [stateOf_eq, Fabric.addSend, Fabric.read, different]
          · funext kind
            cases kind <;> simp [unpolled, Fabric.addSend, Fabric.read, different]

omit uniform onSchedule in
theorem Twin.wait {instr : Instr} {slot : Slot} {handle : Handle} {held : VerbsTransport.RequestState}
    (isSlot : (mirror.rank rank).vars.requests slot = some handle)
    (isState : mirror.net.stateOf rank handle = some held)
    (oldest : waits (mirror.rank rank).log handle.1 = handle.2)
    (counted : ∀ vars, waits ((mirror.rank rank).advance vars instr rest).log =
      Function.update (waits (mirror.rank rank).log) handle.1
        (waits (mirror.rank rank).log handle.1 + 1))
    (unwaited : ∀ other state, mirror.net.stateOf rank other = some state →
      state.completed = false → waits (mirror.rank rank).log other.1 ≤ other.2) :
    ∃ request, (world.rank rank).vars.requests slot = some request ∧
      Agree platform setup.worldSize world mirror rank instr rest
        ((EndpointRing.wait rank request world.net (mirror.memory rank)).map fun ok =>
          if ok then .next ((world.rank rank).vars.assign slot none) else .stop .transport)
        ((VerbsRing.waitRequest rank handle mirror.net (mirror.memory rank)).map fun ok =>
          if ok then .next ((mirror.rank rank).vars.assign slot none) else .stop .transport) := by
  have books := twin.books rank
  have named := (twin.ranks rank).slots slot
  rw [isSlot] at named
  obtain ⟨request, isRequest, found, isEntry, rfl⟩ : ∃ request,
      (world.rank rank).vars.requests slot = some request ∧
        Named (world.net.entry rank) request handle := by
    generalize (world.rank rank).vars.requests slot = mine at named
    cases named with
    | some named => exact ⟨_, rfl, named⟩
  refine ⟨_, isRequest, ?_⟩
  have status := inv.sound.status_zero bound isState
  cases completed : held.completed with
  | true =>
      obtain ⟨after, waited, consumed⟩ := books.consume isState isEntry completed oldest found.id
      have mine : EndpointRing.wait rank { id := found.id, internal := found.wrId } world.net
          (mirror.memory rank) =
            .done (world.net.setEndpoint rank after, mirror.memory rank) true := by
        simp only [EndpointRing.wait, waited, status, decide_true]
      have theirs : VerbsRing.waitRequest rank handle mirror.net (mirror.memory rank) =
          .done (mirror.net, mirror.memory rank) true := by
        simp only [VerbsRing.waitRequest, isState, completed, if_true, status, decide_true]
      rw [mine, theirs]
      have alongside : Alongside ((world.net.setEndpoint rank after).entry rank) _ _ :=
        (twin.ranks rank).assign (fun _ _ found => found) .none slot instr rest
      have shown : Shown platform setup.worldSize mirror.net (world.net.setEndpoint rank after) :=
        ⟨twin.shown.sends, twin.shown.recvs, twin.shown.cq, fun sender bound =>
          ⟨(twin.shown.links sender bound).control, (twin.shown.links sender bound).aimed⟩⟩
      refine .next _ _ _ _ _ (twin.put alongside ?_ shown ?_ _)
      · rw [counted, setEndpoint_self]
        exact consumed
      · intro place different
        exact ⟨rfl, Function.update_of_ne different .., rfl, rfl⟩
  | false =>
      have waiting := books.waits isState isEntry completed (unwaited _ _ isState completed) found.id
      cases queue : mirror.net.cq rank with
      | nil =>
          have empty := twin.shown.cq rank
          rw [queue, List.forall₂_nil_left_iff] at empty
          have theirs : VerbsRing.waitRequest rank handle mirror.net (mirror.memory rank) =
              .blocked := by
            simp [VerbsRing.waitRequest, isState, completed, Fabric.poll, queue]
          have mine : EndpointRing.wait rank { id := found.id, internal := found.wrId } world.net
              (mirror.memory rank) = .blocked := by
            simp only [EndpointRing.wait, waiting, empty]
          rw [mine, theirs]
          exact .blocked
      | cons item later =>
          obtain ⟨other, completion⟩ := item
          obtain ⟨fabric, polled⟩ : ∃ fabric, mirror.net.poll rank = some fabric := by
            obtain ⟨kind, place⟩ := other
            cases kind <;> exact ⟨_, by rw [Fabric.poll, queue]⟩
          obtain ⟨offer, offers, isQueue, ⟨their, isTheir, own, fields⟩, shown⟩ :=
            twin.shown.poll queue polled
          obtain ⟨state, isOther, running⟩ := queue_state inv.sound bound queue
          obtain ⟨status, opcode, withImm, immData⟩ := fields
          obtain ⟨handed, middle, after, taken, handled, kept, recorded⟩ :=
            books.poll isOther isTheir running (unwaited _ _ isOther running) own status opcode
              withImm immData
          have theirs : VerbsRing.waitRequest rank handle mirror.net (mirror.memory rank) =
              .busy (fabric, mirror.memory rank) := by
            simp [VerbsRing.waitRequest, isState, completed, polled]
          have mine : EndpointRing.wait rank { id := found.id, internal := found.wrId } world.net
              (mirror.memory rank) = .busy (Ring.setEndpoint { world.net with
                cq := Function.update world.net.cq rank offers } rank after, mirror.memory rank) := by
            rcases books.turn isState isEntry completed (unwaited _ _ isState completed) taken handled
              kept with turned | turned
            · simp only [EndpointRing.wait, waiting, isQueue, turned]
            · simp only [EndpointRing.wait, waiting, isQueue, turned]
          rw [mine, theirs]
          obtain ⟨stateOf, counts, others⟩ := poll_tables queue polled isOther running
          have alongside : Alongside ((Ring.setEndpoint { world.net with
              cq := Function.update world.net.cq rank offers } rank after).entry rank) _ _ :=
            twin.ranks rank
          refine .busy _ _ _ (twin.put alongside ?_ (shown _) ?_ _)
          · rw [stateOf, counts, setEndpoint_self]
            exact recorded
          · intro place different
            exact ⟨rfl, Function.update_of_ne different .., others place different⟩

omit twin uniform onSchedule in
theorem unwaited {handle : Handle} {held : VerbsTransport.RequestState}
    (isState : mirror.net.stateOf rank handle = some held) (running : held.completed = false) :
    waits (mirror.rank rank).log handle.1 ≤ handle.2 := by
  have kept := inv.kept rank bound
  obtain ⟨kind, place⟩ := handle
  by_contra earlier
  cases kind with
  | send =>
      obtain ⟨work, found, rfl⟩ := Option.map_eq_some_iff.mp isState
      have completed := kept.waitedSends place work found (by simpa [waits] using earlier)
      simp [running] at completed
  | receive =>
      obtain ⟨work, found, rfl⟩ := Option.map_eq_some_iff.mp isState
      have completed := kept.waitedRecvs place work found (by simpa [waits] using earlier)
      simp [running] at completed

omit uniform in
theorem Twin.waitRecv (todo : (mirror.rank rank).todo = .waitRecv post :: rest) :
    Agree platform setup.worldSize world mirror rank (.waitRecv post) rest
      (perform setup (endpointTransport Value platform room setup.worldSize) rank
        (world.rank rank).vars world.net (world.memory rank) (.waitRecv post))
      (perform setup (verbsTransport Value (fun _ => true) setup.worldSize) rank
        (mirror.rank rank).vars mirror.net (mirror.memory rank) (.waitRecv post)) := by
  obtain ⟨inside, slot⟩ := (inv.kept rank bound).waitRecv_handle (onSchedule rank) bound todo
  have isState : mirror.net.stateOf rank (.receive, (recvWaits (events (mirror.rank rank).log)).length)
      = some _ := congrArg (Option.map RecvWork.state) (List.getElem?_eq_getElem inside)
  obtain ⟨request, isRequest, agrees⟩ := twin.wait inv bound slot isState rfl
    (fun vars => waits_recv (mirror.rank rank) vars rest post)
    (fun _ _ found running => unwaited inv bound found running)
  rw [twin.memory]
  simpa only [perform, slot, isRequest, endpointTransport, verbsTransport] using agrees

omit uniform in
theorem Twin.waitSend (todo : (mirror.rank rank).todo = .waitSend post :: rest) :
    Agree platform setup.worldSize world mirror rank (.waitSend post) rest
      (perform setup (endpointTransport Value platform room setup.worldSize) rank
        (world.rank rank).vars world.net (world.memory rank) (.waitSend post))
      (perform setup (verbsTransport Value (fun _ => true) setup.worldSize) rank
        (mirror.rank rank).vars mirror.net (mirror.memory rank) (.waitSend post)) := by
  obtain ⟨inside, slot⟩ := (inv.kept rank bound).waitSend_handle (onSchedule rank) bound todo
  have isState : mirror.net.stateOf rank (.send, (sendWaits (events (mirror.rank rank).log)).length)
      = some _ := congrArg (Option.map SendWork.state) (List.getElem?_eq_getElem inside)
  obtain ⟨request, isRequest, agrees⟩ := twin.wait inv bound slot isState rfl
    (fun vars => waits_send (mirror.rank rank) vars rest post)
    (fun _ _ found running => unwaited inv bound found running)
  rw [twin.memory]
  simpa only [perform, slot, isRequest, endpointTransport, verbsTransport] using agrees

theorem Twin.perform {instr : Instr} (todo : (mirror.rank rank).todo = instr :: rest)
    (recvRoom : ∀ post, instr = .postRecv post →
      room (unpolledRecvs (mirror.net.recvs rank)) = true)
    (sendRoom : ∀ post, instr = .postSend post →
      room (unpolledSends (mirror.net.sends rank)) = true) :
    Agree platform setup.worldSize world mirror rank instr rest
      (RingAllReduce.perform setup (endpointTransport Value platform room setup.worldSize) rank
        (world.rank rank).vars world.net (world.memory rank) instr)
      (RingAllReduce.perform setup (verbsTransport Value (fun _ => true) setup.worldSize) rank
        (mirror.rank rank).vars mirror.net (mirror.memory rank) instr) := by
  cases instr with
  | postRecv post => exact twin.postRecv inv uniform onSchedule bound todo (recvRoom post rfl)
  | postSend post => exact twin.postSend inv uniform onSchedule bound todo (sendRoom post rfl)
  | waitRecv post => exact twin.waitRecv inv onSchedule bound todo
  | waitSend post => exact twin.waitSend inv onSchedule bound todo
  | _ => exact twin.quiet rfl

theorem Twin.rankStep
    (recvRoom : ∀ post rest, (mirror.rank rank).todo = .postRecv post :: rest →
      room (unpolledRecvs (mirror.net.recvs rank)) = true)
    (sendRoom : ∀ post rest, (mirror.rank rank).todo = .postSend post :: rest →
      room (unpolledSends (mirror.net.sends rank)) = true) :
    Option.Rel (Twin platform setup.worldSize)
      (RingAllReduce.rankStep setup (endpointTransport Value platform room setup.worldSize) rank world)
      (RingAllReduce.rankStep setup (verbsTransport Value (fun _ => true) setup.worldSize) rank
        mirror) := by
  have alongside := twin.ranks rank
  cases todo : (mirror.rank rank).todo with
  | nil =>
      have mine := alongside.todo.trans todo
      simp only [RingAllReduce.rankStep, mine, todo, alongside.results]
      split
      · split
        · rename_i call found
          rw [twin.memory]
          exact .some (twin.put (alongside.enter call) (twin.books rank) twin.shown
            (fun _ _ => ⟨rfl, rfl, rfl, rfl⟩) (mirror.memory rank))
        · exact .none
      · exact .none
  | cons instr rest =>
      have mine := alongside.todo.trans todo
      have agrees := @Twin.perform _ platform rank room _ world mirror twin rest inv uniform onSchedule
        bound instr todo (fun post isPost => recvRoom post rest (isPost ▸ todo))
        (fun post isPost => sendRoom post rest (isPost ▸ todo))
      simp only [RingAllReduce.rankStep, mine, todo]
      generalize RingAllReduce.perform setup
        (endpointTransport Value platform room setup.worldSize) rank (world.rank rank).vars world.net
        (world.memory rank) instr = first at agrees ⊢
      generalize RingAllReduce.perform setup
        (verbsTransport Value (fun _ => true) setup.worldSize) rank (mirror.rank rank).vars mirror.net
        (mirror.memory rank) instr = second at agrees ⊢
      cases agrees with
      | blocked => exact .none
      | busy ring fabric memory twin => exact .some twin
      | next ring fabric memory vars vars' twin => exact .some twin
      | stop ring fabric memory status twin => exact .some twin

end Perform

end RingAllReduce.EndpointRing
