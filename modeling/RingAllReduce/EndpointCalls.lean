import RingAllReduce.EndpointBooks
import RingAllReduce.VerbsRequests

/-!
The endpoints of a ring beside the work requests of a fabric: the devices have the same work requests
in the same order, with addresses in the place of buffers.
-/

namespace RingAllReduce.EndpointRing

open Exchange Rotation VerbsTransport
open VerbsRing (Handle Fabric SendWork RecvWork Descriptor Postable Mismatch unpolledSends
  unpolledRecvs)

variable {Value : Type}

section Posts

variable {endpoint : VerbsTransport} {answers : Answers} {buffer : Address} {bytes : Nat}
  {requested mode : TransferMode} {key : UInt32}

theorem submit_accepted (notNull : buffer ≠ 0) (positive : 0 < bytes)
    (registered : answers.registration = .ok key) (accepted : answers.postStatus = 0)
    (absent : answers.address ∉ endpoint.pendingRequests) (function : String) (tag : UInt32)
    (work : Region → Work) :
    endpoint.submit answers function buffer bytes tag mode work =
      .ok ({ id := endpoint.nextRequestId, internal := answers.address }, key,
        endpoint.acceptedPost answers.address tag mode (work endpoint.regions)) := by
  have used : ¬ (buffer = 0 ∨ bytes = 0) := by
    rintro (none | none)
    · exact notNull none
    · omega
  simp [submit, registerMemory, used, registered, newRequest, accepted, acceptedPost,
    List.insert_of_not_mem absent]

def announcement (buffer : Address) (bytes : Nat) (tag : UInt32) (mode : TransferMode)
    (key : UInt32) : ControlMessage :=
  { magic := kControlMagic, tag := tag, remoteAddress := buffer, remoteKey := key
    bytes := UInt32.ofNat bytes, mode := mode.code, reserved := 0 }

theorem postReceivePrevious_accepted (queuePair : endpoint.qpPrev = true)
    (socket : 0 ≤ endpoint.previousSocket) (notNull : buffer ≠ 0) (positive : 0 < bytes)
    (small : bytes ≤ maxUInt32) (chosen : chooseMode requested bytes = .ok mode)
    (registered : answers.registration = .ok key) (accepted : answers.postStatus = 0)
    (absent : answers.address ∉ endpoint.pendingRequests) (written : answers.written = true)
    (tag : UInt32) :
    endpoint.postReceivePrevious answers buffer bytes tag requested noRequest =
      (.returned () { endpoint.acceptedPost answers.address tag mode
          (receiveWork buffer bytes mode endpoint.regions) with
        descriptors := endpoint.descriptors ++ [announcement buffer bytes tag mode key] },
      some { id := endpoint.nextRequestId, internal := answers.address }) := by
  have submitted := @submit_accepted endpoint answers buffer bytes mode key notNull positive registered
    accepted absent "ibv_post_recv" tag (receiveWork buffer bytes mode)
  have valid : ¬ (endpoint.qpPrev = false ∨ endpoint.previousSocket < 0 ∨ buffer = 0 ∨ bytes = 0 ∨
      noRequest.all fun handle => handle.internal ≠ 0) := by
    simp [queuePair, notNull, noRequest]
    omega
  rw [VerbsTransport.postReceivePrevious, if_neg valid, if_neg (by omega), chosen]
  simp only [submitted, written, if_true]
  rfl

theorem postSendNext_accepted (queuePair : endpoint.qpNext = true)
    (socket : 0 ≤ endpoint.nextSocket) (notNull : buffer ≠ 0) (positive : 0 < bytes)
    (small : bytes ≤ maxUInt32) (chosen : chooseMode requested bytes = .ok mode)
    (registered : answers.registration = .ok key) (accepted : answers.postStatus = 0)
    (absent : answers.address ∉ endpoint.pendingRequests) {control : ControlMessage}
    (received : answers.descriptor = some control) {tag : UInt32}
    (matched : ¬ (control.magic ≠ kControlMagic ∨ control.tag ≠ tag ∨
      control.bytes.toNat ≠ bytes ∨ control.mode ≠ mode.code)) :
    endpoint.postSendNext answers buffer bytes tag requested noRequest =
      (.returned () (endpoint.acceptedPost answers.address tag mode
        (sendWork buffer bytes tag mode control endpoint.regions)),
      some { id := endpoint.nextRequestId, internal := answers.address }) := by
  have submitted := @submit_accepted endpoint answers buffer bytes mode key notNull positive registered
    accepted absent "ibv_post_send" tag (sendWork buffer bytes tag mode control)
  have valid : ¬ (endpoint.qpNext = false ∨ endpoint.nextSocket < 0 ∨ buffer = 0 ∨ bytes = 0 ∨
      noRequest.all fun handle => handle.internal ≠ 0) := by
    simp [queuePair, notNull, noRequest]
    omega
  rw [VerbsTransport.postSendNext, if_neg valid, if_neg (by omega), chosen]
  simp only [received, if_neg matched, submitted]

theorem posted_recv (ring : Ring) (rank : Nat) (post : Post) {address : Address} {tag : UInt32}
    {work : Work} (isRecv : work.kind = .receive) (control : ControlMessage) :
    ring.posted rank post { (ring.endpoints rank).acceptedPost address tag mode work with
        descriptors := (ring.endpoints rank).descriptors ++ [control] } =
      { ring with
        endpoints := Function.update ring.endpoints rank
          { (ring.endpoints rank).acceptedPost address tag mode work with
            descriptors := (ring.endpoints rank).descriptors ++ [control] }
        control := Function.update ring.control rank (ring.control rank ++ [control])
        recvs := Function.update ring.recvs rank (ring.recvs rank ++
          [.new post ⟨address, (ring.endpoints rank).nextRequestId, work⟩]) } := by
  simp [Ring.posted, acceptedPost, isRecv]

theorem posted_send (ring : Ring) (rank : Nat) (post : Post) {address : Address} {tag : UInt32}
    {work : Work} (isSend : work.kind = .send) :
    ring.posted rank post ((ring.endpoints rank).acceptedPost address tag mode work) =
      { ring with
        endpoints := Function.update ring.endpoints rank
          ((ring.endpoints rank).acceptedPost address tag mode work)
        sends := Function.update ring.sends rank (ring.sends rank ++
          [.new post ⟨address, (ring.endpoints rank).nextRequestId, work⟩]) } := by
  simp [Ring.posted, acceptedPost, isSend]

end Posts

/-! What is known of the requests of a rank, by their handles. -/

section Tables

variable {Item Known : Type} (known : Item → Known) (items : List Item)

def column : Nat → Option Known := fun place => items[place]?.map known

theorem column_snoc (new : Item) : column known (items ++ [new]) =
    Function.update (column known items) items.length (some (known new)) := by
  funext place
  by_cases here : place = items.length
  · subst here
    simp [column]
  · rw [Function.update_of_ne here]
    by_cases old : place < items.length
    · simp [column, List.getElem?_append_left old]
    · simp only [column]
      rw [List.getElem?_eq_none (by simp; omega), List.getElem?_eq_none (by omega)]

theorem column_modify {place : Nat} {item : Item} (found : items[place]? = some item)
    (change : Item → Item) : column known (items.modify place change) =
      Function.update (column known items) place (some (known (change item))) := by
  funext index
  simp only [column, List.getElem?_modify]
  by_cases here : index = place
  · subst here
    simp [found]
  · simp [column, here, Ne.symm here]

theorem column_modify_same (place : Nat) {change : Item → Item}
    (same : ∀ item, known (change item) = known item) :
    column known (items.modify place change) = column known items := by
  funext index
  simp only [column, ← List.getElem?_map, Splits.map_modify_same known same]

def table (sends recvs : Nat → Option Known) : Handle → Option Known
  | (.send, place) => sends place
  | (.receive, place) => recvs place

theorem table_update_send (sends recvs : Nat → Option Known) (place : Nat) (value : Option Known) :
    table (Function.update sends place value) recvs =
      Function.update (table sends recvs) (.send, place) value := by
  funext ⟨kind, index⟩
  cases kind with
  | send => by_cases here : index = place <;> simp [table, here]
  | receive => simp [table]

theorem table_update_recv (sends recvs : Nat → Option Known) (place : Nat) (value : Option Known) :
    table sends (Function.update recvs place value) =
      Function.update (table sends recvs) (.receive, place) value := by
  funext ⟨kind, index⟩
  cases kind with
  | send => simp [table]
  | receive => by_cases here : index = place <;> simp [table, here]

end Tables

def Ring.entry (ring : Ring) (rank : Nat) : Handle → Option WorkRequest :=
  table (column QueuedSend.request (ring.sends rank)) (column QueuedRecv.request (ring.recvs rank))

theorem stateOf_eq (fabric : Fabric) (rank : Nat) : fabric.stateOf rank =
    table (column SendWork.state (fabric.sends rank)) (column RecvWork.state (fabric.recvs rank)) := by
  funext ⟨kind, place⟩
  cases kind <;> rfl

def waits (log : List Instr) : RequestKind → Nat
  | .send => (sendWaits (events log)).length
  | .receive => (recvWaits (events log)).length

def unpolled (fabric : Fabric) (rank : Nat) : RequestKind → Nat
  | .send => unpolledSends (fabric.sends rank)
  | .receive => unpolledRecvs (fabric.recvs rank)

/-! The two descriptions of the same queues. -/

variable (platform : Platform)

/-- Where the data of a work request is. -/
def Platform.place (platform : Platform) (rank : Nat) (post : Post) : Address :=
  platform.pointer rank post.call (post.buffer, post.start)

structure SendShown (rank : Nat) (work : SendWork) (queued : QueuedSend) : Prop where
  call : queued.call = work.post.call
  elementCount : queued.elementCount = work.post.elementCount
  executed : queued.executed = work.executed
  outcome : queued.outcome = work.outcome
  acknowledged : queued.acknowledged = work.acknowledged
  work : ∃ control region, queued.request.work = sendWork (platform.place rank work.post)
    work.post.bytes work.post.tag work.state.mode control region

structure RecvShown (rank : Nat) (work : RecvWork) (queued : QueuedRecv) : Prop where
  call : queued.call = work.post.call
  elementCount : queued.elementCount = work.post.elementCount
  consumed : queued.consumed = work.consumed
  work : ∃ region, queued.request.work = receiveWork (platform.place rank work.post) work.post.bytes
    work.state.mode region

/-- The descriptor of a receive, on the control socket of its rank. -/
def Announced (rank : Nat) (work : RecvWork) (control : ControlMessage) : Prop :=
  ∃ key, control = announcement (platform.place rank work.post) work.post.bytes work.post.tag
    work.state.mode key

/-- The descriptors that are not read yet, and where the RDMA writes go. -/
structure LinkShown (worldSize : Nat) (fabric : Fabric) (ring : Ring) (sender : Nat) : Prop where
  control : List.Forall₂ (Announced platform (next worldSize sender))
    ((fabric.recvs (next worldSize sender)).drop (fabric.sends sender).length)
    (ring.control (next worldSize sender))
  aimed : ∀ (place : Nat) queued work, (ring.sends sender)[place]? = some queued →
    (fabric.recvs (next worldSize sender))[place]? = some work →
    ∀ scatterGather immData remoteAddress remoteKey,
      queued.request.work = .rdmaWriteWithImm scatterGather immData remoteAddress remoteKey →
        remoteAddress = platform.place (next worldSize sender) work.post

/-- A completion on the queue of a rank. -/
def Offered (entry : Handle → Option WorkRequest) (item : Handle × WorkCompletion) (offer : Offer) :
    Prop :=
  ∃ request, entry item.1 = some request ∧ offer.id = request.id ∧
    item.2.status = offer.status ∧ item.2.opcode = offer.opcode ∧
    item.2.withImm = offer.withImm ∧ item.2.immData = offer.immData

structure Shown (worldSize : Nat) (fabric : Fabric) (ring : Ring) : Prop where
  sends : ∀ rank, List.Forall₂ (SendShown platform rank) (fabric.sends rank) (ring.sends rank)
  recvs : ∀ rank, List.Forall₂ (RecvShown platform rank) (fabric.recvs rank) (ring.recvs rank)
  cq : ∀ rank, List.Forall₂ (Offered (ring.entry rank)) (fabric.cq rank) (ring.cq rank)
  links : ∀ sender < worldSize, LinkShown platform worldSize fabric ring sender

end RingAllReduce.EndpointRing
