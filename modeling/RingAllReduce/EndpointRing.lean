import RingAllReduce.RequestLifeCycle
import RingAllReduce.VerbsRing

/-!
A ring of the `VerbsTransport`s of `verbs_transport.cpp` themselves: a request is a state on the heap
of its rank, at an address that is used again once the request has been waited for, and a completion
names it by that address. The devices see work requests, the addresses in them and nothing else;
`call` and `elementCount` of what is queued only tell which elements an address and a length are.
Access rights of memory regions are left out.
-/

namespace RingAllReduce.EndpointRing

open Rotation VerbsTransport

variable {Value : Type}

/-- What a rank finds around it: the allocator, where the elements of the buffers of a call are, and
the keys of its memory regions. -/
structure Platform where
  allocate : VerbsTransport → Address
  allocated : ∀ transport, Sound [] transport →
    allocate transport ≠ 0 ∧ transport.heap (allocate transport) = none
  pointer : Nat → Nat → Buffer × Nat → Address
  notNull : ∀ rank call place, pointer rank call place ≠ 0
  apart : ∀ rank call place other, pointer rank call place = pointer rank call other → place = other
  remoteKey : Nat → Region → UInt32

/-- A work request on the send queue of a queue pair; the flags are as for `VerbsRing.SendWork`. -/
structure QueuedSend where
  request : WorkRequest
  call : Nat
  elementCount : Nat
  executed : Bool
  outcome : Int
  acknowledged : Bool

structure QueuedRecv where
  request : WorkRequest
  call : Nat
  elementCount : Nat
  consumed : Bool

/-- `control` holds the descriptors a rank has written and its predecessor has not read yet. -/
structure Ring where
  endpoints : Nat → VerbsTransport
  control : Nat → List ControlMessage
  sends : Nat → List QueuedSend
  recvs : Nat → List QueuedRecv
  cq : Nat → List Offer

def QueuedSend.new (post : Post) (request : WorkRequest) : QueuedSend :=
  { request := request, call := post.call, elementCount := post.elementCount, executed := false
    outcome := 0, acknowledged := false }

def QueuedRecv.new (post : Post) (request : WorkRequest) : QueuedRecv :=
  { request := request, call := post.call, elementCount := post.elementCount, consumed := false }

/-! The calls of a rank. -/

def Ring.setEndpoint (ring : Ring) (rank : Nat) (endpoint : VerbsTransport) : Ring :=
  { ring with endpoints := Function.update ring.endpoints rank endpoint }

/-- After a post: the device and the control socket have what the endpoint gave them. -/
def Ring.posted (ring : Ring) (rank : Nat) (post : Post) (endpoint : VerbsTransport) : Ring :=
  let before := ring.endpoints rank
  let requests := endpoint.posted.drop before.posted.length
  { ring with
    endpoints := Function.update ring.endpoints rank endpoint
    control := Function.update ring.control rank
      (ring.control rank ++ endpoint.descriptors.drop before.descriptors.length)
    sends := Function.update ring.sends rank (ring.sends rank ++
      (requests.filter fun request => request.work.kind = .send).map (.new post))
    recvs := Function.update ring.recvs rank (ring.recvs rank ++
      (requests.filter fun request => request.work.kind = .receive).map (.new post)) }

/-- `verbs_post_send_next` and `verbs_post_recv_prev` turn an exception into a status. -/
def Ring.finish (ring : Ring) (rank : Nat) (post : Post) (memory : Memory Value) :
    CallResult Unit × Option PgRequest → Outcome (Ring × Memory Value) (Option PgRequest)
  | (.returned () endpoint, request) => .done (ring.posted rank post endpoint, memory) request
  | (.threw _ endpoint, _) => .done (ring.posted rank post endpoint, memory) none
  | (.waiting _, _) => .blocked
  | (.undefined, _) => .blocked

def onQueue (endpoint : VerbsTransport) (kind : RequestKind) : Nat :=
  endpoint.posted.countP fun request => request.work.kind = kind

def queueFull : Int := 12

section Calls

variable (platform : Platform) (room : Nat → Bool) (worldSize rank : Nat)

/-- What surrounds a post; the control sockets do not fail. -/
def answers (endpoint : VerbsTransport) (kind : RequestKind) (descriptor : Option ControlMessage) :
    Answers :=
  { descriptor := descriptor
    registration := .ok (platform.remoteKey rank endpoint.regions)
    address := platform.allocate endpoint
    postStatus := if room (onQueue endpoint kind) then 0 else queueFull
    written := true }

def noRequest : Option PgRequest := some { id := 0, internal := 0 }

def postRecv (post : Post) (ring : Ring) (memory : Memory Value) :
    Outcome (Ring × Memory Value) (Option PgRequest) :=
  let endpoint := ring.endpoints rank
  ring.finish rank post memory
    (endpoint.postReceivePrevious (answers platform room rank endpoint .receive none)
      (platform.pointer rank post.call (post.buffer, post.start)) post.bytes post.tag post.mode
      noRequest)

def reads (endpoint : VerbsTransport) (post : Post) : Bool :=
  endpoint.qpNext && 0 ≤ endpoint.nextSocket && post.bytes ≠ 0 && post.bytes ≤ maxUInt32 &&
    (chooseMode post.mode post.bytes).isOk

/-- `read_all` blocks until the next rank has written a descriptor. -/
def postSend (post : Post) (ring : Ring) (memory : Memory Value) :
    Outcome (Ring × Memory Value) (Option PgRequest) :=
  let endpoint := ring.endpoints rank
  let call := fun descriptor =>
    endpoint.postSendNext (answers platform room rank endpoint .send descriptor)
      (platform.pointer rank post.call (post.buffer, post.start)) post.bytes post.tag post.mode
      noRequest
  if reads endpoint post then
    match ring.control (next worldSize rank) with
    | [] => .blocked
    | descriptor :: unread =>
        Ring.finish { ring with control := Function.update ring.control (next worldSize rank) unread }
          rank post memory (call (some descriptor))
  else ring.finish rank post memory (call none)

/-- One turn of `wait_request`: it returns, or it polls one completion. -/
def wait (request : PgRequest) (ring : Ring) (memory : Memory Value) :
    Outcome (Ring × Memory Value) Bool :=
  let endpoint := ring.endpoints rank
  match endpoint.waitRequest [] (some request) with
  | .returned (status, _) after => .done (ring.setEndpoint rank after, memory) (status = 0)
  | .threw _ after => .done (ring.setEndpoint rank after, memory) false
  | .undefined => .blocked
  | .waiting _ =>
      match ring.cq rank with
      | [] => .blocked
      | offer :: rest =>
          let ring := { ring with cq := Function.update ring.cq rank rest }
          match endpoint.waitLoop request.internal [[offer]] with
          | .returned () after => .busy (ring.setEndpoint rank after, memory)
          | .waiting after => .busy (ring.setEndpoint rank after, memory)
          | .threw _ after => .done (ring.setEndpoint rank after, memory) false
          | .undefined => .blocked

end Calls

/-! What the devices do. -/

def source : Work → Address
  | .receive _ => 0
  | .sendWithImm scatterGather _ => scatterGather.address
  | .rdmaWriteWithImm scatterGather _ _ _ => scatterGather.address

/-- Where it is written: an RDMA write has the address itself, for a send the receive has it. -/
def destination (send recv : Work) : Address :=
  match send, recv with
  | .rdmaWriteWithImm _ _ remoteAddress _, _ => remoteAddress
  | _, .receive (some scatterGather) => scatterGather.address
  | _, _ => 0

/-- Any receive will do for an RDMA write; a send needs one with a buffer of its size. -/
def fits (send recv : Work) : Bool :=
  match send, recv with
  | .rdmaWriteWithImm .., _ => true
  | .sendWithImm source _, .receive (some target) => source.length ≤ target.length
  | _, _ => false

/-- The opcodes of the two completions of a send, and its immediate data. -/
def opcodes : Work → WcOpcode × WcOpcode
  | .rdmaWriteWithImm .. => (.rdmaWrite, .recvRdmaWithImm)
  | _ => (.send, .recv)

def immediate : Work → UInt32
  | .receive _ => 0
  | .sendWithImm _ immData => immData
  | .rdmaWriteWithImm _ immData _ _ => immData

def recvOffer (send : QueuedSend) (recv : QueuedRecv) : Offer :=
  { id := recv.request.id, status := if fits send.request.work recv.request.work then 0 else 1
    opcode := (opcodes send.request.work).2, withImm := true
    immData := immediate send.request.work }

def sendOffer (send : QueuedSend) : Offer :=
  { id := send.request.id, status := send.outcome, opcode := (opcodes send.request.work).1
    withImm := false, immData := 0 }

def Ring.execute (ring : Ring) (sender receiver place target : Nat) (send : QueuedSend)
    (recv : QueuedRecv) : Ring :=
  { ring with
    sends := Function.update ring.sends sender ((ring.sends sender).modify place fun queued =>
      { queued with
        executed := true
        outcome := if fits send.request.work recv.request.work then 0 else 11 })
    recvs := Function.update ring.recvs receiver ((ring.recvs receiver).modify target
      fun queued => { queued with consumed := true })
    cq := Function.update ring.cq receiver (ring.cq receiver ++ [recvOffer send recv]) }

def Ring.acknowledge (ring : Ring) (sender place : Nat) (send : QueuedSend) : Ring :=
  { ring with
    sends := Function.update ring.sends sender ((ring.sends sender).modify place fun queued =>
      { queued with acknowledged := true })
    cq := Function.update ring.cq sender (ring.cq sender ++ [sendOffer send]) }

/-- The memory of the receiver after the elements at `origin` have been moved to `target`. -/
def moveData (before after : Memory Value) (send : QueuedSend) (recv : QueuedRecv)
    (origin target : Buffer × Nat) : Memory Value :=
  if fits send.request.work recv.request.work then
    after.store target.1 target.2 (before.load origin.1 origin.2 send.elementCount)
  else after

inductive DeviceStep (platform : Platform) (worldSize : Nat) (ring : Ring)
    (memory : Nat → Memory Value) : Ring → (Nat → Memory Value) → Prop
  | execute (sender place target : Nat) (send : QueuedSend) (recv : QueuedRecv)
      (origin goal : Buffer × Nat) (bound : sender < worldSize)
      (isSend : (ring.sends sender)[place]? = some send) (unexecuted : send.executed = false)
      (sendsBefore : ∀ earlier < place, ∀ queued, (ring.sends sender)[earlier]? = some queued →
        queued.executed = true)
      (isRecv : (ring.recvs (next worldSize sender))[target]? = some recv)
      (unconsumed : recv.consumed = false)
      (recvsBefore : ∀ earlier < target, ∀ queued,
        (ring.recvs (next worldSize sender))[earlier]? = some queued → queued.consumed = true)
      (found : fits send.request.work recv.request.work = true →
        platform.pointer sender send.call origin = source send.request.work ∧
          platform.pointer (next worldSize sender) recv.call goal =
            destination send.request.work recv.request.work) :
      DeviceStep platform worldSize ring memory
        (ring.execute sender (next worldSize sender) place target send recv)
        (Function.update memory (next worldSize sender)
          (moveData (memory sender) (memory (next worldSize sender)) send recv origin goal))
  | acknowledge (sender place : Nat) (send : QueuedSend) (bound : sender < worldSize)
      (isSend : (ring.sends sender)[place]? = some send) (executed : send.executed = true)
      (unacknowledged : send.acknowledged = false) :
      DeviceStep platform worldSize ring memory (ring.acknowledge sender place send) memory

def endpointTransport (Value : Type) (platform : Platform) (room : Nat → Bool) (worldSize : Nat) :
    Transport Value Ring PgRequest where
  postRecv := postRecv platform room
  postSend := postSend platform room worldSize
  wait := wait
  background := DeviceStep platform worldSize

/-- What `connect_process_group` leaves to every rank; `sockets` are its two control sockets. -/
def connected (sockets : Nat → Nat × Nat) : Ring :=
  { endpoints := fun rank => unused true true (sockets rank).1 (sockets rank).2
    control := fun _ => [], sends := fun _ => [], recvs := fun _ => [], cq := fun _ => [] }

abbrev EndpointWorld (Value : Type) : Type := World Value Ring PgRequest

def EndpointReachable (platform : Platform) (room : Nat → Bool) (sockets : Nat → Nat × Nat)
    (setup : Setup Value) (world : EndpointWorld Value) : Prop :=
  Reachable setup (endpointTransport Value platform room setup.worldSize) (connected sockets) world

/-- The run in which the given ranks take a step each, if they all can. -/
def endpointFollow (platform : Platform) (room : Nat → Bool) (sockets : Nat → Nat × Nat)
    (setup : Setup Value) (moves : List Nat) : Option (EndpointWorld Value) :=
  Runs.follow (fun rank world => if rank < setup.worldSize then
    rankStep setup (endpointTransport Value platform room setup.worldSize) rank world else none) moves
    (initialWorld setup (connected sockets))

theorem endpointReachable_of_follow {platform : Platform} {room : Nat → Bool}
    {sockets : Nat → Nat × Nat} {setup : Setup Value} {moves : List Nat} {world : EndpointWorld Value}
    (followed : endpointFollow platform room sockets setup moves = some world) :
    EndpointReachable platform room sockets setup world := by
  apply Runs.reachable_of_follow _ followed
  intro rank before after moved
  split at moved
  · exact .rank rank ‹_› moved
  · simp at moved

end RingAllReduce.EndpointRing
