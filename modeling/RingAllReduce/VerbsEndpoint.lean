import Mathlib.Algebra.Ring.Nat
import Mathlib.Logic.Function.Basic
import Mathlib.Data.List.Perm.Basic
import RingAllReduce.Library.TagQueue
import RingAllReduce.Library.Runs
import RingAllReduce.MockTransport

/-!
`verbs_transport.cpp`: one `VerbsTransport` and the calls its rank makes on it. What the device,
the allocator and the control sockets answer is an input of each call. A `RequestState*` is an
address that is free again once the state is deleted, and `wr_id` is that address.
-/

namespace RingAllReduce

def TransferMode.code : TransferMode → UInt32
  | .auto => 0
  | .eager => 1
  | .rendezvous => 2
  | .other code => UInt32.ofInt code

namespace VerbsTransport

/-- A pointer; 0 is `nullptr`. -/
abbrev Address := Nat

/-- An `ibv_mr*`, numbered in the order of registration. -/
abbrev Region := Nat

structure RequestState where
  kind : RequestKind
  id : Nat
  tag : UInt32
  mode : TransferMode
  memoryRegion : Option Region
  completed : Bool
  status : Int
  deriving DecidableEq, Repr

structure PgRequest where
  id : Nat
  internal : Address
  deriving DecidableEq, Repr

structure ControlMessage where
  magic : UInt32
  tag : UInt32
  remoteAddress : Address
  remoteKey : UInt32
  bytes : UInt32
  mode : UInt32
  reserved : UInt32
  deriving DecidableEq, Repr

def kControlMagic : UInt32 := 0x52444d41

def kEagerThresholdBytes : Nat := 4 * 1024

structure ScatterGather where
  address : Address
  length : UInt32
  region : Region
  deriving DecidableEq, Repr

inductive Work where
  | receive (scatterGather : Option ScatterGather)
  | sendWithImm (scatterGather : ScatterGather) (immData : UInt32)
  | rdmaWriteWithImm (scatterGather : ScatterGather) (immData : UInt32)
      (remoteAddress : Address) (remoteKey : UInt32)
  deriving DecidableEq, Repr

/-- Receives are posted to `qp_prev_`, the rest to `qp_next_`. -/
def Work.kind : Work → RequestKind
  | .receive _ => .receive
  | .sendWithImm .. => .send
  | .rdmaWriteWithImm .. => .send

/-- A posted work request. `id` names the request it was posted for; the device knows `wrId`. -/
structure WorkRequest where
  wrId : Address
  id : Nat
  work : Work
  deriving DecidableEq, Repr

inductive WcOpcode where
  | send
  | rdmaWrite
  | recv
  | recvRdmaWithImm
  | other (code : Nat)
  deriving DecidableEq, Repr

/-- `ibv_wc`. `status` is 0 for `IBV_WC_SUCCESS`; `immData` is in network byte order. -/
structure WorkCompletion where
  wrId : Address
  status : Int
  opcode : WcOpcode
  withImm : Bool
  immData : UInt32
  deriving DecidableEq, Repr

/-- What happens to the resources of a transport. No code reads it. -/
inductive Event where
  | regMr (region : Region)
  | deregMr (region : Region)
  | newState (id : Nat)
  | deleteState (id : Nat)
  | postWork (id : Nat) (kind : RequestKind) (region : Region)
  | pollWork (id : Nat) (completion : WorkCompletion)
  | destroyQp (kind : RequestKind)
  deriving DecidableEq, Repr

end VerbsTransport

open VerbsTransport in
/-- The fields of `VerbsTransport`, with the states it has allocated (`heap`), the work requests
on its queue pairs that were not polled yet (`posted`) and the descriptors it has written. `qpNext`
and `qpPrev` tell whether the queue pairs exist. -/
structure VerbsTransport where
  qpNext : Bool
  qpPrev : Bool
  nextSocket : Int
  previousSocket : Int
  nextRequestId : Nat
  pendingRequests : List Address
  heap : Address → Option VerbsTransport.RequestState
  regions : Region
  posted : List WorkRequest
  descriptors : List ControlMessage
  trace : List Event

namespace VerbsTransport

def unused (qpNext qpPrev : Bool) (nextSocket previousSocket : Int) : VerbsTransport :=
  { qpNext := qpNext, qpPrev := qpPrev, nextSocket := nextSocket, previousSocket := previousSocket
    nextRequestId := 1, pendingRequests := [], heap := fun _ => none, regions := 1, posted := []
    descriptors := [], trace := [] }

/-- How a call ends: it returns or throws a `std::runtime_error`. A call that is `waiting` has not
ended, and one that is `undefined` has used a `RequestState` that does not exist. -/
inductive CallResult (Answer : Type) where
  | returned (answer : Answer) (transport : VerbsTransport)
  | threw (error : String) (transport : VerbsTransport)
  | waiting (transport : VerbsTransport)
  | undefined

def CallResult.bind {Answer Next : Type} (result : CallResult Answer)
    (continuation : Answer → VerbsTransport → CallResult Next) : CallResult Next :=
  match result with
  | .returned answer transport => continuation answer transport
  | .threw error transport => .threw error transport
  | .waiting transport => .waiting transport
  | .undefined => .undefined

/-- What surrounds a post: the descriptor `read_all` gets, `ibv_reg_mr`'s `rkey` or its error, the
address `new` returns, the status of `ibv_post_recv` or `ibv_post_send`, and whether `write_all`
succeeds. -/
structure Answers where
  descriptor : Option ControlMessage
  registration : Except String UInt32
  address : Address
  postStatus : Int
  written : Bool

def chooseMode (requestedMode : TransferMode) (bytes : Nat) : Except String TransferMode :=
  match requestedMode with
  | .eager => .ok .eager
  | .rendezvous => .ok .rendezvous
  | .other _ => .error "Unsupported transfer mode"
  | .auto => .ok (if bytes ≤ kEagerThresholdBytes then .eager else .rendezvous)

def reverseBytes (value : Nat) : Nat :=
  value % 256 * 2 ^ 24 + value / 2 ^ 8 % 256 * 2 ^ 16 + value / 2 ^ 16 % 256 * 2 ^ 8 +
    value / 2 ^ 24

/-- On a little-endian host. -/
def htonl (host : UInt32) : UInt32 := UInt32.ofNat (reverseBytes host.toNat)

def ntohl (network : UInt32) : UInt32 := htonl network

/-! The steps the two posts have in common. -/

def registerMemory (transport : VerbsTransport) (answers : Answers) (address : Address)
    (length : Nat) : Except String (Region × UInt32 × VerbsTransport) :=
  if address = 0 ∨ length = 0 then .error "Cannot register an empty buffer"
  else
    match answers.registration with
    | .error reason => .error ("ibv_reg_mr failed: " ++ reason)
    | .ok remoteKey =>
        let region := transport.regions
        .ok (region, remoteKey,
          { transport with regions := region + 1, trace := transport.trace ++ [.regMr region] })

/-- `new RequestState()` at `address`, its fields set, and `pending_requests_.insert`. -/
def newRequest (transport : VerbsTransport) (address : Address) (kind : RequestKind)
    (tag : UInt32) (mode : TransferMode) (region : Region) : VerbsTransport :=
  let id := transport.nextRequestId
  let state : RequestState :=
    { kind := kind, id := id, tag := tag, mode := mode, memoryRegion := some region
      completed := false, status := 0 }
  { transport with
    nextRequestId := id + 1
    pendingRequests := transport.pendingRequests.insert address
    heap := Function.update transport.heap address (some state)
    trace := transport.trace ++ [.newState id] }

/-- A post from `register_memory` on: the work request is built and given to `function`. An
exception carries the transport it leaves. -/
def submit (transport : VerbsTransport) (answers : Answers) (function : String) (buffer : Address)
    (bytes : Nat) (tag : UInt32) (mode : TransferMode) (work : Region → Work) :
    Except (String × VerbsTransport) (PgRequest × UInt32 × VerbsTransport) :=
  match transport.registerMemory answers buffer bytes with
  | .error text => .error (text, transport)
  | .ok (region, remoteKey, transport) =>
      let id := transport.nextRequestId
      let address := answers.address
      let kind := (work region).kind
      let transport := transport.newRequest address kind tag mode region
      if answers.postStatus ≠ 0 then
        .error (function ++ " failed with code " ++ toString answers.postStatus,
          { transport with
            pendingRequests := transport.pendingRequests.erase address
            heap := Function.update transport.heap address none
            trace := transport.trace ++ [.deregMr region, .deleteState id] })
      else
        let request : WorkRequest := { wrId := address, id := id, work := work region }
        .ok ({ id := id, internal := address }, remoteKey,
          { transport with
            posted := transport.posted ++ [request]
            trace := transport.trace ++ [.postWork id kind region] })

def maxUInt32 : Nat := 2 ^ 32 - 1

def receiveWork (buffer : Address) (bytes : Nat) (mode : TransferMode) (region : Region) : Work :=
  .receive (if mode = .eager then
    some { address := buffer, length := UInt32.ofNat bytes, region := region } else none)

def sendWork (buffer : Address) (bytes : Nat) (tag : UInt32) (mode : TransferMode)
    (control : ControlMessage) (region : Region) : Work :=
  let source : ScatterGather :=
    { address := buffer, length := UInt32.ofNat bytes, region := region }
  if mode = .eager then .sendWithImm source (htonl tag)
  else .rdmaWriteWithImm source (htonl tag) control.remoteAddress control.remoteKey

theorem sendWork_kind (buffer : Address) (bytes : Nat) (tag : UInt32) (mode : TransferMode)
    (control : ControlMessage) (region : Region) :
    (sendWork buffer bytes tag mode control region).kind = .send := by
  unfold sendWork
  split <;> rfl

/-- `post_receive_previous`, with the caller's request as the call leaves it. -/
def postReceivePrevious (transport : VerbsTransport) (answers : Answers) (buffer : Address)
    (bytes : Nat) (tag : UInt32) (requestedMode : TransferMode) (request : Option PgRequest) :
    CallResult Unit × Option PgRequest :=
  if transport.qpPrev = false ∨ transport.previousSocket < 0 ∨ buffer = 0 ∨ bytes = 0 ∨
      request.all fun handle => handle.internal ≠ 0 then
    (.threw "Invalid receive request" transport, request)
  else if bytes > maxUInt32 then (.threw "Receive request is too large" transport, request)
  else
    match chooseMode requestedMode bytes with
    | .error text => (.threw text transport, request)
    | .ok mode =>
        match transport.submit answers "ibv_post_recv" buffer bytes tag mode
            (receiveWork buffer bytes mode) with
        | .error (text, transport) => (.threw text transport, request)
        | .ok (handle, remoteKey, transport) =>
            let control : ControlMessage :=
              { magic := kControlMagic, tag := tag, remoteAddress := buffer, remoteKey := remoteKey
                bytes := UInt32.ofNat bytes, mode := mode.code, reserved := 0 }
            if answers.written then
              (.returned () { transport with descriptors := transport.descriptors ++ [control] },
                some handle)
            else
              (.threw "Failed to send rendezvous descriptor to previous rank" transport,
                some handle)

def postSendNext (transport : VerbsTransport) (answers : Answers) (buffer : Address)
    (bytes : Nat) (tag : UInt32) (requestedMode : TransferMode) (request : Option PgRequest) :
    CallResult Unit × Option PgRequest :=
  if transport.qpNext = false ∨ transport.nextSocket < 0 ∨ buffer = 0 ∨ bytes = 0 ∨
      request.all fun handle => handle.internal ≠ 0 then
    (.threw "Invalid send request" transport, request)
  else if bytes > maxUInt32 then (.threw "Send request is too large" transport, request)
  else
    match chooseMode requestedMode bytes with
    | .error text => (.threw text transport, request)
    | .ok mode =>
        match answers.descriptor with
        | none =>
            (.threw "Failed to receive rendezvous descriptor from next rank" transport, request)
        | some control =>
            if control.magic ≠ kControlMagic ∨ control.tag ≠ tag ∨ control.bytes.toNat ≠ bytes ∨
                control.mode ≠ mode.code then
              (.threw ("Control descriptor mismatch: expected tag=" ++ toString tag ++ " bytes=" ++
                toString bytes ++ " mode=" ++ toString mode.code ++ ", received tag=" ++
                toString control.tag ++ " bytes=" ++ toString control.bytes ++ " mode=" ++
                toString control.mode) transport, request)
            else
              match transport.submit answers "ibv_post_send" buffer bytes tag mode
                  (sendWork buffer bytes tag mode control) with
              | .error (text, transport) => (.threw text transport, request)
              | .ok (handle, _, transport) => (.returned () transport, some handle)

/-! Polling. -/

/-- One completion the device has ready: which work request it is of and what it says. -/
structure Offer where
  id : Nat
  status : Int
  opcode : WcOpcode
  withImm : Bool
  immData : UInt32

/-- The work requests that complete leave the queue pairs; each completes once. -/
def complete (transport : VerbsTransport) : List Offer → List WorkCompletion × VerbsTransport
  | [] => ([], transport)
  | offer :: offers =>
      match TagQueue.takeFirst WorkRequest.id offer.id transport.posted with
      | none => transport.complete offers
      | some (request, posted) =>
          let completion : WorkCompletion :=
            { wrId := request.wrId, status := offer.status, opcode := offer.opcode
              withImm := offer.withImm, immData := offer.immData }
          let (completions, transport) := complete
            { transport with
              posted := posted
              trace := transport.trace ++ [.pollWork request.id completion] } offers
          (completion :: completions, transport)

def ibvPollCq (transport : VerbsTransport) (limit : Nat) (offers : List Offer) :
    List WorkCompletion × VerbsTransport :=
  transport.complete (offers.take limit)

def unknownWrId : String := "Completion contained an unknown wr_id"

def handleCompletion (transport : VerbsTransport) (completion : WorkCompletion) :
    CallResult Unit :=
  let address := completion.wrId
  if address = 0 ∨ address ∉ transport.pendingRequests then
    .threw unknownWrId transport
  else
    match transport.heap address with
    | none => .undefined
    | some state =>
        let record (state : RequestState) : CallResult Unit :=
          .returned () { transport with
            heap := Function.update transport.heap address (some { state with completed := true }) }
        if completion.status ≠ 0 then record { state with status := -1 }
        else
          match state.kind with
          | .send =>
              if (state.mode = .eager ∧ completion.opcode = .send) ∨
                  (state.mode = .rendezvous ∧ completion.opcode = .rdmaWrite) then record state
              else record { state with status := -1 }
          | .receive =>
              if ¬((state.mode = .eager ∧ completion.opcode = .recv) ∨
                    (state.mode = .rendezvous ∧ completion.opcode = .recvRdmaWithImm)) ∨
                  completion.withImm = false ∨ ntohl completion.immData ≠ state.tag then
                record { state with status := -1 }
              else record state

def handleAll (transport : VerbsTransport) : List WorkCompletion → CallResult Unit
  | [] => .returned () transport
  | completion :: completions =>
      (transport.handleCompletion completion).bind fun _ transport =>
        transport.handleAll completions

/-- `poll_available`, with what each `ibv_poll_cq` finds. It ends at the first that finds
nothing. -/
def pollAvailable (transport : VerbsTransport) : List (List Offer) → Nat → CallResult Nat
  | [], processed => .returned processed transport
  | offers :: polls, processed =>
      match transport.ibvPollCq 16 offers with
      | ([], transport) => .returned processed transport
      | (completions, transport) =>
          (transport.handleAll completions).bind fun _ transport =>
            transport.pollAvailable polls (processed + completions.length)

/-- The loops of `wait_request` and `poll_one_blocking`, with what each `ibv_poll_cq` finds.
Between two polls that find nothing no state changes, so that `completed` may be read again. -/
def waitLoop (transport : VerbsTransport) (address : Address) : List (List Offer) → CallResult Unit
  | [] =>
      match transport.heap address with
      | none => .undefined
      | some state => if state.completed then .returned () transport else .waiting transport
  | offers :: polls =>
      match transport.heap address with
      | none => .undefined
      | some state =>
          if state.completed then .returned () transport
          else
            match transport.ibvPollCq 1 offers with
            | ([], transport) => transport.waitLoop address polls
            | (completion :: _, transport) =>
                (transport.handleCompletion completion).bind fun _ transport =>
                  transport.waitLoop address polls

def release (transport : VerbsTransport) (address : Address) : Option VerbsTransport :=
  (transport.heap address).map fun state =>
    { transport with
      heap := Function.update transport.heap address none
      trace := transport.trace ++ state.memoryRegion.toList.map .deregMr ++ [.deleteState state.id] }

def consumeRequest (transport : VerbsTransport) (request : PgRequest) : CallResult PgRequest :=
  match transport.release request.internal with
  | none => .undefined
  | some transport =>
      .returned { id := 0, internal := 0 } { transport with
        pendingRequests := transport.pendingRequests.erase request.internal }

/-- `test_request`; `asked` tells whether `completed` is non-null. The answer is the status and
what is stored in `*completed`. -/
def testRequest (transport : VerbsTransport) (polls : List (List Offer))
    (request : Option PgRequest) (asked : Bool) : CallResult (Int × Option Int) :=
  match request with
  | none => .returned (-1, none) transport
  | some handle =>
      if handle.internal = 0 ∨ asked = false then .returned (-1, none) transport
      else if handle.internal ∉ transport.pendingRequests then .returned (-1, none) transport
      else
        match transport.heap handle.internal with
        | none => .undefined
        | some state =>
            let polled :=
              if state.completed then .returned 0 transport else transport.pollAvailable polls 0
            polled.bind fun _ transport =>
              match transport.heap handle.internal with
              | none => .undefined
              | some state => .returned (0, some (if state.completed then 1 else 0)) transport

def waitRequest (transport : VerbsTransport) (polls : List (List Offer))
    (request : Option PgRequest) : CallResult (Int × Option PgRequest) :=
  match request with
  | none => .returned (-1, none) transport
  | some handle =>
      if handle.internal = 0 then .returned (-1, request) transport
      else if handle.internal ∉ transport.pendingRequests then .returned (-1, request) transport
      else
        (transport.waitLoop handle.internal polls).bind fun _ transport =>
          match transport.heap handle.internal with
          | none => .undefined
          | some state =>
              (transport.consumeRequest handle).bind fun handle transport =>
                .returned (state.status, some handle) transport

def progress (transport : VerbsTransport) (polls : List (List Offer)) : CallResult Int :=
  (transport.pollAvailable polls 0).bind fun _ transport => .returned 0 transport

/-! The destructor. -/

/-- `ibv_destroy_qp`: what was posted to the queue pair is flushed. -/
def destroyQp (transport : VerbsTransport) (kind : RequestKind) : VerbsTransport :=
  { transport with
    posted := transport.posted.filter fun request => request.work.kind ≠ kind
    trace := transport.trace ++ [.destroyQp kind] }

def releaseAll (transport : VerbsTransport) : List Address → Option VerbsTransport
  | [] => some transport
  | address :: addresses =>
      match transport.release address with
      | none => none
      | some transport => transport.releaseAll addresses

def destroyQps (transport : VerbsTransport) : VerbsTransport :=
  let transport :=
    if transport.qpNext then { transport.destroyQp .send with qpNext := false } else transport
  if transport.qpPrev then { transport.destroyQp .receive with qpPrev := false } else transport

/-- `~VerbsTransport`; `order` is how `pending_requests_` is iterated. -/
def destroy (transport : VerbsTransport) (order : List Address) : CallResult Unit :=
  let transport := { transport with nextSocket := -1, previousSocket := -1 }
  match transport.destroyQps.releaseAll order with
  | none => .undefined
  | some transport => .returned () { transport with pendingRequests := [] }

/-! A rank's use of its transport. -/

inductive Operation where
  | postReceivePrevious (answers : Answers) (buffer : Address) (bytes : Nat) (tag : UInt32)
      (mode : TransferMode) (request : Option PgRequest)
  | postSendNext (answers : Answers) (buffer : Address) (bytes : Nat) (tag : UInt32)
      (mode : TransferMode) (request : Option PgRequest)
  | testRequest (polls : List (List Offer)) (request : Option PgRequest) (asked : Bool)
  | waitRequest (polls : List (List Offer)) (request : Option PgRequest)
  | progress (polls : List (List Offer))

def CallResult.transport? {Answer : Type} : CallResult Answer → Option VerbsTransport
  | .returned _ transport => some transport
  | .threw _ transport => some transport
  | .waiting _ => none
  | .undefined => none

def CallResult.forget {Answer : Type} (result : CallResult Answer) : CallResult Unit :=
  result.bind fun _ transport => .returned () transport

def call (transport : VerbsTransport) : Operation → CallResult Unit
  | .postReceivePrevious answers buffer bytes tag mode request =>
      (transport.postReceivePrevious answers buffer bytes tag mode request).1
  | .postSendNext answers buffer bytes tag mode request =>
      (transport.postSendNext answers buffer bytes tag mode request).1
  | .testRequest polls request asked => (transport.testRequest polls request asked).forget
  | .waitRequest polls request => (transport.waitRequest polls request).forget
  | .progress polls => (transport.progress polls).forget

/-- An address that was in use before may be returned again. -/
def Fresh (transport : VerbsTransport) (answers : Answers) : Prop :=
  answers.address ≠ 0 ∧ transport.heap answers.address = none

def Feasible (transport : VerbsTransport) : Operation → Prop
  | .postReceivePrevious answers .. => transport.Fresh answers
  | .postSendNext answers .. => transport.Fresh answers
  | _ => True

def Step (before after : VerbsTransport) : Prop :=
  ∃ operation, before.Feasible operation ∧ (before.call operation).transport? = some after

end VerbsTransport

end RingAllReduce
