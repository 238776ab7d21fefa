import RingAllReduce.Execution
import RingAllReduce.Library.Rotation
import RingAllReduce.RequestStates

/-!
A ring of `VerbsTransport`s, as the collectives use them. A control socket is a reliable stream. An
RC queue pair executes the send work requests posted to it in order, each of them consumes the
oldest receive work request of its peer, and all completions of a rank go to its one completion
queue. `room` tells whether a queue with so many work requests on it takes another one.
-/

namespace RingAllReduce.VerbsRing

open Rotation VerbsTransport

variable {Value : Type}

/-- A `RequestState*`: the requests of a rank are told by their kind and their place among those of
that kind. -/
abbrev Handle : Type := RequestKind × Nat

/-- `ControlMessage`; an address is a buffer and the element of it that is pointed to. -/
structure Descriptor where
  magic : UInt32
  tag : UInt32
  remoteAddress : Buffer × Nat
  bytes : UInt32
  mode : UInt32
  deriving DecidableEq, Repr

/-- A send work request and its `RequestState`. `outcome` is the `ibv_wc_status` of its execution;
it is `acknowledged` once its completion is on the completion queue. -/
structure SendWork where
  post : Post
  control : Descriptor
  state : VerbsTransport.RequestState
  executed : Bool
  outcome : Int
  acknowledged : Bool
  deriving DecidableEq, Repr

structure RecvWork where
  post : Post
  state : VerbsTransport.RequestState
  consumed : Bool
  deriving DecidableEq, Repr

/-- The descriptor a receive is announced by. -/
def RecvWork.descriptor (work : RecvWork) : Descriptor :=
  { magic := kControlMagic, tag := work.post.tag,
    remoteAddress := (work.post.buffer, work.post.start), bytes := UInt32.ofNat work.post.bytes,
    mode := work.state.mode.code }

/-- `control` holds the descriptors a rank has written and its predecessor has not read yet. -/
structure Fabric where
  control : Nat → List Descriptor
  sends : Nat → List SendWork
  recvs : Nat → List RecvWork
  cq : Nat → List (Handle × WorkCompletion)

def unpolledSends (works : List SendWork) : Nat := works.countP fun work => !work.state.completed

def unpolledRecvs (works : List RecvWork) : Nat := works.countP fun work => !work.state.completed

def Fabric.newState (fabric : Fabric) (rank : Nat) (kind : RequestKind) (post : Post)
    (mode : TransferMode) : VerbsTransport.RequestState :=
  let id := (fabric.sends rank).length + (fabric.recvs rank).length + 1
  { kind := kind, id := id, tag := post.tag, mode := mode, memoryRegion := some id,
    completed := false, status := 0 }

def Fabric.receiveWork (fabric : Fabric) (rank : Nat) (post : Post) (mode : TransferMode) :
    RecvWork :=
  { post := post, state := fabric.newState rank .receive post mode, consumed := false }

def Fabric.sendWork (fabric : Fabric) (rank : Nat) (post : Post) (mode : TransferMode)
    (control : Descriptor) : SendWork :=
  { post := post, control := control, state := fabric.newState rank .send post mode,
    executed := false, outcome := 0, acknowledged := false }

/-- A receive is posted, and announced to the previous rank. -/
def Fabric.addRecv (fabric : Fabric) (rank : Nat) (work : RecvWork) : Fabric :=
  { fabric with
    recvs := Function.update fabric.recvs rank (fabric.recvs rank ++ [work])
    control := Function.update fabric.control rank (fabric.control rank ++ [work.descriptor]) }

def Fabric.addSend (fabric : Fabric) (rank : Nat) (work : SendWork) : Fabric :=
  { fabric with sends := Function.update fabric.sends rank (fabric.sends rank ++ [work]) }

/-- A descriptor is read; `unread` is what remains. -/
def Fabric.read (fabric : Fabric) (writer : Nat) (unread : List Descriptor) : Fabric :=
  { fabric with control := Function.update fabric.control writer unread }

/-- `post_receive_previous`; an exception becomes a status other than 0. -/
def postReceivePrevious (room : Nat → Bool) (rank : Nat) (post : Post) (fabric : Fabric)
    (memory : Memory Value) : Outcome (Fabric × Memory Value) (Option Handle) :=
  if post.bytes = 0 ∨ post.bytes > maxUInt32 then .done (fabric, memory) none
  else
    match chooseMode post.mode post.bytes with
    | .error _ => .done (fabric, memory) none
    | .ok mode =>
        if room (unpolledRecvs (fabric.recvs rank)) = false then .done (fabric, memory) none
        else
          .done (fabric.addRecv rank (fabric.receiveWork rank post mode), memory)
            (some (.receive, (fabric.recvs rank).length))

def Mismatch (control : Descriptor) (post : Post) (mode : TransferMode) : Prop :=
  control.magic ≠ kControlMagic ∨ control.tag ≠ post.tag ∨ control.bytes.toNat ≠ post.bytes ∨
    control.mode ≠ mode.code

instance (control : Descriptor) (post : Post) (mode : TransferMode) :
    Decidable (Mismatch control post mode) := inferInstanceAs (Decidable (_ ∨ _))

/-- `post_send_next`. `read_all` blocks until the next rank has written a descriptor. -/
def postSendNext (room : Nat → Bool) (worldSize rank : Nat) (post : Post) (fabric : Fabric)
    (memory : Memory Value) : Outcome (Fabric × Memory Value) (Option Handle) :=
  if post.bytes = 0 ∨ post.bytes > maxUInt32 then .done (fabric, memory) none
  else
    match chooseMode post.mode post.bytes with
    | .error _ => .done (fabric, memory) none
    | .ok mode =>
        match fabric.control (next worldSize rank) with
        | [] => .blocked
        | control :: unread =>
            let fabric := fabric.read (next worldSize rank) unread
            if Mismatch control post mode then .done (fabric, memory) none
            else if room (unpolledSends (fabric.sends rank)) = false then
              .done (fabric, memory) none
            else
              .done (fabric.addSend rank (fabric.sendWork rank post mode control), memory)
                (some (.send, (fabric.sends rank).length))

def Fabric.stateOf (fabric : Fabric) (rank : Nat) : Handle → Option VerbsTransport.RequestState
  | (.send, place) => (fabric.sends rank)[place]?.map SendWork.state
  | (.receive, place) => (fabric.recvs rank)[place]?.map RecvWork.state

/-- `ibv_poll_cq` and `handle_completion`, on what is first on the completion queue. -/
def Fabric.poll (fabric : Fabric) (rank : Nat) : Option Fabric :=
  match fabric.cq rank with
  | [] => none
  | (handle, completion) :: rest =>
      let fabric := { fabric with cq := Function.update fabric.cq rank rest }
      match handle with
      | (.send, place) => some { fabric with
          sends := Function.update fabric.sends rank ((fabric.sends rank).modify place fun work =>
            { work with state := work.state.recorded completion }) }
      | (.receive, place) => some { fabric with
          recvs := Function.update fabric.recvs rank ((fabric.recvs rank).modify place fun work =>
            { work with state := work.state.recorded completion }) }

/-- `wait_request`: it polls one completion after the other until its own request is complete. -/
def waitRequest (rank : Nat) (handle : Handle) (fabric : Fabric) (memory : Memory Value) :
    Outcome (Fabric × Memory Value) Bool :=
  match fabric.stateOf rank handle with
  | none => .done (fabric, memory) false
  | some state =>
      if state.completed then .done (fabric, memory) (state.status = 0)
      else
        match fabric.poll rank with
        | none => .blocked
        | some fabric => .busy (fabric, memory)

/-! What the device does. -/

/-- An eager send needs a receive that names a buffer of its size. -/
def SendWork.fits (send : SendWork) (recv : RecvWork) : Bool :=
  send.state.mode ≠ .eager ∨ recv.state.mode = .eager ∧ send.post.bytes ≤ recv.post.bytes

/-- Where the data of a send goes: to the buffer of the receive it consumes, or to the address in
the descriptor it was posted for. -/
def SendWork.destination (send : SendWork) (recv : RecvWork) : Buffer × Nat :=
  if send.state.mode = .eager then (recv.post.buffer, recv.post.start)
  else send.control.remoteAddress

def recvCompletion (send : SendWork) (recv : RecvWork) (place : Nat) : WorkCompletion :=
  { wrId := place + 1, status := if send.fits recv then 0 else 1,
    opcode := if send.state.mode = .eager then .recv else .recvRdmaWithImm, withImm := true,
    immData := htonl send.post.tag }

def sendCompletion (send : SendWork) (place : Nat) : WorkCompletion :=
  { wrId := place + 1, status := send.outcome,
    opcode := if send.state.mode = .eager then .send else .rdmaWrite, withImm := false,
    immData := 0 }

def Fabric.execute (fabric : Fabric) (sender receiver place target : Nat) (send : SendWork)
    (recv : RecvWork) : Fabric :=
  { fabric with
    sends := Function.update fabric.sends sender ((fabric.sends sender).modify place fun work =>
      { work with executed := true, outcome := if send.fits recv then 0 else 11 })
    recvs := Function.update fabric.recvs receiver ((fabric.recvs receiver).modify target
      fun work => { work with consumed := true })
    cq := Function.update fabric.cq receiver
      (fabric.cq receiver ++ [((.receive, target), recvCompletion send recv target)]) }

def Fabric.acknowledge (fabric : Fabric) (sender place : Nat) (send : SendWork) : Fabric :=
  { fabric with
    sends := Function.update fabric.sends sender ((fabric.sends sender).modify place fun work =>
      { work with acknowledged := true })
    cq := Function.update fabric.cq sender
      (fabric.cq sender ++ [((.send, place), sendCompletion send place)]) }

def moveData (source target : Memory Value) (send : SendWork) (recv : RecvWork) : Memory Value :=
  if send.fits recv then
    target.store (send.destination recv).1 (send.destination recv).2
      (source.load send.post.buffer send.post.start send.post.elementCount)
  else target

inductive DeviceStep (worldSize : Nat) (fabric : Fabric) (memory : Nat → Memory Value) :
    Fabric → (Nat → Memory Value) → Prop
  | execute (sender place target : Nat) (send : SendWork) (recv : RecvWork)
      (bound : sender < worldSize) (isSend : (fabric.sends sender)[place]? = some send)
      (unexecuted : send.executed = false)
      (sendsBefore : ∀ earlier < place, ∀ work, (fabric.sends sender)[earlier]? = some work →
        work.executed = true)
      (isRecv : (fabric.recvs (next worldSize sender))[target]? = some recv)
      (unconsumed : recv.consumed = false)
      (recvsBefore : ∀ earlier < target, ∀ work,
        (fabric.recvs (next worldSize sender))[earlier]? = some work → work.consumed = true) :
      DeviceStep worldSize fabric memory
        (fabric.execute sender (next worldSize sender) place target send recv)
        (Function.update memory (next worldSize sender)
          (moveData (memory sender) (memory (next worldSize sender)) send recv))
  | acknowledge (sender place : Nat) (send : SendWork) (bound : sender < worldSize)
      (isSend : (fabric.sends sender)[place]? = some send) (executed : send.executed = true)
      (unacknowledged : send.acknowledged = false) :
      DeviceStep worldSize fabric memory (fabric.acknowledge sender place send) memory

def verbsTransport (Value : Type) (room : Nat → Bool) (worldSize : Nat) :
    Transport Value Fabric Handle where
  postRecv := postReceivePrevious room
  postSend := postSendNext room worldSize
  wait := waitRequest
  background := DeviceStep worldSize

/-- Connected queue pairs with nothing posted. -/
def idleFabric : Fabric :=
  { control := fun _ => [], sends := fun _ => [], recvs := fun _ => [], cq := fun _ => [] }

abbrev VerbsWorld (Value : Type) : Type := World Value Fabric Handle

def VerbsReachable (room : Nat → Bool) (setup : Setup Value) (world : VerbsWorld Value) : Prop :=
  Reachable setup (verbsTransport Value room setup.worldSize) idleFabric world

/-- The run in which the given ranks take a step each, if they all can. -/
def verbsFollow (room : Nat → Bool) (setup : Setup Value) (moves : List Nat) :
    Option (VerbsWorld Value) :=
  Runs.follow (fun rank world => if rank < setup.worldSize then
    rankStep setup (verbsTransport Value room setup.worldSize) rank world else none) moves
    (initialWorld setup idleFabric)

theorem verbsReachable_of_follow {room : Nat → Bool} {setup : Setup Value} {moves : List Nat}
    {world : VerbsWorld Value} (followed : verbsFollow room setup moves = some world) :
    VerbsReachable room setup world := by
  apply Runs.reachable_of_follow _ followed
  intro rank before after moved
  split at moved
  · exact .rank rank ‹_› moved
  · simp at moved

end RingAllReduce.VerbsRing
