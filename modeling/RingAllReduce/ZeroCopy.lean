import RingAllReduce.Execution
import RingAllReduce.Landing
import RingAllReduce.MockTransport

/-!
A transport that copies nothing when a send is posted: it reads the source of a send part by part,
at any moment until the send completes, and writes the parts into the receive that has the same
tag and the same place among the receives with that tag.
-/

namespace RingAllReduce

open Rotation TagQueue

variable {Value Part : Type}

/-- A posted send: what has been read of its source so far. -/
structure SendCell (Part : Type) where
  post : Post
  fetched : Nat → Nat → Option Part
  completed : Bool

/-- A posted receive: what has been written of its destination so far. -/
structure RecvCell where
  post : Post
  delivered : Nat → Nat → Bool
  completed : Bool
  status : Int

structure ZeroCopyNet (Part : Type) where
  sends : Nat → List (SendCell Part)
  recvs : Nat → List RecvCell

/-- A request is told by its kind and its place among the requests of its rank. -/
abbrev ZeroCopyRequest : Type := RequestKind × Nat

def zeroCopyPostRecv (rank : Nat) (post : Post) (net : ZeroCopyNet Part) (memory : Memory Value) :
    Outcome (ZeroCopyNet Part × Memory Value) (Option ZeroCopyRequest) :=
  let cell : RecvCell :=
    { post := post, delivered := fun _ _ => false, completed := false, status := 0 }
  .done ({ net with recvs := Function.update net.recvs rank (net.recvs rank ++ [cell]) }, memory)
    (some (.receive, (net.recvs rank).length))

def zeroCopyPostSend (rank : Nat) (post : Post) (net : ZeroCopyNet Part) (memory : Memory Value) :
    Outcome (ZeroCopyNet Part × Memory Value) (Option ZeroCopyRequest) :=
  let cell : SendCell Part := { post := post, fetched := fun _ _ => none, completed := false }
  .done ({ net with sends := Function.update net.sends rank (net.sends rank ++ [cell]) }, memory)
    (some (.send, (net.sends rank).length))

def zeroCopyWait (rank : Nat) (request : ZeroCopyRequest) (net : ZeroCopyNet Part)
    (memory : Memory Value) : Outcome (ZeroCopyNet Part × Memory Value) Bool :=
  match request with
  | (.send, place) => match (net.sends rank)[place]? with
      | some cell => if cell.completed then .done (net, memory) true else .blocked
      | none => .done (net, memory) false
  | (.receive, place) => match (net.recvs rank)[place]? with
      | some cell => if cell.completed then .done (net, memory) (cell.status = 0) else .blocked
      | none => .done (net, memory) false

/-- How many of the posts before a place have the tag of the post at that place. -/
def ordinal (posts : List Post) (tag : UInt32) (place : Nat) : Nat :=
  (lane (fun post : Post => post.tag) tag (posts.take place)).length

/-- The receive at `target` is the one for the send at `place`: equal tags match in order. -/
structure Paired (net : ZeroCopyNet Part) (sender receiver place target : Nat) (send : SendCell Part)
    (recv : RecvCell) : Prop where
  isSend : (net.sends sender)[place]? = some send
  isRecv : (net.recvs receiver)[target]? = some recv
  tag : send.post.tag = recv.post.tag
  order : ordinal ((net.sends sender).map SendCell.post) send.post.tag place =
    ordinal ((net.recvs receiver).map RecvCell.post) recv.post.tag target

def ZeroCopyNet.setSend (net : ZeroCopyNet Part) (rank place : Nat) (cell : SendCell Part) :
    ZeroCopyNet Part :=
  { net with sends := Function.update net.sends rank ((net.sends rank).set place cell) }

def ZeroCopyNet.setRecv (net : ZeroCopyNet Part) (rank place : Nat) (cell : RecvCell) :
    ZeroCopyNet Part :=
  { net with recvs := Function.update net.recvs rank ((net.recvs rank).set place cell) }

def SendCell.fetch (cell : SendCell Part) (index part : Nat) (content : Part) : SendCell Part :=
  { cell with fetched := fun index' part' =>
      if index' = index ∧ part' = part then some content else cell.fetched index' part' }

def RecvCell.deliver (cell : RecvCell) (index part : Nat) : RecvCell :=
  { cell with delivered := fun index' part' =>
      if index' = index ∧ part' = part then true else cell.delivered index' part' }

/-- What the transport does on its own. -/
inductive ZeroCopyStep (parts : Parts Value Part) (worldSize : Nat) (net : ZeroCopyNet Part)
    (memory : Nat → Memory Value) : ZeroCopyNet Part → (Nat → Memory Value) → Prop
  | fetch (sender place : Nat) (send : SendCell Part) (index part : Nat) (bound : sender < worldSize)
      (found : (net.sends sender)[place]? = some send) (underway : send.completed = false)
      (inside : index < send.post.elementCount) (partBound : part < parts.width) :
      ZeroCopyStep parts worldSize net memory
        (net.setSend sender place (send.fetch index part (parts.get
          (memory sender send.post.buffer (send.post.start + index)) part))) memory
  | deliver (sender place target : Nat) (send : SendCell Part) (recv : RecvCell) (index part : Nat)
      (content : Part) (bound : sender < worldSize)
      (paired : Paired net sender (next worldSize sender) place target send recv)
      (sizes : send.post.bytes = recv.post.bytes) (underway : recv.completed = false)
      (inside : index < recv.post.elementCount) (partBound : part < parts.width)
      (fetched : send.fetched index part = some content) :
      ZeroCopyStep parts worldSize net memory
        (net.setRecv (next worldSize sender) target (recv.deliver index part))
        (Function.update memory (next worldSize sender) ((memory (next worldSize sender)).writePart
          parts recv.post.buffer (recv.post.start + index) part content))
  | completeSend (sender place : Nat) (send : SendCell Part) (bound : sender < worldSize)
      (found : (net.sends sender)[place]? = some send)
      (all : ∀ index < send.post.elementCount, ∀ part < parts.width,
        (send.fetched index part).isSome) :
      ZeroCopyStep parts worldSize net memory
        (net.setSend sender place { send with completed := true }) memory
  | completeRecv (sender place target : Nat) (send : SendCell Part) (recv : RecvCell)
      (bound : sender < worldSize)
      (paired : Paired net sender (next worldSize sender) place target send recv)
      (sizes : send.post.bytes = recv.post.bytes)
      (all : ∀ index < recv.post.elementCount, ∀ part < parts.width,
        recv.delivered index part = true) :
      ZeroCopyStep parts worldSize net memory
        (net.setRecv (next worldSize sender) target { recv with completed := true }) memory
  | reject (sender place target : Nat) (send : SendCell Part) (recv : RecvCell)
      (bound : sender < worldSize)
      (paired : Paired net sender (next worldSize sender) place target send recv)
      (sizes : send.post.bytes ≠ recv.post.bytes) :
      ZeroCopyStep parts worldSize net memory
        (net.setRecv (next worldSize sender) target { recv with completed := true, status := -1 }) memory

def zeroCopyTransport (parts : Parts Value Part) (worldSize : Nat) :
    Transport Value (ZeroCopyNet Part) ZeroCopyRequest where
  postRecv := zeroCopyPostRecv
  postSend := zeroCopyPostSend
  wait := zeroCopyWait
  background := ZeroCopyStep parts worldSize

def emptyCells : ZeroCopyNet Part := { sends := fun _ => [], recvs := fun _ => [] }

def ZeroCopyReachable (parts : Parts Value Part) (setup : Setup Value)
    (world : World Value (ZeroCopyNet Part) ZeroCopyRequest) : Prop :=
  Reachable setup (zeroCopyTransport parts setup.worldSize) emptyCells world

/-! Runs that can be computed: of a send the transport serves the receive at the same place. -/

inductive ZeroCopyMove where
  | rank (rank : Nat)
  | fetch (sender place index part : Nat)
  | deliver (sender place index part : Nat)
  | completeSend (sender place : Nat)
  | completeRecv (sender place : Nat)

def zeroCopyMove (parts : Parts Value Part) (setup : Setup Value) (move : ZeroCopyMove)
    (world : World Value (ZeroCopyNet Part) ZeroCopyRequest) :
    Option (World Value (ZeroCopyNet Part) ZeroCopyRequest) :=
  let net := world.net
  let tagged (sender receiver place : Nat) (send : SendCell Part) (recv : RecvCell) : Bool :=
    sender < setup.worldSize ∧ send.post.tag = recv.post.tag ∧ send.post.bytes = recv.post.bytes ∧
      ordinal ((net.sends sender).map SendCell.post) send.post.tag place =
        ordinal ((net.recvs receiver).map RecvCell.post) recv.post.tag place
  match move with
  | .rank rank =>
      if rank < setup.worldSize then
        rankStep setup (zeroCopyTransport parts setup.worldSize) rank world
      else none
  | .fetch sender place index part => match (net.sends sender)[place]? with
      | some send =>
          if sender < setup.worldSize ∧ send.completed = false ∧ index < send.post.elementCount ∧
              part < parts.width then
            some { world with
              net := net.setSend sender place (send.fetch index part (parts.get
                (world.memory sender send.post.buffer (send.post.start + index)) part)) }
          else none
      | none => none
  | .deliver sender place index part =>
      let receiver := next setup.worldSize sender
      match (net.sends sender)[place]?, (net.recvs receiver)[place]? with
      | some send, some recv => match send.fetched index part with
          | some content =>
              if tagged sender receiver place send recv ∧ recv.completed = false ∧
                  index < recv.post.elementCount ∧ part < parts.width then
                some { world with
                  net := net.setRecv receiver place (recv.deliver index part)
                  memory := Function.update world.memory receiver ((world.memory receiver).writePart
                    parts recv.post.buffer (recv.post.start + index) part content) }
              else none
          | none => none
      | _, _ => none
  | .completeSend sender place => match (net.sends sender)[place]? with
      | some send =>
          if sender < setup.worldSize ∧ ∀ index < send.post.elementCount, ∀ part < parts.width,
              (send.fetched index part).isSome then
            some { world with net := net.setSend sender place { send with completed := true } }
          else none
      | none => none
  | .completeRecv sender place =>
      let receiver := next setup.worldSize sender
      match (net.sends sender)[place]?, (net.recvs receiver)[place]? with
      | some send, some recv =>
          if tagged sender receiver place send recv ∧ ∀ index < recv.post.elementCount,
              ∀ part < parts.width, recv.delivered index part = true then
            some { world with net := net.setRecv receiver place { recv with completed := true } }
          else none
      | _, _ => none

theorem zeroCopyMove_step {parts : Parts Value Part} {setup : Setup Value} {move : ZeroCopyMove}
    {before after : World Value (ZeroCopyNet Part) ZeroCopyRequest}
    (moved : zeroCopyMove parts setup move before = some after) :
    Step setup (zeroCopyTransport parts setup.worldSize) before after := by
  cases move with
  | rank rank =>
      simp only [zeroCopyMove] at moved
      split at moved
      · exact .rank rank ‹_› moved
      · simp at moved
  | fetch sender place index part =>
      simp only [zeroCopyMove] at moved
      split at moved
      · rename_i send found
        split at moved
        · rename_i guards
          obtain ⟨bound, underway, inside, partBound⟩ := guards
          obtain rfl := Option.some.inj moved
          exact .background (.fetch sender place send index part bound found underway inside partBound)
        · simp at moved
      · simp at moved
  | deliver sender place index part =>
      simp only [zeroCopyMove, decide_eq_true_eq] at moved
      split at moved
      · rename_i send recv isSend isRecv
        split at moved
        · rename_i content fetched
          split at moved
          · rename_i guards
            obtain ⟨⟨bound, tag, sizes, order⟩, underway, inside, partBound⟩ := guards
            obtain rfl := Option.some.inj moved
            exact .background (.deliver sender place place send recv index part content bound
              ⟨isSend, isRecv, tag, order⟩ sizes underway inside partBound fetched)
          · simp at moved
        · simp at moved
      · simp at moved
  | completeSend sender place =>
      simp only [zeroCopyMove] at moved
      split at moved
      · rename_i send found
        split at moved
        · rename_i guards
          obtain rfl := Option.some.inj moved
          exact .background (.completeSend sender place send guards.1 found guards.2)
        · simp at moved
      · simp at moved
  | completeRecv sender place =>
      simp only [zeroCopyMove, decide_eq_true_eq] at moved
      split at moved
      · rename_i send recv isSend isRecv
        split at moved
        · rename_i guards
          obtain ⟨⟨bound, tag, sizes, order⟩, all⟩ := guards
          obtain rfl := Option.some.inj moved
          exact .background (.completeRecv sender place place send recv bound
            ⟨isSend, isRecv, tag, order⟩ sizes all)
        · simp at moved
      · simp at moved

theorem zeroCopyReachable_of_follow {parts : Parts Value Part} {setup : Setup Value}
    {moves : List ZeroCopyMove} {world : World Value (ZeroCopyNet Part) ZeroCopyRequest}
    (followed : Runs.follow (zeroCopyMove parts setup) moves (initialWorld setup emptyCells) =
      some world) : ZeroCopyReachable parts setup world :=
  Runs.reachable_of_follow (fun _ _ _ => zeroCopyMove_step) followed

end RingAllReduce
