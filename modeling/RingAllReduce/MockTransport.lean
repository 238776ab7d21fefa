import RingAllReduce.Execution
import RingAllReduce.Library.TagQueue

/-!
`mock_transport.cpp`: a send appends a copy of its buffer to the queue of the next rank and is
complete at once; a receive takes the oldest message of its own queue with its tag, when it is
posted or while it is waited for.
-/

namespace RingAllReduce

variable {Value : Type}

/-- `Message`. `piece` is what the message carries; no code reads it. -/
structure Message (Value : Type) where
  tag : UInt32
  bytes : Nat
  payload : List Value
  piece : Piece

/-- `MockRing`. `matched` records, for each rank, which piece each receive was given; no code
reads it. -/
structure MockRing (Value : Type) where
  incoming : Nat → List (Message Value)
  matched : Nat → List (Piece × Piece)

inductive RequestKind where
  | send
  | receive
  deriving DecidableEq, Repr

/-- `RequestState`; `post` holds its buffer, byte count and tag. -/
structure RequestState where
  kind : RequestKind
  post : Post
  completed : Bool
  status : Int
  deriving DecidableEq, Repr

/-- `try_complete_receive_locked`. -/
def tryCompleteReceive (rank : Nat) (request : RequestState) (ring : MockRing Value)
    (memory : Memory Value) : Option (RequestState × MockRing Value × Memory Value) :=
  match TagQueue.takeFirst Message.tag request.post.tag (ring.incoming rank) with
  | none => none
  | some (message, queue) =>
      let ring : MockRing Value :=
        { incoming := Function.update ring.incoming rank queue
          matched := Function.update ring.matched rank
            (ring.matched rank ++ [(request.post.toPiece, message.piece)]) }
      if message.bytes ≠ request.post.bytes then
        some ({ request with completed := true, status := -1 }, ring, memory)
      else
        some ({ request with completed := true, status := 0 }, ring,
          memory.store request.post.buffer request.post.start
            (message.payload.take request.post.elementCount))

def mockPostSendNext (worldSize rank : Nat) (post : Post) (ring : MockRing Value)
    (memory : Memory Value) : Outcome (MockRing Value × Memory Value) (Option RequestState) :=
  let message : Message Value :=
    { tag := post.tag, bytes := post.bytes,
      payload := memory.load post.buffer post.start post.elementCount, piece := post.toPiece }
  let destination := (rank + 1) % worldSize
  let queue := ring.incoming destination ++ [message]
  .done ({ ring with incoming := Function.update ring.incoming destination queue }, memory)
    (some { kind := .send, post := post, completed := true, status := 0 })

def mockPostRecvPrev (rank : Nat) (post : Post) (ring : MockRing Value) (memory : Memory Value) :
    Outcome (MockRing Value × Memory Value) (Option RequestState) :=
  let request : RequestState :=
    { kind := .receive, post := post, completed := false, status := 0 }
  match tryCompleteReceive rank request ring memory with
  | some (request, ring, memory) => .done (ring, memory) (some request)
  | none => .done (ring, memory) (some request)

/-- `mock_wait`; the condition variable wakes the rank when a message arrives. -/
def mockWait (rank : Nat) (request : RequestState) (ring : MockRing Value)
    (memory : Memory Value) : Outcome (MockRing Value × Memory Value) Bool :=
  if request.completed = false ∧ request.kind = .receive then
    match tryCompleteReceive rank request ring memory with
    | some (request, ring, memory) => .done (ring, memory) (request.status = 0)
    | none => .blocked
  else .done (ring, memory) (request.status = 0)

def mockTransport (Value : Type) (worldSize : Nat) :
    Transport Value (MockRing Value) RequestState where
  postRecv := mockPostRecvPrev
  postSend := mockPostSendNext worldSize
  wait := mockWait
  background := fun _ _ _ _ => False

/-- `mock_transport_group_create`: nothing is queued. -/
def emptyRing : MockRing Value := { incoming := fun _ => [], matched := fun _ => [] }

/-- The states a run over the mock transport can reach from fresh contexts. -/
def MockReachable (setup : Setup Value)
    (world : World Value (MockRing Value) RequestState) : Prop :=
  Reachable setup (mockTransport Value setup.worldSize) emptyRing world

/-- The state the given ranks lead to, one step each. -/
def mockFollow (setup : Setup Value) (moves : List Nat) :
    Option (World Value (MockRing Value) RequestState) :=
  Runs.follow (fun rank world =>
    if rank < setup.worldSize then
      rankStep setup (mockTransport Value setup.worldSize) rank world
    else none) moves (initialWorld setup emptyRing)

def mockMove (setup : Setup Value) (rank : Nat)
    (world : World Value (MockRing Value) RequestState) :
    Option (World Value (MockRing Value) RequestState) :=
  if rank < setup.worldSize then rankStep setup (mockTransport Value setup.worldSize) rank world
  else none

theorem mockMoves_reachable {setup : Setup Value} {moves : List Nat}
    {start world : World Value (MockRing Value) RequestState}
    (followed : Runs.follow (mockMove setup) moves start = some world) :
    Runs.Reachable (Step setup (mockTransport Value setup.worldSize)) start world := by
  apply Runs.reachable_of_follow _ followed
  intro rank before after taken
  unfold mockMove at taken
  split at taken
  · rename_i bound
    exact .rank rank bound taken
  · simp at taken

theorem mockReachable_of_follow {setup : Setup Value} {moves : List Nat}
    {world : World Value (MockRing Value) RequestState}
    (followed : mockFollow setup moves = some world) : MockReachable setup world :=
  mockMoves_reachable followed

end RingAllReduce
