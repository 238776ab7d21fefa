import RingAllReduce.Bootstrap
import RingAllReduce.Environment
import RingAllReduce.Library.Leases
import RingAllReduce.RingCollectives
import RingAllReduce.VerbsEndpoint

/-!
`connect_process_group`, `pg_create_from_transport` and `pg_close` of `process_group_api.cpp`: what a
process acquires for its process group, and what it gives back, whatever the operating system, the
driver and the allocator answer.
-/

namespace RingAllReduce.ProcessGroup

open Bootstrap Leases VerbsTransport

/-- What a process holds for its process group. A `VerbsTransport` counts apart from what its fields
point to; regions and request states have the numbers of `VerbsTransport.Event`. -/
inductive Resource where
  | deviceList
  | context
  | protectionDomain
  | transport
  | completionQueue
  | queuePair (side : Side)
  | listener
  | addressList
  | socket (side : Side)
  | handle
  | collectives
  | region (number : Nat)
  | requestState (id : Nat)
  deriving DecidableEq, Repr

/-- What must not be released before a resource is. -/
def Resource.bases : Resource → Finset Resource
  | .protectionDomain => {.context}
  | .completionQueue => {.context, .transport}
  | .queuePair _ => {.protectionDomain, .completionQueue}
  | .collectives => {.handle, .transport}
  | .region _ => {.protectionDomain}
  | .requestState _ => {.transport}
  | _ => ∅

structure Environment where
  rank : Option Text
  worldSize : Option Text
  hostList : Option Text
  pieceBytes : Option Text
  maxInflight : Option Text
  transferMode : Option Text

/-- What the calls of `connect_process_group` answer: how many devices there are, the descriptors of
the sockets, the two bytes the barrier reads, and whether the other calls succeed. `candidates` has
for each attempt and each address the socket, and whether it is connected. -/
structure Answers where
  deviceList : Option Nat
  openDevice : Bool
  allocPd : Bool
  queryPort : Bool
  portActive : Bool
  newTransport : Bool
  createCq : Bool
  createQp : Side → Bool
  resolved : Bool
  candidates : Nat → List (Option (Nat × Bool))
  listenSocket : Bool
  bindAndListen : Bool
  accept : Option Nat
  exchanged : Bool
  modifyQp : Side → QpState → Bool
  ready : Option (UInt8 × UInt8)
  newHandle : Bool
  newCollectives : Bool

structure Group where
  transport : VerbsTransport
  collectives : Context
  ownsTransport : Bool

abbrev Program (Answer : Type) : Type := Run Resource Status Answer

def resourceActions (trace : List Event) : List (Leases.Action Resource) :=
  trace.filterMap fun
    | .regMr region => some (.acquire (.region region))
    | .deregMr region => some (.release (.region region))
    | .newState id => some (.acquire (.requestState id))
    | .deleteState id => some (.release (.requestState id))
    | .destroyQp .send => some (.release (.queuePair .next))
    | .destroyQp .receive => some (.release (.queuePair .previous))
    | .postWork .. => none
    | .pollWork .. => none

/-- `delete` of a `VerbsTransport`, unless a dangling pointer makes it undefined. -/
def deleteTransport (transport : VerbsTransport) (order : List Address) :
    Option (List (Leases.Action Resource)) :=
  match { transport with trace := [] }.destroy order with
  | .returned () final => some (
      (if 0 ≤ transport.nextSocket then [.release (.socket .next)] else []) ++
      (if 0 ≤ transport.previousSocket then [.release (.socket .previous)] else []) ++
      resourceActions final.trace ++
      [.release .completionQueue, .release .protectionDomain, .release .context,
        .release .transport])
  | _ => none

def abandon (transport : VerbsTransport) : Program Unit :=
  ⟨.ok (), (deleteTransport transport []).getD []⟩

/-! The parts of `connect_process_group`. -/

def openDevice (answers : Answers) : Program Unit :=
  match answers.deviceList with
  | none => .fail .transport
  | some 0 => do
      .acquire .deviceList
      .fail .transport
  | some _ => do
      .acquire .deviceList
      if answers.openDevice then
        .acquire .context
        .release .deviceList
      else
        .release .deviceList
        .fail .transport

def allocPd (answers : Answers) : Program Unit :=
  if answers.allocPd then do
    .acquire .protectionDomain
    if answers.queryPort = false ∨ answers.portActive = false then
      .release .protectionDomain
      .release .context
      .fail .transport
  else do
    .release .context
    .fail .transport

def newTransport (answers : Answers) (rank worldSize : Int) : Run Resource String Unit :=
  if answers.newTransport then do
    .acquire .transport
    if rank < 0 ∨ worldSize ≤ 0 ∨ worldSize ≤ rank then
      .release .transport
      .fail "Invalid VerbsTransport constructor arguments"
    else if answers.createCq then .acquire .completionQueue
    else
      .release .transport
      .fail "ibv_create_cq failed"
  else .fail "std::bad_alloc"

def makeTransport (answers : Answers) (rank worldSize : Int) : Program Unit :=
  (newTransport answers rank worldSize).catching fun _ => do
    .release .protectionDomain
    .release .context
    .fail .transport

def createQp (answers : Answers) (side : Side) : Program Bool :=
  if answers.createQp side then do
    .acquire (.queuePair side)
    pure true
  else pure false

def createQps (answers : Answers) : Program Unit := do
  let qpNext ← createQp answers .next
  let qpPrevious ← createQp answers .previous
  if qpNext = false ∨ qpPrevious = false then
    if qpNext then .release (.queuePair .next)
    if qpPrevious then .release (.queuePair .previous)
    abandon (unused false false (-1) (-1))
    .fail .transport

def listenAndAccept (answers : Answers) : Program (Option Nat) :=
  if answers.listenSocket then do
    .acquire .listener
    if answers.bindAndListen then
      if answers.accept.isSome then .acquire (.socket .previous)
      .release .listener
      pure answers.accept
    else
      .release .listener
      pure none
  else pure none

def tryEntries : List (Option (Nat × Bool)) → Program (Option Nat)
  | [] => pure none
  | none :: entries => tryEntries entries
  | some (candidate, connected) :: entries => do
      .acquire (.socket .next)
      if connected then pure (some candidate)
      else
        .release (.socket .next)
        tryEntries entries

def tryAttempts (candidates : Nat → List (Option (Nat × Bool))) : Nat → Program (Option Nat)
  | 0 => pure none
  | left + 1 => do
      match ← tryEntries (candidates left) with
      | some connection => pure (some connection)
      | none => tryAttempts candidates left

def connectToHost (answers : Answers) : Program (Option Nat) :=
  if answers.resolved then do
    .acquire .addressList
    let connection ← tryAttempts answers.candidates 100
    .release .addressList
    pure connection
  else pure none

/-- The sockets to the next and to the previous rank, in the order of the rank's parity. -/
def ringSockets (answers : Answers) (rank : Int) : Program (Option Nat × Option Nat) :=
  if rank.tmod 2 = 0 then do
    let nextSocket ← connectToHost answers
    let previousSocket ← listenAndAccept answers
    pure (nextSocket, previousSocket)
  else do
    let previousSocket ← listenAndAccept answers
    let nextSocket ← connectToHost answers
    pure (nextSocket, previousSocket)

def tcpRing (answers : Answers) (rank : Int) : Program (Nat × Nat) := do
  match ← ringSockets answers rank with
  | (some nextSocket, some previousSocket) => pure (nextSocket, previousSocket)
  | (nextSocket, previousSocket) =>
      if nextSocket.isSome then .release (.socket .next)
      if previousSocket.isSome then .release (.socket .previous)
      abandon (unused true true (-1) (-1))
      .fail .transport

def transitionQpToRts (answers : Answers) (side : Side) : Bool :=
  answers.modifyQp side .init && answers.modifyQp side .rtr && answers.modifyQp side .rts

/-- From the exchange of the queue pairs' numbers to the barrier. -/
def wireQps (answers : Answers) : Program Unit :=
  if answers.exchanged = false ∨ transitionQpToRts answers .next = false ∨
      transitionQpToRts answers .previous = false ∨ answers.ready ≠ some (1, 1) then do
    .release (.socket .next)
    .release (.socket .previous)
    abandon (unused true true (-1) (-1))
    .fail .transport
  else pure ()

def collectiveConfig (environment : Environment) : Except String Config := do
  let pieceBytes ← parsePositiveEnvironmentInt "PG_PIPELINE_PIECE_BYTES" environment.pieceBytes
    (64 * 1024)
  let maxInflight ← parsePositiveEnvironmentInt "PG_MAX_INFLIGHT" environment.maxInflight 4
  let mode ← parseTransferModeEnvironment environment.transferMode
  pure { pipelinePieceBytes := pieceBytes.toNat, maxInflight := maxInflight.toNat
         transferMode := mode }

def pgCreateFromTransport (answers : Answers) (rank worldSize : Int) (transport : VerbsTransport)
    (takeTransportOwnership : Bool) (config : Option Config) : Program Group :=
  if answers.newHandle then do
    .acquire .handle
    match ringCollectiveCreate rank worldSize config with
    | .error status =>
        .release .handle
        .fail status
    | .ok context =>
        if answers.newCollectives then
          .acquire .collectives
          pure { transport := transport, collectives := context
                 ownsTransport := takeTransportOwnership }
        else
          .release .handle
          .fail .noMemory
  else .fail .noMemory

/-- The checks before `connect_process_group` acquires anything. -/
def acceptedArguments (environment : Environment) (servername : Option Text) (rank worldSize : Int) :
    Bool :=
  0 ≤ rank && 2 ≤ worldSize && rank < worldSize &&
    (getHostList environment.hostList servername worldSize).length = worldSize

def environmentRank (environment : Environment) : Int := (environment.rank.map atoi).getD 0

def environmentWorldSize (environment : Environment) : Int :=
  (environment.worldSize.map atoi).getD 1

/-- `pgHandle` tells whether the caller's pointer is not null. -/
def connectProcessGroup (environment : Environment) (servername : Option Text) (pgHandle : Bool)
    (answers : Answers) : Program Group :=
  let rank := environmentRank environment
  let worldSize := environmentWorldSize environment
  if pgHandle = false ∨ acceptedArguments environment servername rank worldSize = false then
    .fail .invalidArgument
  else do
    openDevice answers
    allocPd answers
    makeTransport answers rank worldSize
    createQps answers
    let (nextSocket, previousSocket) ← tcpRing answers rank
    wireQps answers
    let transport := unused true true nextSocket previousSocket
    match collectiveConfig environment with
    | .error _ =>
        abandon transport
        .fail .invalidArgument
    | .ok config =>
        (pgCreateFromTransport answers rank worldSize transport true (some config)).catching
          fun status => do
            abandon transport
            .fail status

/-- `pg_close`; `order` is how the pending requests of the transport are iterated. -/
def pgClose (group : Group) (order : List Address) : Option (List (Leases.Action Resource)) :=
  (if group.ownsTransport then deleteTransport group.transport order else some []).map fun actions =>
    .release .collectives :: (actions ++ [.release .handle])

end RingAllReduce.ProcessGroup
