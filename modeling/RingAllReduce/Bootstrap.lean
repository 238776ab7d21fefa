import Mathlib.Logic.Function.Basic
import RingAllReduce.Library.Rotation
import RingAllReduce.Library.Runs

/-!
`connect_process_group` of `process_group_api.cpp`, from the TCP ring to the control sockets, on
all ranks of a ring. A rank performs its operations one by one; one that would block is not
performed. No call fails, and a `connect` is retried until its peer listens.
-/

namespace RingAllReduce.Bootstrap

inductive Side where
  | next
  | previous
  deriving DecidableEq, Repr

structure ExchangeData where
  qpn : UInt32
  lid : UInt16
  reserved : UInt16
  deriving DecidableEq, Repr

def littleEndian : Nat → Nat → List UInt8
  | 0, _ => []
  | count + 1, value => UInt8.ofNat (value % 256) :: littleEndian count (value / 256)

def ofLittleEndian : List UInt8 → Nat
  | [] => 0
  | byte :: bytes => byte.toNat + 256 * ofLittleEndian bytes

namespace ExchangeData

def bytes (data : ExchangeData) : List UInt8 :=
  littleEndian 4 data.qpn.toNat ++ (littleEndian 2 data.lid.toNat ++
    littleEndian 2 data.reserved.toNat)

def ofBytes (bytes : List UInt8) : ExchangeData :=
  { qpn := UInt32.ofNat (ofLittleEndian (bytes.take 4))
    lid := UInt16.ofNat (ofLittleEndian ((bytes.drop 4).take 2))
    reserved := UInt16.ofNat (ofLittleEndian ((bytes.drop 6).take 2)) }

end ExchangeData

@[simp] theorem littleEndian_length (count value : Nat) :
    (littleEndian count value).length = count := by
  induction count generalizing value with
  | zero => rfl
  | succ count ih => simp [littleEndian, ih]

theorem ofLittleEndian_littleEndian (count value : Nat) :
    ofLittleEndian (littleEndian count value) = value % 256 ^ count := by
  induction count generalizing value with
  | zero => simp [littleEndian, ofLittleEndian, Nat.mod_one]
  | succ count ih =>
      have small : (UInt8.ofNat (value % 256)).toNat = value % 256 := by
        simp
      rw [littleEndian, ofLittleEndian, ih, small, Nat.pow_succ', Nat.mod_mul]

namespace ExchangeData

@[simp] theorem bytes_length (data : ExchangeData) : data.bytes.length = 8 := by
  simp [bytes]

theorem ofBytes_bytes (data : ExchangeData) : ofBytes data.bytes = data := by
  have qpn := data.qpn.toNat_lt
  have lid := data.lid.toNat_lt
  have reserved := data.reserved.toNat_lt
  have first : data.bytes.take 4 = littleEndian 4 data.qpn.toNat :=
    List.take_left' (by simp)
  have second : data.bytes.drop 4 = littleEndian 2 data.lid.toNat ++
      littleEndian 2 data.reserved.toNat := List.drop_left' (by simp)
  have third : data.bytes.drop 6 = littleEndian 2 data.reserved.toNat := by
    rw [show (6 : Nat) = 4 + 2 from rfl, ← List.drop_drop, second]
    exact List.drop_left' (by simp)
  have middle : (data.bytes.drop 4).take 2 = littleEndian 2 data.lid.toNat := by
    rw [second]
    exact List.take_left' (by simp)
  have last : (data.bytes.drop 6).take 2 = littleEndian 2 data.reserved.toNat := by
    rw [third]
    exact List.take_of_length_le (by simp)
  simp only [ofBytes, first, middle, last, ofLittleEndian_littleEndian]
  rw [Nat.mod_eq_of_lt (by omega), Nat.mod_eq_of_lt (by omega), Nat.mod_eq_of_lt (by omega)]
  simp

end ExchangeData

/-- What a byte was written as. No code reads it. -/
inductive Origin where
  | exchange
  | ready
  | descriptor
  deriving DecidableEq, Repr

structure Octet where
  origin : Origin
  value : UInt8
  deriving DecidableEq, Repr

def octets (origin : Origin) (bytes : List UInt8) : List Octet :=
  bytes.map fun value => { origin := origin, value := value }

inductive QpState where
  | reset
  | init
  | rtr
  | rts
  deriving DecidableEq, Repr

/-- `destQpNum` and `dlid` are where it sends to. -/
structure QueuePair where
  state : QpState
  destQpNum : UInt32
  dlid : UInt16
  deriving DecidableEq, Repr

inductive Action where
  | connectToHost
  | listen
  | accept
  | writeExchange (side : Side)
  | readExchange (side : Side)
  | modifyQp (side : Side) (state : QpState)
  | writeReady (side : Side)
  | readReady (side : Side)
  | checkReady
  | setControlSockets
  deriving DecidableEq, Repr

def listenAndAccept : List Action := [.listen, .accept]

def transitionQpToRts (side : Side) : List Action :=
  [.modifyQp side .init, .modifyQp side .rtr, .modifyQp side .rts]

def tcpRing (even : Bool) : List Action :=
  if even then .connectToHost :: listenAndAccept else listenAndAccept ++ [.connectToHost]

def connectProcessGroup (even : Bool) : List Action :=
  tcpRing even ++
    [.writeExchange .next, .writeExchange .previous, .readExchange .next,
      .readExchange .previous] ++
    transitionQpToRts .next ++ transitionQpToRts .previous ++
    [.writeReady .next, .writeReady .previous, .readReady .next, .readReady .previous,
      .checkReady, .setControlSockets]

/-- The variables of a rank, the operations it has yet to perform and those it has performed. A
socket is named after the rank that connected it. -/
structure RankState where
  nextSocket : Option Nat
  previousSocket : Option Nat
  remote : Side → ExchangeData
  ready : Side → UInt8
  queuePair : Side → QueuePair
  failed : Bool
  todo : List Action
  log : List Action

structure Listener where
  port : Nat
  backlog : List Nat
  deriving DecidableEq, Repr

/-- The listening socket of each rank, and the unread bytes of each connection: `toServer` from
the rank that connected to the one that accepted, `toClient` the other way. -/
structure Net where
  listener : Nat → Option Listener
  toServer : Nat → List Octet
  toClient : Nat → List Octet

structure World where
  rank : Nat → RankState
  net : Net

structure Cluster (Host : Type) where
  worldSize : Nat
  several : 2 ≤ worldSize
  host : Nat → Host
  ports : 18000 + worldSize - 1 < 2 ^ 16
  qpNum : Nat → Side → UInt32
  lid : Nat → UInt16

def basePort : Nat := 18000

def nextRank (worldSize rank : Nat) : Nat := (rank + 1) % worldSize

def previousRank (worldSize rank : Nat) : Nat := (rank + worldSize - 1) % worldSize

def RankState.socket (here : RankState) : Side → Option Nat
  | .next => here.nextSocket
  | .previous => here.previousSocket

/-- `write_all` on one end of a connection; the next rank's end is the server's. -/
def Net.write (net : Net) (connection : Nat) (content : List Octet) : Side → Net
  | .next => { net with
      toServer := Function.update net.toServer connection (net.toServer connection ++ content) }
  | .previous => { net with
      toClient := Function.update net.toClient connection (net.toClient connection ++ content) }

/-- `read_all`; it blocks until there are `count` bytes. -/
def Net.read (net : Net) (connection count : Nat) : Side → Option (List UInt8 × Net)
  | .next =>
      let stream := net.toClient connection
      if stream.length < count then none
      else some ((stream.take count).map Octet.value,
        { net with toClient := Function.update net.toClient connection (stream.drop count) })
  | .previous =>
      let stream := net.toServer connection
      if stream.length < count then none
      else some ((stream.take count).map Octet.value,
        { net with toServer := Function.update net.toServer connection (stream.drop count) })

variable {Host : Type}

/-- `local_next` and `local_previous`. -/
def Cluster.exchangeData (cluster : Cluster Host) (rank : Nat) (side : Side) : ExchangeData :=
  { qpn := cluster.qpNum rank side, lid := cluster.lid rank, reserved := 0 }

/-- `ibv_modify_qp` with the attributes of `transition_qp_to_rts`. -/
def QueuePair.modify (queuePair : QueuePair) (remote : ExchangeData) : QpState → QueuePair
  | .rtr => { state := .rtr, destQpNum := remote.qpn, dlid := remote.lid }
  | state => { queuePair with state := state }

variable [DecidableEq Host]

def Cluster.reaches (cluster : Cluster Host) (net : Net) (host : Host) (port server : Nat) : Bool :=
  match net.listener server with
  | none => false
  | some listener =>
      decide (cluster.host server = host ∧ listener.port = port ∧ listener.backlog = [])

/-- One operation of a rank, or `none` where it blocks. -/
def perform (cluster : Cluster Host) (rank : Nat) (here : RankState) (net : Net) :
    Action → Option (RankState × Net)
  | .connectToHost =>
      let host := cluster.host (nextRank cluster.worldSize rank)
      ((List.range cluster.worldSize).find? (cluster.reaches net host (basePort + rank))).bind
        fun server => (net.listener server).map fun listener =>
          ({ here with nextSocket := some rank },
            { net with
              listener := Function.update net.listener server
                (some { listener with backlog := listener.backlog ++ [rank] }) })
  | .listen =>
      let port := (basePort + previousRank cluster.worldSize rank) % 2 ^ 16
      some (here, { net with
        listener := Function.update net.listener rank (some { port := port, backlog := [] }) })
  | .accept =>
      (net.listener rank).bind fun listener => listener.backlog.head?.map fun connection =>
        ({ here with previousSocket := some connection },
          { net with listener := Function.update net.listener rank none })
  | .writeExchange side =>
      (here.socket side).map fun connection =>
        (here, net.write connection (octets .exchange (cluster.exchangeData rank side).bytes) side)
  | .readExchange side =>
      (here.socket side).bind fun connection => (net.read connection 8 side).map fun (bytes, net) =>
        ({ here with
          remote := Function.update here.remote side (ExchangeData.ofBytes bytes) }, net)
  | .modifyQp side state =>
      some ({ here with
        queuePair := Function.update here.queuePair side
          ((here.queuePair side).modify (here.remote side) state) }, net)
  | .writeReady side =>
      (here.socket side).map fun connection =>
        (here, net.write connection (octets .ready [1]) side)
  | .readReady side =>
      (here.socket side).bind fun connection => (net.read connection 1 side).map fun (bytes, net) =>
        ({ here with ready := Function.update here.ready side (bytes.headD 0) }, net)
  | .checkReady =>
      some ({ here with failed := decide (here.ready .next ≠ 1 ∨ here.ready .previous ≠ 1) }, net)
  | .setControlSockets => some (here, net)

/-- The next operation of a rank; after a failed check there is none. -/
def bootStep (cluster : Cluster Host) (rank : Nat) (world : World) : Option World :=
  match (world.rank rank).todo with
  | [] => none
  | action :: rest =>
      (perform cluster rank (world.rank rank) world.net action).map fun (here, net) =>
        { rank := Function.update world.rank rank { here with
            todo := if here.failed then [] else rest
            log := here.log ++ [action] }
          net := net }

def RankState.Connected (here : RankState) : Prop := here.todo = [] ∧ here.failed = false

/-- A step of the bootstrap, or of the collectives of a rank that is through it: `post_recv_prev`
writes a descriptor to the previous rank, `post_send_next` reads one from the next. -/
inductive Step (cluster : Cluster Host) (before : World) : World → Prop where
  | boot (rank : Nat) (bound : rank < cluster.worldSize) {after : World}
      (taken : bootStep cluster rank before = some after) : Step cluster before after
  | postReceive (rank : Nat) (bound : rank < cluster.worldSize)
      (ready : (before.rank rank).Connected) {connection : Nat}
      (socket : (before.rank rank).previousSocket = some connection) (control : List UInt8)
      (size : control.length = 32) :
      Step cluster before { before with
        net := before.net.write connection (octets .descriptor control) .previous }
  | postSend (rank : Nat) (bound : rank < cluster.worldSize)
      (ready : (before.rank rank).Connected) {connection : Nat}
      (socket : (before.rank rank).nextSocket = some connection) {control : List UInt8} {net : Net}
      (fetched : before.net.read connection 32 .next = some (control, net)) :
      Step cluster before { before with net := net }

def initialWorld : World :=
  { rank := fun rank =>
      { nextSocket := none, previousSocket := none, remote := fun _ => ⟨0, 0, 0⟩
        ready := fun _ => 0, queuePair := fun _ => ⟨.reset, 0, 0⟩, failed := false
        todo := connectProcessGroup (rank % 2 = 0), log := [] }
    net := { listener := fun _ => none, toServer := fun _ => [], toClient := fun _ => [] } }

def Reachable (cluster : Cluster Host) (world : World) : Prop :=
  Runs.Reachable (Step cluster) initialWorld world

def bootFollow (cluster : Cluster Host) (moves : List Nat) : Option World :=
  Runs.follow (fun rank world =>
    if rank < cluster.worldSize then bootStep cluster rank world else none) moves initialWorld

theorem reachable_of_bootFollow {cluster : Cluster Host} {moves : List Nat} {world : World}
    (followed : bootFollow cluster moves = some world) : Reachable cluster world := by
  apply Runs.reachable_of_follow _ followed
  intro rank before after taken
  split at taken
  · rename_i bound
    exact .boot rank bound taken
  · simp at taken

end RingAllReduce.Bootstrap
