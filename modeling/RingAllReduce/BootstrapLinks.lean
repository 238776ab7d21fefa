import RingAllReduce.BootstrapOrder

/-! The state of a rank and of a connection after the operations each rank has performed. -/

namespace RingAllReduce.Bootstrap

/-- What a rank has written on its socket to one side. -/
def sent (data : ExchangeData) (side : Side) (log : List Action) : List Octet :=
  (if .writeExchange side ∈ log then octets .exchange data.bytes else []) ++
    if .writeReady side ∈ log then octets .ready [1] else []

/-- How much a rank has read from its socket to one side. -/
def taken (side : Side) (log : List Action) : Nat :=
  (if .readExchange side ∈ log then 8 else 0) + if .readReady side ∈ log then 1 else 0

variable {Host : Type}

/-- What the neighbour on one side tells a rank. -/
def Cluster.peerData (cluster : Cluster Host) (rank : Nat) : Side → ExchangeData
  | .next => cluster.exchangeData (nextRank cluster.worldSize rank) .previous
  | .previous => cluster.exchangeData (previousRank cluster.worldSize rank) .next

structure RankWired (cluster : Cluster Host) (rank : Nat) (here : RankState) : Prop where
  program : here.log ++ here.todo = connectProcessGroup (rank % 2 = 0)
  sound : here.failed = false
  nextSocket : here.nextSocket = if .connectToHost ∈ here.log then some rank else none
  previousSocket : here.previousSocket =
    if .accept ∈ here.log then some (previousRank cluster.worldSize rank) else none
  remote : ∀ side, .readExchange side ∈ here.log →
    here.remote side = cluster.peerData rank side
  ready : ∀ side, .readReady side ∈ here.log → here.ready side = 1
  rts : ∀ side, .modifyQp side .rts ∈ here.log → (here.queuePair side).state = .rts
  destination : ∀ side, .modifyQp side .rtr ∈ here.log →
    (here.queuePair side).destQpNum = (cluster.peerData rank side).qpn ∧
      (here.queuePair side).dlid = (cluster.peerData rank side).lid

/-- The connection that `rank` makes to the next rank. -/
structure LinkWired (cluster : Cluster Host) (rank : Nat) (client server : RankState) (net : Net) :
    Prop where
  asked : .connectToHost ∈ client.log → .listen ∈ server.log
  made : .accept ∈ server.log → .connectToHost ∈ client.log
  listener : net.listener (nextRank cluster.worldSize rank) =
    if .listen ∈ server.log ∧ .accept ∉ server.log then
      some { port := basePort + rank
             backlog := if .connectToHost ∈ client.log then [rank] else [] }
    else none
  toServerBound : taken .previous server.log ≤
    (sent (cluster.exchangeData rank .next) .next client.log).length
  toServer : net.toServer rank =
    (sent (cluster.exchangeData rank .next) .next client.log).drop (taken .previous server.log)
  toClient : ∃ more fetched,
    taken .next client.log + fetched ≤
      (sent (cluster.peerData rank .next) .previous server.log ++ more).length ∧
    net.toClient rank = (sent (cluster.peerData rank .next) .previous server.log ++ more).drop
      (taken .next client.log + fetched) ∧
    (∀ octet ∈ more, octet.origin = .descriptor) ∧
    (server.todo ≠ [] → more = []) ∧ (client.todo ≠ [] → fetched = 0)

structure Wired (cluster : Cluster Host) (world : World) : Prop where
  ranks : ∀ rank, rank < cluster.worldSize → RankWired cluster rank (world.rank rank)
  links : ∀ rank, rank < cluster.worldSize → LinkWired cluster rank (world.rank rank)
    (world.rank (nextRank cluster.worldSize rank)) world.net

def Action.side : Action → Option Side
  | .connectToHost => some .next
  | .listen => some .previous
  | .accept => some .previous
  | .writeExchange side => some side
  | .readExchange side => some side
  | .writeReady side => some side
  | .readReady side => some side
  | .modifyQp .. => none
  | .checkReady => none
  | .setControlSockets => none

theorem mem_append_other {log : List Action} {action other : Action} {side : Side}
    (own : other.side = some side) (apart : action.side ≠ some side) :
    other ∈ log ++ [action] ↔ other ∈ log := by
  have different : other ≠ action := by
    rintro rfl
    exact apart own
  simp [different]

theorem sent_other {data : ExchangeData} {side : Side} {log : List Action} {action : Action}
    (apart : action.side ≠ some side) : sent data side (log ++ [action]) = sent data side log := by
  have exchange : (.writeExchange side : Action) ∈ log ++ [action] ↔ .writeExchange side ∈ log :=
    mem_append_other rfl apart
  have ready : (.writeReady side : Action) ∈ log ++ [action] ↔ .writeReady side ∈ log :=
    mem_append_other rfl apart
  simp only [sent, exchange, ready]

theorem taken_other {side : Side} {log : List Action} {action : Action}
    (apart : action.side ≠ some side) : taken side (log ++ [action]) = taken side log := by
  have exchange : (.readExchange side : Action) ∈ log ++ [action] ↔ .readExchange side ∈ log :=
    mem_append_other rfl apart
  have ready : (.readReady side : Action) ∈ log ++ [action] ↔ .readReady side ∈ log :=
    mem_append_other rfl apart
  simp only [taken, exchange, ready]

section Links

variable {cluster : Cluster Host} {rank : Nat} {client server here : RankState} {net after : Net}

theorem LinkWired.congr (link : LinkWired cluster rank client server net)
    (listener : after.listener (nextRank cluster.worldSize rank) =
      net.listener (nextRank cluster.worldSize rank))
    (toServer : after.toServer rank = net.toServer rank)
    (toClient : after.toClient rank = net.toClient rank) :
    LinkWired cluster rank client server after :=
  { asked := link.asked, made := link.made, listener := listener.trans link.listener
    toServerBound := link.toServerBound, toServer := toServer.trans link.toServer
    toClient := by rw [toClient]; exact link.toClient }

theorem LinkWired.client_other (link : LinkWired cluster rank client server net)
    {action : Action} (apart : action.side ≠ some .next) (log : here.log = client.log ++ [action])
    (busy : client.todo ≠ []) : LinkWired cluster rank here server net := by
  have connected : .connectToHost ∈ here.log ↔ .connectToHost ∈ client.log := by
    rw [log]
    exact mem_append_other rfl apart
  have sentEq : ∀ data, sent data .next here.log = sent data .next client.log := by
    intro data
    rw [log, sent_other apart]
  have takenEq : taken .next here.log = taken .next client.log := by
    rw [log, taken_other apart]
  obtain ⟨more, fetched, bound, stream, origins, serverBusy, clientBusy⟩ := link.toClient
  refine ⟨fun asked => link.asked (connected.mp asked), fun made => connected.mpr (link.made made),
    ?_, ?_, ?_, more, 0, ?_, ?_, origins, serverBusy, fun _ => rfl⟩
  · simp only [connected]
    exact link.listener
  · rw [sentEq]
    exact link.toServerBound
  · rw [sentEq]
    exact link.toServer
  · rw [takenEq]
    rw [clientBusy busy] at bound
    exact bound
  · rw [takenEq]
    rw [clientBusy busy] at stream
    exact stream

theorem LinkWired.server_other (link : LinkWired cluster rank client server net)
    {action : Action} (apart : action.side ≠ some .previous)
    (log : here.log = server.log ++ [action]) (busy : server.todo ≠ []) :
    LinkWired cluster rank client here net := by
  have listening : .listen ∈ here.log ↔ .listen ∈ server.log := by
    rw [log]
    exact mem_append_other rfl apart
  have accepted : .accept ∈ here.log ↔ .accept ∈ server.log := by
    rw [log]
    exact mem_append_other rfl apart
  have sentEq : ∀ data, sent data .previous here.log = sent data .previous server.log := by
    intro data
    rw [log, sent_other apart]
  have takenEq : taken .previous here.log = taken .previous server.log := by
    rw [log, taken_other apart]
  obtain ⟨more, fetched, bound, stream, origins, serverBusy, clientBusy⟩ := link.toClient
  refine ⟨fun asked => listening.mpr (link.asked asked), fun made => link.made (accepted.mp made),
    ?_, ?_, ?_, more, fetched, ?_, ?_, origins, fun _ => serverBusy busy, clientBusy⟩
  · simp only [listening, accepted]
    exact link.listener
  · rw [takenEq]
    exact link.toServerBound
  · rw [takenEq]
    exact link.toServer
  · rw [sentEq]
    exact bound
  · rw [sentEq]
    exact stream

end Links

section Advance

variable {cluster : Cluster Host} {world : World} {rank : Nat}

theorem Wired.advance (wired : Wired cluster world) (bound : rank < cluster.worldSize)
    {here : RankState} {net : Net} (own : RankWired cluster rank here)
    (client : LinkWired cluster rank here
      (world.rank (nextRank cluster.worldSize rank)) net)
    (server : LinkWired cluster (previousRank cluster.worldSize rank)
      (world.rank (previousRank cluster.worldSize rank)) here net)
    (others : ∀ other, other ≠ rank → other ≠ previousRank cluster.worldSize rank →
      other < cluster.worldSize →
      net.listener (nextRank cluster.worldSize other) =
          world.net.listener (nextRank cluster.worldSize other) ∧
        net.toServer other = world.net.toServer other ∧
        net.toClient other = world.net.toClient other) :
    Wired cluster { rank := Function.update world.rank rank here, net := net } := by
  constructor
  · intro other otherBound
    by_cases same : other = rank
    · subst same
      simpa using own
    · simpa [same] using wired.ranks other otherBound
  · intro other otherBound
    have ahead := nextRank_ne cluster.several otherBound
    by_cases same : other = rank
    · subst same
      simpa [ahead] using client
    · by_cases before : other = previousRank cluster.worldSize rank
      · have reached : nextRank cluster.worldSize other = rank := by
          rw [before, nextRank_previousRank bound]
        subst before
        simpa [reached, same] using server
      · have apart : nextRank cluster.worldSize other ≠ rank := by
          intro reached
          rw [← reached, previousRank_nextRank otherBound] at before
          exact before rfl
        obtain ⟨listener, toServer, toClient⟩ := others other same before otherBound
        simpa [same, apart] using
          (wired.links other otherBound).congr listener toServer toClient

end Advance

/-- The state of a rank after an operation that left it as `here`. -/
def RankState.performed (here : RankState) (action : Action) (rest : List Action) : RankState :=
  { here with
    todo := if here.failed then [] else rest
    log := here.log ++ [action] }

def Action.quiet : Action → Bool
  | .listen => true
  | .writeExchange _ => true
  | .writeReady _ => true
  | .setControlSockets => true
  | _ => false

section Ranks

variable {cluster : Cluster Host} {rank : Nat} {here : RankState} {action : Action}
  {rest : List Action}

theorem RankWired.head (own : RankWired cluster rank here) (todo : here.todo = action :: rest) :
    here.log ++ action :: rest = connectProcessGroup (rank % 2 = 0) := by
  rw [← todo]
  exact own.program

theorem RankWired.next_program (own : RankWired cluster rank here)
    (todo : here.todo = action :: rest) {later : RankState} (log : later.log = here.log)
    (sound : later.failed = false) :
    (later.performed action rest).log ++ (later.performed action rest).todo =
      connectProcessGroup (rank % 2 = 0) := by
  simp [RankState.performed, log, sound, ← own.head todo]

theorem RankWired.quiet (own : RankWired cluster rank here) (todo : here.todo = action :: rest)
    (quiet : action.quiet = true) : RankWired cluster rank (here.performed action rest) := by
  have other : ∀ {known : Action}, known.quiet = false →
      (known ∈ here.log ++ [action] ↔ known ∈ here.log) := by
    intro known loud
    have different : known ≠ action := by
      rintro rfl
      simp [quiet] at loud
    simp [different]
  constructor
  · exact own.next_program todo rfl own.sound
  · exact own.sound
  · simp only [RankState.performed, @other .connectToHost rfl]
    exact own.nextSocket
  · simp only [RankState.performed, @other .accept rfl]
    exact own.previousSocket
  · intro side
    simp only [RankState.performed, @other (.readExchange side) rfl]
    exact own.remote side
  · intro side
    simp only [RankState.performed, @other (.readReady side) rfl]
    exact own.ready side
  · intro side
    simp only [RankState.performed, @other (.modifyQp side .rts) rfl]
    exact own.rts side
  · intro side
    simp only [RankState.performed, @other (.modifyQp side .rtr) rfl]
    exact own.destination side

theorem RankWired.connected (own : RankWired cluster rank here)
    (todo : here.todo = .connectToHost :: rest) :
    RankWired cluster rank
      (RankState.performed { here with nextSocket := some rank } .connectToHost rest) := by
  constructor
  · exact own.next_program todo rfl own.sound
  · exact own.sound
  · simp [RankState.performed]
  · simpa [RankState.performed] using own.previousSocket
  · simpa [RankState.performed] using own.remote
  · simpa [RankState.performed] using own.ready
  · simpa [RankState.performed] using own.rts
  · simpa [RankState.performed] using own.destination

theorem RankWired.accepted (own : RankWired cluster rank here)
    (todo : here.todo = .accept :: rest) :
    RankWired cluster rank (RankState.performed
      { here with previousSocket := some (previousRank cluster.worldSize rank) }
      .accept rest) := by
  constructor
  · exact own.next_program todo rfl own.sound
  · exact own.sound
  · simpa [RankState.performed] using own.nextSocket
  · simp [RankState.performed]
  · simpa [RankState.performed] using own.remote
  · simpa [RankState.performed] using own.ready
  · simpa [RankState.performed] using own.rts
  · simpa [RankState.performed] using own.destination

theorem RankWired.exchanged (own : RankWired cluster rank here) {side : Side}
    (todo : here.todo = .readExchange side :: rest) :
    RankWired cluster rank (RankState.performed
      { here with remote := Function.update here.remote side (cluster.peerData rank side) }
      (.readExchange side) rest) := by
  constructor
  · exact own.next_program todo rfl own.sound
  · exact own.sound
  · simpa [RankState.performed] using own.nextSocket
  · simpa [RankState.performed] using own.previousSocket
  · intro other done
    by_cases same : other = side
    · subst same
      simp [RankState.performed]
    · have early : .readExchange other ∈ here.log := by
        simpa [RankState.performed, same] using done
      simpa [RankState.performed, same] using own.remote other early
  · simpa [RankState.performed] using own.ready
  · simpa [RankState.performed] using own.rts
  · simpa [RankState.performed] using own.destination

theorem RankWired.readied (own : RankWired cluster rank here) {side : Side}
    (todo : here.todo = .readReady side :: rest) :
    RankWired cluster rank (RankState.performed
      { here with ready := Function.update here.ready side 1 } (.readReady side) rest) := by
  constructor
  · exact own.next_program todo rfl own.sound
  · exact own.sound
  · simpa [RankState.performed] using own.nextSocket
  · simpa [RankState.performed] using own.previousSocket
  · simpa [RankState.performed] using own.remote
  · intro other done
    by_cases same : other = side
    · subst same
      simp [RankState.performed]
    · have early : .readReady other ∈ here.log := by
        simpa [RankState.performed, same] using done
      simpa [RankState.performed, same] using own.ready other early
  · simpa [RankState.performed] using own.rts
  · simpa [RankState.performed] using own.destination

theorem RankWired.checked (own : RankWired cluster rank here)
    (todo : here.todo = .checkReady :: rest) :
    RankWired cluster rank (RankState.performed
      { here with failed := decide (here.ready .next ≠ 1 ∨ here.ready .previous ≠ 1) }
      .checkReady rest) := by
  have next := own.ready .next (before_head (own.head todo) (by decide))
  have previous := own.ready .previous (before_head (own.head todo) (by decide))
  constructor
  · exact own.next_program todo rfl (by simp [next, previous])
  · simp [RankState.performed, next, previous]
  · simpa [RankState.performed] using own.nextSocket
  · simpa [RankState.performed] using own.previousSocket
  · simpa [RankState.performed] using own.remote
  · simpa [RankState.performed] using own.ready
  · simpa [RankState.performed] using own.rts
  · simpa [RankState.performed] using own.destination

theorem RankWired.modified (own : RankWired cluster rank here) {side : Side} {state : QpState}
    (todo : here.todo = .modifyQp side state :: rest) :
    RankWired cluster rank (RankState.performed
      { here with
        queuePair := Function.update here.queuePair side
          ((here.queuePair side).modify (here.remote side) state) }
      (.modifyQp side state) rest) := by
  have head := own.head todo
  have planned : state ≠ .reset := by
    rintro rfl
    have member : .modifyQp side .reset ∈ connectProcessGroup (rank % 2 = 0) := by
      rw [← head]
      simp
    revert member
    cases side <;> cases decide (rank % 2 = 0) <;> decide
  constructor
  · exact own.next_program todo rfl own.sound
  · exact own.sound
  · simpa [RankState.performed] using own.nextSocket
  · simpa [RankState.performed] using own.previousSocket
  · simpa [RankState.performed] using own.remote
  · simpa [RankState.performed] using own.ready
  · intro other done
    by_cases same : other = side
    · subst same
      cases state with
      | rts => simp [RankState.performed, QueuePair.modify]
      | reset => exact absurd rfl planned
      | init =>
          have early : .modifyQp other .rts ∈ here.log := by
            simpa [RankState.performed] using done
          exact absurd early (after_head head (by cases other <;> decide))
      | rtr =>
          have early : .modifyQp other .rts ∈ here.log := by
            simpa [RankState.performed] using done
          exact absurd early (after_head head (by cases other <;> decide))
    · have early : .modifyQp other .rts ∈ here.log := by
        simpa [RankState.performed, same] using done
      simpa [RankState.performed, same] using own.rts other early
  · intro other done
    by_cases same : other = side
    · subst same
      cases state with
      | rtr =>
          have known := own.remote other (before_head head (by cases other <;> decide))
          simp [RankState.performed, QueuePair.modify, known]
      | reset => exact absurd rfl planned
      | init =>
          have early : .modifyQp other .rtr ∈ here.log := by
            simpa [RankState.performed] using done
          exact absurd early (after_head head (by cases other <;> decide))
      | rts =>
          have early : .modifyQp other .rtr ∈ here.log := by
            simpa [RankState.performed] using done
          simpa [RankState.performed, QueuePair.modify] using own.destination other early
    · have early : .modifyQp other .rtr ∈ here.log := by
        simpa [RankState.performed, same] using done
      simpa [RankState.performed, same] using own.destination other early

end Ranks

end RingAllReduce.Bootstrap
