import RingAllReduce.BootstrapStreams

/-! One operation of a rank, kind by kind. -/

namespace RingAllReduce.Bootstrap

variable {Host : Type}

section Operations

variable {cluster : Cluster Host} {world : World} {rank : Nat} {rest : List Action}
  {here : RankState} {net : Net}

theorem Wired.server (wired : Wired cluster world) (bound : rank < cluster.worldSize) :
    LinkWired cluster (previousRank cluster.worldSize rank)
      (world.rank (previousRank cluster.worldSize rank)) (world.rank rank) world.net := by
  have link := wired.links _ (previousRank_lt cluster.several rank)
  rwa [nextRank_previousRank bound] at link

theorem Wired.advance_next (wired : Wired cluster world) (bound : rank < cluster.worldSize)
    {action : Action} (todo : (world.rank rank).todo = action :: rest)
    (own : RankWired cluster rank (here.performed action rest))
    (log : here.log = (world.rank rank).log) (apart : action.side ≠ some .previous)
    (client : LinkWired cluster rank (here.performed action rest)
      (world.rank (nextRank cluster.worldSize rank)) net)
    (listener : net.listener rank = world.net.listener rank)
    (toServer : ∀ other, other ≠ rank → net.toServer other = world.net.toServer other)
    (toClient : ∀ other, other ≠ rank → net.toClient other = world.net.toClient other)
    (listeners : ∀ other, other ≠ rank → other < cluster.worldSize →
      net.listener (nextRank cluster.worldSize other) =
        world.net.listener (nextRank cluster.worldSize other)) :
    Wired cluster
      { rank := Function.update world.rank rank (here.performed action rest), net := net } := by
  have ahead := previousRank_ne cluster.several bound
  apply wired.advance bound own client
  · apply ((wired.server bound).server_other apart _ (by simp [todo])).congr
    · rw [nextRank_previousRank bound]
      exact listener
    · exact toServer _ ahead
    · exact toClient _ ahead
    · simp [RankState.performed, log]
  · intro other different _ otherBound
    exact ⟨listeners other different otherBound, toServer other different,
      toClient other different⟩

theorem Wired.advance_previous (wired : Wired cluster world) (bound : rank < cluster.worldSize)
    {action : Action} (todo : (world.rank rank).todo = action :: rest)
    (own : RankWired cluster rank (here.performed action rest))
    (log : here.log = (world.rank rank).log) (apart : action.side ≠ some .next)
    (server : LinkWired cluster (previousRank cluster.worldSize rank)
      (world.rank (previousRank cluster.worldSize rank)) (here.performed action rest) net)
    (listeners : ∀ other, other ≠ rank → net.listener other = world.net.listener other)
    (toServer : ∀ other, other ≠ previousRank cluster.worldSize rank →
      net.toServer other = world.net.toServer other)
    (toClient : ∀ other, other ≠ previousRank cluster.worldSize rank →
      net.toClient other = world.net.toClient other) :
    Wired cluster
      { rank := Function.update world.rank rank (here.performed action rest), net := net } := by
  have ahead := previousRank_ne cluster.several bound
  refine wired.advance bound own ?_ server ?_
  · apply ((wired.links rank bound).client_other apart _ (by simp [todo])).congr
    · exact listeners _ (nextRank_ne cluster.several bound)
    · exact toServer _ ahead.symm
    · exact toClient _ ahead.symm
    · simp [RankState.performed, log]
  · intro other different before otherBound
    refine ⟨listeners _ ?_, toServer other before, toClient other before⟩
    intro reached
    rw [← reached, previousRank_nextRank otherBound] at before
    exact before rfl

theorem Wired.advance_local (wired : Wired cluster world) (bound : rank < cluster.worldSize)
    {action : Action} (todo : (world.rank rank).todo = action :: rest)
    (own : RankWired cluster rank (here.performed action rest))
    (log : here.log = (world.rank rank).log) (apart : action.side = none) :
    Wired cluster
      { rank := Function.update world.rank rank (here.performed action rest)
        net := world.net } := by
  have link := wired.links rank bound
  have noted : (here.performed action rest).log = (world.rank rank).log ++ [action] := by
    simp [RankState.performed, log]
  have away : action.side ≠ some .next := by simp [apart]
  apply wired.advance_next bound todo own log (by simp [apart])
  · exact link.client_other away noted (by simp [todo])
  · rfl
  · exact fun _ _ => rfl
  · exact fun _ _ => rfl
  · exact fun _ _ _ => rfl

/-- The listening socket a connection reaches is that of the next rank: no other listens on its
port. -/
theorem Wired.reached [DecidableEq Host] (wired : Wired cluster world) {server : Nat} {host : Host}
    (serverBound : server < cluster.worldSize)
    (reached : cluster.reaches world.net host (basePort + rank) server = true) :
    server = nextRank cluster.worldSize rank ∧
      world.net.listener server = some { port := basePort + rank, backlog := [] } := by
  unfold Cluster.reaches at reached
  split at reached
  · simp at reached
  · rename_i listener found
    have facts := of_decide_eq_true reached
    have link := wired.server serverBound
    have told := link.listener
    rw [nextRank_previousRank serverBound, found] at told
    split at told
    · have port := congrArg Listener.port (Option.some.inj told)
      have own : previousRank cluster.worldSize server = rank := by
        have same : basePort + previousRank cluster.worldSize server = basePort + rank :=
          port.symm.trans facts.2.1
        omega
      refine ⟨by rw [← own, nextRank_previousRank serverBound], ?_⟩
      rw [found]
      obtain ⟨port, backlog⟩ := listener
      obtain ⟨-, rfl, rfl⟩ := facts
      rfl
    · simp at told

theorem Wired.connect [DecidableEq Host] (wired : Wired cluster world)
    (bound : rank < cluster.worldSize) (todo : (world.rank rank).todo = .connectToHost :: rest)
    (performed : perform cluster rank (world.rank rank) world.net .connectToHost =
      some (here, net)) :
    here.log = (world.rank rank).log ∧ Wired cluster
      { rank := Function.update world.rank rank (here.performed .connectToHost rest)
        net := net } := by
  simp only [perform, Option.bind_eq_some_iff, Option.map_eq_some_iff, Prod.mk.injEq] at performed
  obtain ⟨server, found, listener, listening, rfl, rfl⟩ := performed
  have serverBound : server < cluster.worldSize := List.mem_range.mp (List.mem_of_find?_eq_some found)
  obtain ⟨rfl, told⟩ := wired.reached serverBound (List.find?_some found)
  obtain rfl : listener = { port := basePort + rank, backlog := [] } := by
    simpa [listening] using told
  have own := wired.ranks rank bound
  have link := wired.links rank bound
  have ahead := nextRank_ne cluster.several bound
  have open' : .listen ∈ (world.rank (nextRank cluster.worldSize rank)).log ∧
      .accept ∉ (world.rank (nextRank cluster.worldSize rank)).log := by
    have told := link.listener
    rw [listening] at told
    by_contra closed
    simp [closed] at told
  refine ⟨rfl, wired.advance_next bound todo (own.connected todo) rfl (by simp [Action.side]) ?_ ?_
    ?_ ?_ ?_⟩
  · obtain ⟨more, fetched, streamBound, stream, origins, serverBusy, clientBusy⟩ := link.toClient
    refine ⟨fun _ => open'.1, fun _ => by simp [RankState.performed], ?_, ?_, ?_, more, fetched, ?_,
      ?_, origins, serverBusy, fun _ => clientBusy (by simp [todo])⟩
    · simp [RankState.performed, open'.1, open'.2]
    · simpa [RankState.performed, sent] using link.toServerBound
    · simpa [RankState.performed, sent] using link.toServer
    · simpa [RankState.performed, taken] using streamBound
    · simpa [RankState.performed, taken] using stream
  · simp [ahead.symm]
  · exact fun _ _ => rfl
  · exact fun _ _ => rfl
  · intro other different otherBound
    have apart : nextRank cluster.worldSize other ≠ nextRank cluster.worldSize rank := by
      intro same
      apply different
      rw [← previousRank_nextRank otherBound, same, previousRank_nextRank bound]
    simp [apart]

theorem Wired.listening [DecidableEq Host] (wired : Wired cluster world)
    (bound : rank < cluster.worldSize) (todo : (world.rank rank).todo = .listen :: rest)
    (performed : perform cluster rank (world.rank rank) world.net .listen = some (here, net)) :
    here.log = (world.rank rank).log ∧ Wired cluster
      { rank := Function.update world.rank rank (here.performed .listen rest)
        net := net } := by
  simp only [perform, Option.some.injEq, Prod.mk.injEq] at performed
  obtain ⟨rfl, rfl⟩ := performed
  have own := wired.ranks rank bound
  have link := wired.server bound
  have before := previousRank_lt cluster.several rank
  have ports := cluster.ports
  have small : basePort + previousRank cluster.worldSize rank < 65536 := by
    unfold basePort
    omega
  have unlistened := head_absent (own.head todo)
  have unasked : .connectToHost ∉ (world.rank (previousRank cluster.worldSize rank)).log :=
    fun asked => unlistened (link.asked asked)
  have unaccepted : .accept ∉ (world.rank rank).log := after_head (own.head todo) (by decide)
  refine ⟨rfl, wired.advance_previous bound todo (own.quiet todo rfl) rfl (by simp [Action.side]) ?_
    ?_ ?_ ?_⟩
  · obtain ⟨more, fetched, streamBound, stream, origins, serverBusy, clientBusy⟩ := link.toClient
    refine ⟨fun _ => by simp [RankState.performed], ?_, ?_, ?_, ?_, more, fetched, ?_, ?_, origins,
      fun _ => serverBusy (by simp [todo]), clientBusy⟩
    · simpa [RankState.performed] using link.made
    · simp [RankState.performed, nextRank_previousRank bound, unasked, unaccepted, small]
    · simpa [RankState.performed, taken] using link.toServerBound
    · simpa [RankState.performed, taken] using link.toServer
    · simpa [RankState.performed, sent] using streamBound
    · simpa [RankState.performed, sent] using stream
  · intro other different
    simp [different]
  · exact fun _ _ => rfl
  · exact fun _ _ => rfl

theorem Wired.accepting [DecidableEq Host] (wired : Wired cluster world)
    (bound : rank < cluster.worldSize) (todo : (world.rank rank).todo = .accept :: rest)
    (performed : perform cluster rank (world.rank rank) world.net .accept = some (here, net)) :
    here.log = (world.rank rank).log ∧ Wired cluster
      { rank := Function.update world.rank rank (here.performed .accept rest)
        net := net } := by
  simp only [perform, Option.bind_eq_some_iff, Option.map_eq_some_iff, Prod.mk.injEq] at performed
  obtain ⟨listener, listening, connection, queued, rfl, rfl⟩ := performed
  have own := wired.ranks rank bound
  have link := wired.server bound
  have told := link.listener
  rw [nextRank_previousRank bound, listening] at told
  have asked : .connectToHost ∈ (world.rank (previousRank cluster.worldSize rank)).log := by
    by_contra unasked
    rw [if_neg unasked] at told
    split at told
    · obtain rfl := Option.some.inj told
      simp at queued
    · simp at told
  obtain rfl : connection = previousRank cluster.worldSize rank := by
    rw [if_pos asked] at told
    split at told
    · obtain rfl := Option.some.inj told
      simpa using queued.symm
    · simp at told
  refine ⟨rfl, wired.advance_previous bound todo (own.accepted todo) rfl (by simp [Action.side]) ?_
    ?_ ?_ ?_⟩
  · obtain ⟨more, fetched, streamBound, stream, origins, serverBusy, clientBusy⟩ := link.toClient
    refine ⟨?_, fun _ => asked, ?_, ?_, ?_, more, fetched, ?_, ?_, origins,
      fun _ => serverBusy (by simp [todo]), clientBusy⟩
    · simpa [RankState.performed] using link.asked
    · simp [RankState.performed, nextRank_previousRank bound]
    · simpa [RankState.performed, taken] using link.toServerBound
    · simpa [RankState.performed, taken] using link.toServer
    · simpa [RankState.performed, sent] using streamBound
    · simpa [RankState.performed, sent] using stream
  · intro other different
    simp [different]
  · exact fun _ _ => rfl
  · exact fun _ _ => rfl

theorem RankWired.socket_next (own : RankWired cluster rank here) {connection : Nat}
    (found : here.socket .next = some connection) : connection = rank := by
  simp only [RankState.socket, own.nextSocket] at found
  split at found
  · exact (Option.some.inj found).symm
  · simp at found

theorem RankWired.socket_previous (own : RankWired cluster rank here) {connection : Nat}
    (found : here.socket .previous = some connection) :
    connection = previousRank cluster.worldSize rank := by
  simp only [RankState.socket, own.previousSocket] at found
  split at found
  · exact (Option.some.inj found).symm
  · simp at found

theorem Wired.writes (wired : Wired cluster world) (bound : rank < cluster.worldSize)
    {side : Side} {action : Action} (todo : (world.rank rank).todo = action :: rest)
    (quiet : action.quiet = true) (own : action.side = some side)
    (writes : ∀ side, action ≠ .readExchange side ∧ action ≠ .readReady side)
    (other : action ≠ .listen) {connection : Nat} {content : List Octet}
    (found : (world.rank rank).socket side = some connection)
    (adds : sent (cluster.exchangeData rank side) side ((world.rank rank).log ++ [action]) =
      sent (cluster.exchangeData rank side) side (world.rank rank).log ++ content) :
    Wired cluster
      { rank := Function.update world.rank rank ((world.rank rank).performed action rest)
        net := world.net.write connection content side } := by
  have state := wired.ranks rank bound
  have loud : action ≠ .connectToHost ∧ action ≠ .accept := by
    constructor <;> rintro rfl <;> simp [Action.quiet] at quiet
  cases side with
  | next =>
      obtain rfl := state.socket_next found
      apply wired.advance_next bound todo (state.quiet todo quiet) rfl (by simp [own])
      · exact (wired.links _ bound).client_writes rfl writes loud.1 (by simp [todo]) adds
      · rfl
      · intro link different
        simp [Net.write, different]
      · exact fun _ _ => rfl
      · exact fun _ _ _ => rfl
  | previous =>
      obtain rfl := state.socket_previous found
      apply wired.advance_previous bound todo (state.quiet todo quiet) rfl (by simp [own])
      · refine (wired.server bound).server_writes rfl writes ⟨other, loud.2⟩ (by simp [todo]) ?_
        rw [Cluster.peerData, nextRank_previousRank bound]
        exact adds
      · exact fun _ _ => rfl
      · exact fun _ _ => rfl
      · intro link different
        simp [Net.write, different]

theorem Wired.reads (wired : Wired cluster world) (bound : rank < cluster.worldSize)
    {side : Side} {action : Action} (todo : (world.rank rank).todo = action :: rest)
    (state : RankWired cluster rank (here.performed action rest))
    (log : here.log = (world.rank rank).log) (own : action.side = some side)
    (reads : ∀ side, action ≠ .writeExchange side ∧ action ≠ .writeReady side)
    (other : action ≠ .connectToHost ∧ action ≠ .listen ∧ action ≠ .accept) {connection : Nat}
    (found : (world.rank rank).socket side = some connection) {count : Nat} {bytes : List UInt8}
    (read : world.net.read connection count side = some (bytes, net))
    (adds : taken side ((world.rank rank).log ++ [action]) =
      taken side (world.rank rank).log + count) :
    Wired cluster
      { rank := Function.update world.rank rank (here.performed action rest), net := net } := by
  have before := wired.ranks rank bound
  have noted : (here.performed action rest).log = (world.rank rank).log ++ [action] := by
    simp [RankState.performed, log]
  cases side with
  | next =>
      obtain rfl := before.socket_next found
      have frame : net.listener = world.net.listener ∧ net.toServer = world.net.toServer ∧
          ∀ link, link ≠ connection → net.toClient link = world.net.toClient link := by
        simp only [Net.read] at read
        split at read
        · simp at read
        · simp only [Option.some.injEq, Prod.mk.injEq] at read
          obtain ⟨-, rfl⟩ := read
          exact ⟨rfl, rfl, fun link different => by simp [different]⟩
      apply wired.advance_next bound todo state log (by simp [own])
      · refine (wired.links _ bound).client_reads noted reads other.1 (by simp [todo]) ?_ read
        rw [noted]
        exact adds
      · rw [frame.1]
      · intro link _
        rw [frame.2.1]
      · exact frame.2.2
      · intro link _ _
        rw [frame.1]
  | previous =>
      obtain rfl := before.socket_previous found
      have frame : net.listener = world.net.listener ∧ net.toClient = world.net.toClient ∧
          ∀ link, link ≠ previousRank cluster.worldSize rank →
            net.toServer link = world.net.toServer link := by
        simp only [Net.read] at read
        split at read
        · simp at read
        · simp only [Option.some.injEq, Prod.mk.injEq] at read
          obtain ⟨-, rfl⟩ := read
          exact ⟨rfl, rfl, fun link different => by simp [different]⟩
      apply wired.advance_previous bound todo state log (by simp [own])
      · refine (wired.server bound).server_reads noted reads other.2 (by simp [todo]) ?_ read
        rw [noted]
        exact adds
      · intro link _
        rw [frame.1]
      · exact frame.2.2
      · intro link _
        rw [frame.2.1]

theorem RankWired.read_exchange (own : RankWired cluster rank (world.rank rank))
    (wired : Wired cluster world) (bound : rank < cluster.worldSize) {side : Side}
    (todo : (world.rank rank).todo = .readExchange side :: rest) {connection : Nat}
    (found : (world.rank rank).socket side = some connection) {bytes : List UInt8}
    (read : world.net.read connection 8 side = some (bytes, net)) :
    ExchangeData.ofBytes bytes = cluster.peerData rank side := by
  have head := own.head todo
  have unread := (taken_exchange head).1
  cases side with
  | next =>
      obtain rfl := own.socket_next found
      obtain ⟨more, idle, enough, told⟩ := (wired.links _ bound).client_bytes (by simp [todo]) read
      have server := wired.ranks _ (nextRank_lt cluster.several connection)
      rw [unread, Nat.zero_add] at enough
      obtain ⟨tail, starts⟩ := sent_starts server.program idle (by omega) enough
      rw [told, unread, List.drop_zero, starts, List.take_left' (by simp), octets_values]
      exact ExchangeData.ofBytes_bytes _
  | previous =>
      obtain rfl := own.socket_previous found
      obtain ⟨enough, told⟩ := (wired.server bound).server_bytes read
      have client := wired.ranks _ (previousRank_lt cluster.several rank)
      rw [unread, Nat.zero_add] at enough
      obtain ⟨tail, starts⟩ := sent_starts client.program (fun _ => rfl) (by omega) enough
      rw [told, unread, List.drop_zero, starts, List.take_left' (by simp), octets_values]
      exact ExchangeData.ofBytes_bytes _

theorem RankWired.read_ready (own : RankWired cluster rank (world.rank rank))
    (wired : Wired cluster world) (bound : rank < cluster.worldSize) {side : Side}
    (todo : (world.rank rank).todo = .readReady side :: rest) {connection : Nat}
    (found : (world.rank rank).socket side = some connection) {bytes : List UInt8}
    (read : world.net.read connection 1 side = some (bytes, net)) : bytes.headD 0 = 1 := by
  have head := own.head todo
  have half := (taken_ready head).1
  cases side with
  | next =>
      obtain rfl := own.socket_next found
      obtain ⟨more, idle, enough, told⟩ := (wired.links _ bound).client_bytes (by simp [todo]) read
      have server := wired.ranks _ (nextRank_lt cluster.several connection)
      rw [half] at enough
      rw [told, half, (sent_continues server.program idle (by omega)).2]
      rfl
  | previous =>
      obtain rfl := own.socket_previous found
      obtain ⟨enough, told⟩ := (wired.server bound).server_bytes read
      have client := wired.ranks _ (previousRank_lt cluster.several rank)
      rw [half] at enough
      rw [told, half, (sent_continues client.program (fun _ => rfl) (by omega)).2]
      rfl

theorem Wired.boot [DecidableEq Host] (wired : Wired cluster world)
    (bound : rank < cluster.worldSize) {after : World}
    (stepped : bootStep cluster rank world = some after) : Wired cluster after := by
  have own := wired.ranks rank bound
  unfold bootStep at stepped
  split at stepped
  · simp at stepped
  · rename_i action rest todo
    obtain ⟨⟨here, net⟩, performed, rfl⟩ := Option.map_eq_some_iff.mp stepped
    have head := own.head todo
    change Wired cluster
      { rank := Function.update world.rank rank (here.performed action rest), net := net }
    cases action with
    | connectToHost => exact (wired.connect bound todo performed).2
    | listen => exact (wired.listening bound todo performed).2
    | accept => exact (wired.accepting bound todo performed).2
    | writeExchange side =>
        obtain ⟨connection, found, facts⟩ := Option.map_eq_some_iff.mp performed
        obtain ⟨rfl, rfl⟩ := Prod.mk.inj facts
        exact wired.writes bound todo rfl rfl (by simp) (by simp) found (sent_exchange head)
    | writeReady side =>
        obtain ⟨connection, found, facts⟩ := Option.map_eq_some_iff.mp performed
        obtain ⟨rfl, rfl⟩ := Prod.mk.inj facts
        exact wired.writes bound todo rfl rfl (by simp) (by simp) found (sent_ready head)
    | readExchange side =>
        obtain ⟨connection, found, told⟩ := Option.bind_eq_some_iff.mp performed
        obtain ⟨⟨bytes, later⟩, read, facts⟩ := Option.map_eq_some_iff.mp told
        obtain ⟨rfl, rfl⟩ := Prod.mk.inj facts
        have known := own.read_exchange wired bound todo found read
        obtain ⟨before, now⟩ := taken_exchange head
        refine wired.reads bound todo ?_ rfl rfl (by simp) (by simp) found read (by omega)
        rw [known]
        exact own.exchanged todo
    | readReady side =>
        obtain ⟨connection, found, told⟩ := Option.bind_eq_some_iff.mp performed
        obtain ⟨⟨bytes, later⟩, read, facts⟩ := Option.map_eq_some_iff.mp told
        obtain ⟨rfl, rfl⟩ := Prod.mk.inj facts
        have known := own.read_ready wired bound todo found read
        obtain ⟨before, now⟩ := taken_ready head
        refine wired.reads bound todo ?_ rfl rfl (by simp) (by simp) found read (by omega)
        rw [known]
        exact own.readied todo
    | modifyQp side state =>
        obtain ⟨rfl, rfl⟩ := Prod.mk.inj (Option.some.inj performed)
        exact wired.advance_local bound todo (own.modified todo) rfl rfl
    | checkReady =>
        obtain ⟨rfl, rfl⟩ := Prod.mk.inj (Option.some.inj performed)
        exact wired.advance_local bound todo (own.checked todo) rfl rfl
    | setControlSockets =>
        obtain ⟨rfl, rfl⟩ := Prod.mk.inj (Option.some.inj performed)
        exact wired.advance_local bound todo (own.quiet todo rfl) rfl rfl

end Operations

end RingAllReduce.Bootstrap
