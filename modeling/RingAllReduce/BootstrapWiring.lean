import RingAllReduce.BootstrapSteps

/-! What the bootstrap has brought about where a rank is behind its barrier. -/

namespace RingAllReduce.Bootstrap

variable {Host : Type}

section Runs

variable {cluster : Cluster Host} {world : World}

theorem initial_wired (cluster : Cluster Host) : Wired cluster initialWorld := by
  constructor
  · intro rank _
    constructor <;> simp [initialWorld]
  · intro rank _
    refine ⟨by simp [initialWorld], by simp [initialWorld], by simp [initialWorld],
      by simp [initialWorld, taken], by simp [initialWorld, sent], [], 0, ?_⟩
    simp [initialWorld, sent, taken]

theorem Wired.postReceive (wired : Wired cluster world) {rank : Nat}
    (bound : rank < cluster.worldSize) (ready : (world.rank rank).Connected) {connection : Nat}
    (socket : (world.rank rank).previousSocket = some connection) (control : List UInt8) :
    Wired cluster { world with
      net := world.net.write connection (octets .descriptor control) .previous } := by
  obtain rfl := (wired.ranks rank bound).socket_previous socket
  refine ⟨wired.ranks, ?_⟩
  intro link linkBound
  have before := wired.links link linkBound
  by_cases same : link = previousRank cluster.worldSize rank
  · obtain ⟨more, fetched, streamBound, stream, origins, serverBusy, clientBusy⟩ := before.toClient
    have reached : nextRank cluster.worldSize link = rank := by
      rw [same, nextRank_previousRank bound]
    refine ⟨before.asked, before.made, before.listener, before.toServerBound, before.toServer,
      more ++ octets .descriptor control, fetched, ?_, ?_, ?_, ?_, clientBusy⟩
    · rw [← List.append_assoc, List.length_append]
      exact streamBound.trans (Nat.le_add_right _ _)
    · rw [← List.append_assoc, List.drop_append_of_le_length streamBound, ← stream, same]
      simp [Net.write]
    · intro octet member
      rcases List.mem_append.mp member with early | late
      · exact origins octet early
      · obtain ⟨value, -, rfl⟩ := List.mem_map.mp late
        rfl
    · intro busy
      rw [reached] at busy
      exact absurd ready.1 busy
  · refine before.congr rfl rfl ?_
    simp [Net.write, same]

theorem Wired.postSend (wired : Wired cluster world) {rank : Nat}
    (bound : rank < cluster.worldSize) (ready : (world.rank rank).Connected) {connection : Nat}
    (socket : (world.rank rank).nextSocket = some connection) {count : Nat} {control : List UInt8}
    {net : Net} (fetched : world.net.read connection count .next = some (control, net)) :
    Wired cluster { world with net := net } := by
  obtain rfl := (wired.ranks rank bound).socket_next socket
  refine ⟨wired.ranks, ?_⟩
  simp only [Net.read] at fetched
  split at fetched
  · simp at fetched
  · rename_i enough
    simp only [Option.some.injEq, Prod.mk.injEq] at fetched
    obtain ⟨-, rfl⟩ := fetched
    intro link linkBound
    have before := wired.links link linkBound
    by_cases same : link = connection
    · subst same
      obtain ⟨more, consumed, streamBound, stream, origins, serverBusy, clientBusy⟩ :=
        before.toClient
      rw [stream, List.length_drop] at enough
      have total : taken .next (world.rank link).log + (consumed + count) ≤
          (sent (cluster.peerData link .next) .previous
            (world.rank (nextRank cluster.worldSize link)).log ++ more).length := by
        omega
      refine ⟨before.asked, before.made, before.listener, before.toServerBound, before.toServer,
        more, consumed + count, total, ?_, origins, serverBusy, fun busy => absurd ready.1 busy⟩
      simp only [Function.update_self, stream, List.drop_drop, Nat.add_assoc]
    · refine before.congr rfl rfl ?_
      simp [same]

theorem Reachable.wired [DecidableEq Host] (reachable : Reachable cluster world) : Wired cluster world := by
  refine Runs.Reachable.invariant (Wired cluster) reachable (initial_wired cluster) ?_
  intro before after wired step
  cases step with
  | boot rank bound taken => exact wired.boot bound taken
  | postReceive rank bound ready socket control size =>
      exact wired.postReceive bound ready socket control
  | postSend rank bound ready socket fetched => exact wired.postSend bound ready socket fetched

def World.incoming (world : World) (rank : Nat) (side : Side) : Option (List Octet) :=
  ((world.rank rank).socket side).map fun connection =>
    match side with
    | .next => world.net.toClient connection
    | .previous => world.net.toServer connection

/-- Through the ready barrier: both flags were read and are the expected ones. -/
def RankState.PassedBarrier (here : RankState) : Prop :=
  .checkReady ∈ here.log ∧ here.failed = false

/-- A rank that has announced itself ready has moved both queue pairs to RTS. -/
theorem RankWired.announced {rank : Nat} {here : RankState} (own : RankWired cluster rank here)
    {told : Side} (done : .writeReady told ∈ here.log) (side : Side) :
    here.queuePair side = { state := .rts, destQpNum := (cluster.peerData rank side).qpn
                            dlid := (cluster.peerData rank side).lid } := by
  have moved := mem_of_ordered own.program
    (show Ordered (.modifyQp side .rts) (.writeReady told) by
      cases side <;> cases told <;> decide) done
  have given := mem_of_ordered own.program
    (show Ordered (.modifyQp side .rtr) (.writeReady told) by
      cases side <;> cases told <;> decide) done
  have state := own.rts side moved
  obtain ⟨number, lid⟩ := own.destination side given
  cases pair : here.queuePair side with
  | mk _ _ _ =>
      rw [pair] at state number lid
      rw [← state, ← number, ← lid]

theorem Wired.barrier (wired : Wired cluster world) {rank : Nat}
    (bound : rank < cluster.worldSize) (passed : (world.rank rank).PassedBarrier) :
    .writeReady .previous ∈ (world.rank (nextRank cluster.worldSize rank)).log ∧
      .writeReady .next ∈ (world.rank (previousRank cluster.worldSize rank)).log ∧
      (∀ octet ∈ world.net.toClient rank, octet.origin = .descriptor) ∧
      world.net.toServer (previousRank cluster.worldSize rank) = [] := by
  have own := wired.ranks rank bound
  have all : ∀ side, taken side (world.rank rank).log = 9 := by
    intro side
    have ready := mem_of_ordered own.program
      (show Ordered (.readReady side) .checkReady by cases side <;> decide) passed.1
    have exchange := mem_of_ordered own.program (exchange_read_before_ready side) ready
    simp [taken, ready, exchange]
  have client := wired.links rank bound
  have server := wired.server bound
  have next := wired.ranks _ (nextRank_lt cluster.several rank)
  have previous := wired.ranks _ (previousRank_lt cluster.several rank)
  obtain ⟨more, fetched, streamBound, stream, origins, serverBusy, -⟩ := client.toClient
  rw [all] at streamBound stream
  have enough := lt_of_lt_of_le (show 8 < 9 + fetched by omega) streamBound
  obtain ⟨nextReady, unread⟩ := sent_continues next.program serverBusy enough
  have sentBound := server.toServerBound
  rw [all] at sentBound
  rw [← List.append_nil (sent _ _ _)] at sentBound
  obtain ⟨previousReady, rest⟩ := sent_continues previous.program (fun _ => rfl) sentBound
  refine ⟨nextReady, previousReady, ?_, ?_⟩
  · rw [stream, show 9 + fetched = 8 + (1 + fetched) by omega, ← List.drop_drop, unread]
    rw [← List.drop_drop, List.drop_left' (by simp)]
    intro octet member
    exact origins octet (List.mem_of_mem_drop member)
  · rw [List.append_nil, List.append_nil] at rest
    rw [server.toServer, all, show 9 = 8 + 1 from rfl, ← List.drop_drop, rest]
    rfl

/-- Through the barrier: both neighbours have moved both queue pairs to RTS, the two ends of the
link to the next rank know each other, and nothing of the bootstrap is left to be read. -/
theorem ring_wired [DecidableEq Host] (reachable : Reachable cluster world) {rank : Nat}
    (bound : rank < cluster.worldSize) (passed : (world.rank rank).PassedBarrier) :
    (∀ neighbour side, (neighbour = nextRank cluster.worldSize rank ∨
        neighbour = previousRank cluster.worldSize rank) →
      ((world.rank neighbour).queuePair side).state = .rts) ∧
    (world.rank rank).queuePair .next =
      { state := .rts, destQpNum := cluster.qpNum (nextRank cluster.worldSize rank) .previous
        dlid := cluster.lid (nextRank cluster.worldSize rank) } ∧
    (world.rank (nextRank cluster.worldSize rank)).queuePair .previous =
      { state := .rts, destQpNum := cluster.qpNum rank .next, dlid := cluster.lid rank } ∧
    (world.rank rank).nextSocket =
      (world.rank (nextRank cluster.worldSize rank)).previousSocket ∧
    ∀ side, ∃ stream, world.incoming rank side = some stream ∧
      ∀ octet ∈ stream, octet.origin = .descriptor := by
  have wired := reachable.wired
  have own := wired.ranks rank bound
  have next := wired.ranks _ (nextRank_lt cluster.several rank)
  have previous := wired.ranks _ (previousRank_lt cluster.several rank)
  obtain ⟨nextReady, previousReady, toClient, toServer⟩ := wired.barrier bound passed
  have ownReady := mem_of_ordered own.program
    (show Ordered (.writeReady .next) .checkReady by decide) passed.1
  have connected := mem_of_ordered own.program
    (show Ordered .connectToHost .checkReady by decide) passed.1
  have accepted := mem_of_ordered own.program (show Ordered .accept .checkReady by decide) passed.1
  have reached := mem_of_ordered next.program
    (show Ordered .accept (.writeReady .previous) by decide) nextReady
  have back := previousRank_nextRank bound
  refine ⟨?_, own.announced ownReady .next, ?_, ?_, ?_⟩
  · rintro neighbour side (rfl | rfl)
    · rw [next.announced nextReady side]
    · rw [previous.announced previousReady side]
  · rw [next.announced nextReady .previous, Cluster.peerData, back]
    rfl
  · rw [own.nextSocket, if_pos connected, next.previousSocket, if_pos reached, back]
  · intro side
    cases side with
    | next =>
        refine ⟨world.net.toClient rank, ?_, toClient⟩
        simp [World.incoming, RankState.socket, own.nextSocket, connected]
    | previous =>
        refine ⟨world.net.toServer (previousRank cluster.worldSize rank), ?_, by simp [toServer]⟩
        simp [World.incoming, RankState.socket, own.previousSocket, accepted]

end Runs

def pairCluster : Cluster Unit where
  worldSize := 2
  several := by decide
  host _ := ()
  ports := by decide
  qpNum rank side := UInt32.ofNat (10 * rank + if side = .next then 1 else 2)
  lid rank := UInt16.ofNat (100 + rank)

/-- A run that takes both ranks of the pair through the bootstrap. -/
def pairMoves : List Nat :=
  [1, 0, 1, 0, 1, 0] ++ [0, 0, 1, 1, 0, 0, 1, 1] ++ List.replicate 6 0 ++ List.replicate 6 1 ++
    [0, 0, 1, 1] ++ List.replicate 4 0 ++ List.replicate 4 1

theorem pair_booted : ∃ world, Reachable pairCluster world ∧
    (world.rank 0).PassedBarrier ∧ (world.rank 0).Connected ∧ (world.rank 1).Connected := by
  have checked : (bootFollow pairCluster pairMoves).any (fun world =>
      decide ((.checkReady ∈ (world.rank 0).log ∧ (world.rank 0).failed = false) ∧
        ((world.rank 0).todo = [] ∧ (world.rank 0).failed = false) ∧
        ((world.rank 1).todo = [] ∧ (world.rank 1).failed = false))) = true := by
    decide +kernel
  cases followed : bootFollow pairCluster pairMoves with
  | none => simp [followed] at checked
  | some world =>
      rw [followed, Option.any_some, decide_eq_true_iff] at checked
      exact ⟨world, reachable_of_bootFollow followed, checked⟩

theorem ring_wired_pair : ∃ world, Reachable pairCluster world ∧
    ((world.rank 0).queuePair .next).destQpNum = 12 ∧
      ((world.rank 1).queuePair .previous).destQpNum = 1 := by
  obtain ⟨world, reachable, passed, -⟩ := pair_booted
  obtain ⟨-, next, previous, -⟩ := ring_wired reachable (show 0 < pairCluster.worldSize by decide)
    passed
  refine ⟨world, reachable, ?_, ?_⟩
  · rw [next]
    rfl
  · have same : nextRank pairCluster.worldSize 0 = 1 := by decide
    rw [← same, previous]
    rfl

end RingAllReduce.Bootstrap
