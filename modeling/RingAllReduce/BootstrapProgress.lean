import Mathlib.Algebra.Order.BigOperators.Group.Finset
import Mathlib.Data.Finset.Max
import RingAllReduce.BootstrapWiring

/-! The bootstrap has no circular wait: wherever a rank is not through, some rank can go on. -/

namespace RingAllReduce.Bootstrap

def Side.opposite : Side → Side
  | .next => .previous
  | .previous => .next

variable {Host : Type}

def Cluster.neighbour (cluster : Cluster Host) (rank : Nat) : Side → Nat
  | .next => nextRank cluster.worldSize rank
  | .previous => previousRank cluster.worldSize rank

/-- What a rank is blocked on: an operation its neighbour has yet to perform. -/
inductive WaitsFor (cluster : Cluster Host) (world : World) (rank : Nat) : Action → Prop where
  | listener (missing : .listen ∉ (world.rank (nextRank cluster.worldSize rank)).log) :
      WaitsFor cluster world rank .connectToHost
  | connection
      (missing : .connectToHost ∉ (world.rank (previousRank cluster.worldSize rank)).log) :
      WaitsFor cluster world rank .accept
  | exchange (side : Side)
      (missing : .writeExchange side.opposite ∉ (world.rank (cluster.neighbour rank side)).log) :
      WaitsFor cluster world rank (.readExchange side)
  | ready (side : Side)
      (missing : .writeReady side.opposite ∉ (world.rank (cluster.neighbour rank side)).log) :
      WaitsFor cluster world rank (.readReady side)

section Blocked

variable {cluster : Cluster Host} {world : World} {rank : Nat} {rest : List Action}

theorem Wired.connects [DecidableEq Host] (wired : Wired cluster world)
    (bound : rank < cluster.worldSize) (todo : (world.rank rank).todo = .connectToHost :: rest)
    (listens : .listen ∈ (world.rank (nextRank cluster.worldSize rank)).log) :
    (perform cluster rank (world.rank rank) world.net .connectToHost).isSome := by
  have own := wired.ranks rank bound
  have link := wired.links rank bound
  have unmade := head_absent (own.head todo)
  have unaccepted : .accept ∉ (world.rank (nextRank cluster.worldSize rank)).log :=
    fun accepted => unmade (link.made accepted)
  have listening : world.net.listener (nextRank cluster.worldSize rank) =
      some { port := basePort + rank, backlog := [] } := by
    rw [link.listener, if_pos ⟨listens, unaccepted⟩, if_neg unmade]
  have reaches : cluster.reaches world.net (cluster.host (nextRank cluster.worldSize rank))
      (basePort + rank) (nextRank cluster.worldSize rank) = true := by
    simp [Cluster.reaches, listening]
  have member : nextRank cluster.worldSize rank ∈ List.range cluster.worldSize :=
    List.mem_range.mpr (nextRank_lt cluster.several rank)
  cases found : (List.range cluster.worldSize).find? (cluster.reaches world.net
      (cluster.host (nextRank cluster.worldSize rank)) (basePort + rank)) with
  | none => exact absurd reaches (List.find?_eq_none.mp found _ member)
  | some server =>
      have serverBound := List.mem_range.mp (List.mem_of_find?_eq_some found)
      obtain ⟨rfl, told⟩ := wired.reached serverBound (List.find?_some found)
      simp [perform, found, listening]

theorem Wired.accepts [DecidableEq Host] (wired : Wired cluster world)
    (bound : rank < cluster.worldSize) (todo : (world.rank rank).todo = .accept :: rest)
    (connected : .connectToHost ∈ (world.rank (previousRank cluster.worldSize rank)).log) :
    (perform cluster rank (world.rank rank) world.net .accept).isSome := by
  have own := wired.ranks rank bound
  have head := own.head todo
  have told := (wired.server bound).listener
  have listens : .listen ∈ (world.rank rank).log := before_head head (by decide)
  rw [nextRank_previousRank bound, if_pos ⟨listens, head_absent head⟩, if_pos connected] at told
  simp [perform, told]

theorem RankWired.socket {here : RankState} (own : RankWired cluster rank here) {action : Action}
    (todo : here.todo = action :: rest) (connected : Ordered .connectToHost action)
    (accepted : Ordered .accept action) (side : Side) :
    ∃ connection, here.socket side = some connection := by
  have head := own.head todo
  cases side with
  | next => exact ⟨rank, by simp [RankState.socket, own.nextSocket, before_head head connected]⟩
  | previous =>
      exact ⟨previousRank cluster.worldSize rank, by
        simp [RankState.socket, own.previousSocket, before_head head accepted]⟩

theorem sent_length_exchange {data : ExchangeData} {side : Side} {log : List Action}
    (written : .writeExchange side ∈ log) : 8 ≤ (sent data side log).length := by
  simp [sent, written]

theorem sent_length_ready {even : Bool} {data : ExchangeData} {side : Side}
    {log todo : List Action} (program : log ++ todo = connectProcessGroup even)
    (written : .writeReady side ∈ log) : 9 ≤ (sent data side log).length := by
  have exchange := mem_of_ordered program (exchange_before_ready side) written
  simp [sent, written, exchange]

theorem Wired.enough (wired : Wired cluster world) (bound : rank < cluster.worldSize)
    (busy : (world.rank rank).todo ≠ []) {side : Side} {connection count : Nat}
    (found : (world.rank rank).socket side = some connection)
    (written : ∀ data, taken side (world.rank rank).log + count ≤
      (sent data side.opposite (world.rank (cluster.neighbour rank side)).log).length) :
    (world.net.read connection count side).isSome := by
  have own := wired.ranks rank bound
  cases side with
  | next =>
      obtain rfl := own.socket_next found
      obtain ⟨more, fetched, -, stream, -, -, idle⟩ := (wired.links _ bound).toClient
      have total := written (cluster.peerData connection .next)
      simp only [Side.opposite, Cluster.neighbour] at total
      have long : ¬ (world.net.toClient connection).length < count := by
        rw [stream, idle busy, List.length_drop, List.length_append]
        omega
      simp [Net.read, long]
  | previous =>
      obtain rfl := own.socket_previous found
      have stream := (wired.server bound).toServer
      have total := written
        (cluster.exchangeData (previousRank cluster.worldSize rank) .next)
      simp only [Side.opposite, Cluster.neighbour] at total
      have long : ¬ (world.net.toServer (previousRank cluster.worldSize rank)).length < count := by
        rw [stream, List.length_drop]
        omega
      simp [Net.read, long]

theorem Cluster.neighbour_lt (cluster : Cluster Host) (rank : Nat) (side : Side) :
    cluster.neighbour rank side < cluster.worldSize := by
  cases side
  · exact nextRank_lt cluster.several rank
  · exact previousRank_lt cluster.several rank

theorem Wired.blocked [DecidableEq Host] (wired : Wired cluster world)
    (bound : rank < cluster.worldSize) {action : Action}
    (todo : (world.rank rank).todo = action :: rest)
    (stuck : bootStep cluster rank world = none) : WaitsFor cluster world rank action := by
  have own := wired.ranks rank bound
  have head := own.head todo
  have none : (perform cluster rank (world.rank rank) world.net action).isSome = false := by
    simpa [bootStep, todo] using stuck
  cases action with
  | connectToHost =>
      apply WaitsFor.listener
      intro listens
      simp [wired.connects bound todo listens] at none
  | accept =>
      apply WaitsFor.connection
      intro connected
      simp [wired.accepts bound todo connected] at none
  | readExchange side =>
      apply WaitsFor.exchange
      intro written
      obtain ⟨connection, found⟩ := own.socket todo (by cases side <;> decide)
        (by cases side <;> decide) side
      have enough := @Wired.enough _ _ _ _ wired bound (by simp [todo]) side connection 8 found (by
        intro data
        rw [(taken_exchange head).1, Nat.zero_add]
        exact sent_length_exchange written)
      simp [perform, found, Option.isSome_iff_ne_none.mp enough] at none
  | readReady side =>
      apply WaitsFor.ready
      intro written
      obtain ⟨connection, found⟩ := own.socket todo (by cases side <;> decide)
        (by cases side <;> decide) side
      have neighbour := wired.ranks _ (cluster.neighbour_lt rank side)
      have enough := @Wired.enough _ _ _ _ wired bound (by simp [todo]) side connection 1 found (by
        intro data
        rw [(taken_ready head).1]
        exact sent_length_ready neighbour.program written)
      simp [perform, found, Option.isSome_iff_ne_none.mp enough] at none
  | writeExchange side =>
      obtain ⟨connection, found⟩ := own.socket todo (by cases side <;> decide)
        (by cases side <;> decide) side
      simp [perform, found] at none
  | writeReady side =>
      obtain ⟨connection, found⟩ := own.socket todo (by cases side <;> decide)
        (by cases side <;> decide) side
      simp [perform, found] at none
  | listen => simp [perform] at none
  | modifyQp side state => simp [perform] at none
  | checkReady => simp [perform] at none
  | setControlSockets => simp [perform] at none

end Blocked

/-! No rank can be blocked in the TCP ring: a wait for a listener would go round the ring over
even ranks only, a wait for a connection over odd ranks only. -/

section Stuck

variable {cluster : Cluster Host} {world : World}

def Stuck [DecidableEq Host] (cluster : Cluster Host) (world : World) : Prop :=
  ∀ rank, rank < cluster.worldSize → bootStep cluster rank world = none

theorem RankWired.exists_todo {rank : Nat} {here : RankState} (own : RankWired cluster rank here)
    {action : Action} (planned : ∀ even, action ∈ connectProcessGroup even)
    (missing : action ∉ here.log) : ∃ next rest, here.todo = next :: rest := by
  cases todo : here.todo with
  | cons next rest => exact ⟨next, rest, rfl⟩
  | nil =>
      have all := own.program
      rw [todo, List.append_nil] at all
      exact absurd (all ▸ planned _) missing

theorem even_listens {rank : Nat} {log rest : List Action}
    (program : log ++ .connectToHost :: rest = connectProcessGroup (rank % 2 = 0))
    (missing : .listen ∉ log) : rank % 2 = 0 := by
  by_contra odd
  have index := head_idxOf program
  apply missing
  rw [idxOf_lt_iff program, ← index, decide_eq_false odd]
  decide

theorem odd_connects {rank : Nat} {log rest : List Action}
    (program : log ++ .accept :: rest = connectProcessGroup (rank % 2 = 0))
    (missing : .connectToHost ∉ log) : rank % 2 ≠ 0 := by
  intro even
  have index := head_idxOf program
  apply missing
  rw [idxOf_lt_iff program, ← index, decide_eq_true even]
  decide

theorem Wired.listener_chain [DecidableEq Host] (wired : Wired cluster world)
    (stuck : Stuck cluster world) {rank : Nat} (bound : rank < cluster.worldSize)
    {rest : List Action} (todo : (world.rank rank).todo = .connectToHost :: rest) :
    nextRank cluster.worldSize rank % 2 = 0 ∧
      ∃ rest, (world.rank (nextRank cluster.worldSize rank)).todo = .connectToHost :: rest := by
  have nextBound := nextRank_lt cluster.several rank
  have next := wired.ranks _ nextBound
  cases wired.blocked bound todo (stuck rank bound) with
  | listener missing =>
      obtain ⟨action, later, nextTodo⟩ := next.exists_todo (by decide) missing
      have head := next.head nextTodo
      cases wired.blocked nextBound nextTodo (stuck _ nextBound) with
      | listener => exact ⟨even_listens head missing, later, nextTodo⟩
      | connection => exact absurd (before_head head (by decide)) missing
      | exchange side => exact absurd (before_head head (by cases side <;> decide)) missing
      | ready side => exact absurd (before_head head (by cases side <;> decide)) missing

theorem Wired.none_connecting [DecidableEq Host] (wired : Wired cluster world)
    (stuck : Stuck cluster world) {rank : Nat} (bound : rank < cluster.worldSize)
    {rest : List Action} : (world.rank rank).todo ≠ .connectToHost :: rest := by
  intro todo
  have several := cluster.several
  have everywhere := @Rotation.spreads cluster.worldSize rank
    (fun place => ∃ rest, (world.rank place).todo = .connectToHost :: rest) bound ⟨rest, todo⟩
    (fun place placeBound holds => (wired.listener_chain stuck placeBound holds.choose_spec).2)
  obtain ⟨later, first⟩ := everywhere 0 (by omega)
  have even := (wired.listener_chain stuck (by omega) first).1
  rw [nextRank_eq (by omega), if_neg (by omega)] at even
  omega

theorem Wired.connection_chain [DecidableEq Host] (wired : Wired cluster world)
    (stuck : Stuck cluster world) {rank : Nat} (bound : rank < cluster.worldSize)
    {rest : List Action} (todo : (world.rank rank).todo = .accept :: rest) :
    previousRank cluster.worldSize rank % 2 ≠ 0 ∧
      ∃ rest, (world.rank (previousRank cluster.worldSize rank)).todo = .accept :: rest := by
  have previousBound := previousRank_lt cluster.several rank
  have previous := wired.ranks _ previousBound
  cases wired.blocked bound todo (stuck rank bound) with
  | connection missing =>
      obtain ⟨action, later, previousTodo⟩ := previous.exists_todo (by decide) missing
      have head := previous.head previousTodo
      cases wired.blocked previousBound previousTodo (stuck _ previousBound) with
      | listener => exact absurd previousTodo (wired.none_connecting stuck previousBound)
      | connection => exact ⟨odd_connects head missing, later, previousTodo⟩
      | exchange side => exact absurd (before_head head (by cases side <;> decide)) missing
      | ready side => exact absurd (before_head head (by cases side <;> decide)) missing

theorem Wired.none_accepting [DecidableEq Host] (wired : Wired cluster world)
    (stuck : Stuck cluster world) {rank : Nat} (bound : rank < cluster.worldSize)
    {rest : List Action} : (world.rank rank).todo ≠ .accept :: rest := by
  intro todo
  have several := cluster.several
  have everywhere := @Rotation.spreads_back cluster.worldSize rank
    (fun place => ∃ rest, (world.rank place).todo = .accept :: rest) bound ⟨rest, todo⟩ (by
      rintro place placeBound ⟨later, next⟩
      have chained := (wired.connection_chain stuck (nextRank_lt cluster.several place) next).2
      rwa [previousRank_nextRank placeBound] at chained)
  obtain ⟨later, second⟩ := everywhere 1 (by omega)
  have odd := (wired.connection_chain stuck (by omega) second).1
  rw [previousRank_eq (by omega), if_neg (by omega)] at odd
  omega

/-- Outside the TCP ring an operation has one place in the order of every rank. -/
def Precedes (first second : Action) : Prop :=
  ∀ left right, (connectProcessGroup left).idxOf first < (connectProcessGroup right).idxOf second

instance (first second : Action) : Decidable (Precedes first second) :=
  inferInstanceAs (Decidable (∀ _ _, _))

theorem Wired.reader_behind (wired : Wired cluster world) {rank : Nat}
    (bound : rank < cluster.worldSize) {action : Action} {rest : List Action}
    (todo : (world.rank rank).todo = action :: rest) {side : Side} {write : Action}
    (precedes : Precedes write action)
    (missing : write ∉ (world.rank (cluster.neighbour rank side)).log) :
    (world.rank (cluster.neighbour rank side)).log.length < (world.rank rank).log.length := by
  have index := head_idxOf ((wired.ranks rank bound).head todo)
  have other := (wired.ranks _ (cluster.neighbour_lt rank side)).program
  rw [idxOf_lt_iff other] at missing
  have order := precedes (cluster.neighbour rank side % 2 = 0) (rank % 2 = 0)
  omega

theorem Wired.all_connected [DecidableEq Host] (wired : Wired cluster world)
    (stuck : Stuck cluster world) {rank : Nat} (bound : rank < cluster.worldSize) :
    (world.rank rank).Connected := by
  -- The rank that has performed the fewest operations can only be through.
  obtain ⟨slowest, member, least⟩ := Finset.exists_min_image (Finset.range cluster.worldSize)
    (fun rank => (world.rank rank).log.length) ⟨rank, Finset.mem_range.mpr bound⟩
  have slowestBound := Finset.mem_range.mp member
  have ended : (world.rank slowest).todo = [] := by
    cases todo : (world.rank slowest).todo with
    | nil => rfl
    | cons action rest =>
        exfalso
        have behind : ∀ side, ¬ (world.rank (cluster.neighbour slowest side)).log.length <
            (world.rank slowest).log.length := by
          intro side
          exact Nat.not_lt.mpr (least _ (Finset.mem_range.mpr (cluster.neighbour_lt slowest side)))
        cases wired.blocked slowestBound todo (stuck slowest slowestBound) with
        | listener => exact wired.none_connecting stuck slowestBound todo
        | connection => exact wired.none_accepting stuck slowestBound todo
        | exchange side missing =>
            apply behind side
            exact wired.reader_behind slowestBound todo (by cases side <;> decide) missing
        | ready side missing =>
            apply behind side
            exact wired.reader_behind slowestBound todo (by cases side <;> decide) missing
  have own := wired.ranks rank bound
  refine ⟨?_, own.sound⟩
  have whole := congrArg List.length own.program
  have slowestWhole := congrArg List.length (wired.ranks slowest slowestBound).program
  have fewest := least rank (Finset.mem_range.mpr bound)
  have sizes : ∀ even, (connectProcessGroup even).length = 19 := by decide
  rw [List.length_append, sizes] at whole slowestWhole
  rw [ended, List.length_nil] at slowestWhole
  apply List.eq_nil_of_length_eq_zero
  omega

end Stuck

section Completion

variable [DecidableEq Host] {cluster : Cluster Host}

def BootStep (cluster : Cluster Host) (before after : World) : Prop :=
  ∃ rank, rank < cluster.worldSize ∧ bootStep cluster rank before = some after

/-- The operations all ranks together have yet to perform. -/
def remaining (cluster : Cluster Host) (world : World) : Nat :=
  ∑ rank ∈ Finset.range cluster.worldSize, (world.rank rank).todo.length

theorem BootStep.remaining_lt {before after : World} (step : BootStep cluster before after) :
    remaining cluster after < remaining cluster before := by
  obtain ⟨rank, bound, taken⟩ := step
  unfold bootStep at taken
  split at taken
  · simp at taken
  · rename_i action rest todo
    obtain ⟨⟨here, net⟩, -, rfl⟩ := Option.map_eq_some_iff.mp taken
    apply Finset.sum_lt_sum
    · intro other _
      by_cases same : other = rank
      · subst same
        simp only [Function.update_self, todo]
        split <;> simp
      · simp [same]
    · refine ⟨rank, Finset.mem_range.mpr bound, ?_⟩
      simp only [Function.update_self, todo]
      split <;> simp

end Completion

end RingAllReduce.Bootstrap
