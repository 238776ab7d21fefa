import RingAllReduce.Slots

/-!
How a ring advances over any transport. A rank has only so much to do, and the ranks cannot all wait
for data their predecessors have yet to send.
-/

namespace RingAllReduce

open Exchange Rotation

variable {Value Net Request : Type} {setup : Setup Value} {rank : Nat}

section Effort

/-- How much a rank has done; every step of its own that does not poll adds to it. -/
def progressOf (state : RankState Request) : Nat :=
  2 * state.log.length + 2 * state.results.length + if state.todo.isEmpty then 0 else 1

/-- What a rank has done in the end, at most. -/
def effort (setup : Setup Value) (rank : Nat) : Nat :=
  2 * (setup.program rank).length + 2 * setup.calls.length + 1

theorem OnSchedule.progress_le {state : RankState Request}
    (onSchedule : OnSchedule setup rank state) : progressOf state ≤ effort setup rank := by
  have flag : (if state.todo.isEmpty then 0 else 1) ≤ 1 := by split <;> omega
  have front : ∀ calls ≤ setup.calls.length,
      (setup.codeUpTo rank calls).length ≤ (setup.program rank).length := fun calls le =>
    (setup.codeUpTo_isPrefix rank le).length_le
  unfold progressOf effort
  cases onSchedule.control with
  | between calls callsBound todo results sequence log =>
      have logLe := front calls callsBound
      rw [log, results, List.length_replicate]
      omega
  | inside call args found done code busy results sequence log =>
      have inside := (List.getElem?_eq_some_iff.mp found).1
      have logLe := front (call + 1) inside
      rw [setup.codeUpTo_succ, code, List.length_append, List.length_append] at logLe
      rw [log, results, List.length_replicate, List.length_append]
      omega
  | failed call args found done instr rest code todo status error results log =>
      have inside := (List.getElem?_eq_some_iff.mp found).1
      have logLe := front (call + 1) inside
      rw [setup.codeUpTo_succ, code, List.length_append, List.length_append] at logLe
      rw [log, results, List.length_append, List.length_append, List.length_replicate,
        List.length_singleton]
      omega

theorem progress_advance (state : RankState Request) (vars : Variables Request) (instr : Instr)
    (rest : List Instr) : progressOf state < progressOf (state.advance vars instr rest) := by
  have flag : (if state.todo.isEmpty then 0 else 1) ≤ 1 := by split <;> omega
  simp only [progressOf, RankState.advance, List.length_append, List.length_singleton]
  omega

theorem progress_leave (state : RankState Request) (instr : Instr) (status : Status) :
    progressOf state < progressOf (state.leave instr status) := by
  have flag : (if state.todo.isEmpty then 0 else 1) ≤ 1 := by split <;> omega
  have kept : state.log.length ≤ (state.leave instr status).log.length := by
    unfold RankState.leave
    simp only
    split <;> simp
  have more : (state.leave instr status).results.length = state.results.length + 1 := by
    simp [RankState.leave]
  unfold progressOf
  omega

theorem progress_enter {state : RankState Request} (idle : state.todo = []) (call : Call Value) :
    progressOf state < progressOf (state.enter setup rank call) := by
  simp [progressOf, RankState.enter, idle, callCode]

/-- What a rank does is missing from what is left, however much it counts. -/
theorem rank_progress (weight : Nat) {before : World Value Net Request} (net : Net)
    (memory : Memory Value) {state : RankState Request} (bound : rank < setup.worldSize)
    (more : progressOf (before.rank rank) < progressOf state)
    (le : progressOf state ≤ effort setup rank) :
    (∑ other ∈ Finset.range setup.worldSize, weight *
        (effort setup other - progressOf ((before.put rank state net memory).rank other))) + weight ≤
      ∑ other ∈ Finset.range setup.worldSize,
        weight * (effort setup other - progressOf (before.rank other)) := by
  have changed := Runs.sum_change
    (fun other => weight * (effort setup other - progressOf (before.rank other)))
    (fun other => weight * (effort setup other -
      progressOf ((before.put rank state net memory).rank other))) bound
    fun other different => by simp only [World.put_rank_other _ _ _ _ _ different]
  have less := Nat.mul_le_mul_left weight (show effort setup rank - progressOf state + 1 ≤
    effort setup rank - progressOf (before.rank rank) by omega)
  simp only [World.put_rank_same] at changed
  rw [Nat.mul_succ] at less
  omega

end Effort

section Circle

theorem Setup.sent_nodup (setup : Setup Value) (rank : Nat) : (setup.sent rank).Nodup := by
  rw [Setup.sent, List.nodup_iff_pairwise_ne, List.pairwise_map]
  exact (setup.plan_sorted rank).2.imp fun less same => absurd less (by simp [same])

variable {state : RankState Request} {post : Post} {rest : List Instr}

/-- The piece a rank waits for has the place among the expected ones that the number of its earlier
waits gives. -/
theorem OnSchedule.next_expected (onSchedule : OnSchedule setup rank state)
    (bound : rank < setup.worldSize) (todo : state.todo = .waitRecv post :: rest) :
    (setup.expected rank)[(recvWaits (events state.log)).length]? = some post.toPiece := by
  have place := onSchedule.waitRecv_place bound todo
  have inside := (List.getElem?_eq_some_iff.mp place).1
  have here := Splits.prefix_getElem? (onSchedule.recvs_isPrefix bound) (by simpa using inside)
  rwa [List.getElem?_map, place] at here

/-- A rank waits for data its predecessor has yet to send. -/
def Waiting (setup : Setup Value) (states : Nat → RankState Request) (rank : Nat) : Prop :=
  ∃ post rest, (states rank).todo = .waitRecv post :: rest ∧
    ∀ prev < setup.worldSize, next setup.worldSize prev = rank →
      (sendPosts (events (states prev).log)).length ≤
        (recvWaits (events (states rank).log)).length

variable {states : Nat → RankState Request} (same : setup.SamePieces)
  (onSchedule : ∀ rank, OnSchedule setup rank (states rank))

include same onSchedule

/-- The predecessor of a rank that waits for it has not posted the piece. -/
theorem unsent_of_waiting (bound : rank < setup.worldSize)
    (todo : (states (next setup.worldSize rank)).todo = .waitRecv post :: rest)
    (unsent : (sendPosts (events (states rank).log)).length ≤
      (recvWaits (events (states (next setup.worldSize rank)).log)).length) :
    post.toPiece ∈ setup.sent rank ∧
      post.toPiece ∉ (sendPosts (events (states rank).log)).map Post.toPiece := by
  have wanted := (onSchedule _).next_expected (next_lt setup.positive rank) todo
  rw [← setup.sent_eq_expected bound (same rank bound)] at wanted
  refine ⟨List.mem_of_getElem? wanted, ?_⟩
  apply Splits.not_mem_of_prefix ((onSchedule rank).sends_isPrefix bound) (setup.sent_nodup rank)
    wanted
  rwa [List.length_map]

theorem not_all_waiting (waiting : ∀ rank < setup.worldSize, Waiting setup states rank) :
    False := by
  obtain ⟨any, -, -, -⟩ := waiting 0 setup.positive
  have known : ∀ rank, ∃ post after, rank < setup.worldSize →
      run (setup.plan rank) = events (states rank).log ++ .waitRecv post :: after ∧
      ∀ prev < setup.worldSize, next setup.worldSize prev = rank →
        post.toPiece ∈ setup.sent prev ∧
          post.toPiece ∉ (sendPosts (events (states prev).log)).map Post.toPiece := by
    intro rank
    by_cases bound : rank < setup.worldSize
    · obtain ⟨post, rest, todo, unsent⟩ := waiting rank bound
      obtain ⟨after, split⟩ := (onSchedule rank).events_next bound todo rfl
      refine ⟨post, after, fun _ => ⟨split, ?_⟩⟩
      rintro prev prevBound rfl
      exact unsent_of_waiting same onSchedule prevBound todo (unsent prev prevBound rfl)
    · exact ⟨any, [], fun inside => absurd inside bound⟩
  choose waited after facts using known
  apply no_receive_cycle setup.positive (fun rank _ => setup.plan_ordered rank)
    (fun rank bound => (facts rank bound).1)
  · intro rank bound
    exact ((facts _ (next_lt setup.positive rank)).2 rank bound rfl).1
  · intro rank bound
    exact ((facts _ (next_lt setup.positive rank)).2 rank bound rfl).2

end Circle

end RingAllReduce
