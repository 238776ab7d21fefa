import RingAllReduce.MockInvariant
import RingAllReduce.Progress

/-!
How far the ranks can drift apart. The first block is never empty and goes round the whole ring in
every All-Reduce, so a rank that has finished a call knows that all others have started it.
-/

namespace RingAllReduce

open Exchange Rotation

variable {Value : Type} {setup : Setup Value} {world : MockWorld Value} {call : Nat}
  {args : Call Value}

theorem blockCount_zero_pos {count : Nat} (worldSize : Nat) (nonempty : 1 ≤ count) : 0 < blockCount count worldSize 0 := by
  have whole := Nat.div_add_mod count worldSize
  unfold blockCount
  split
  · exact Nat.succ_pos _
  · rename_i even
    have none : count % worldSize = 0 := by omega
    rw [none, Nat.add_zero] at whole
    refine Nat.pos_of_ne_zero fun zero => ?_
    rw [Nat.add_zero] at zero
    rw [zero, Nat.mul_zero] at whole
    omega

/-- A rank that has passed a stage at which it receives the first block was sent it. -/
theorem MockInvariant.sent_before (inv : MockInvariant setup world)
    (onSchedule : ∀ rank, OnSchedule setup rank (world.rank rank))
    (found : setup.calls[call]? = some args) (kind : args.kind = .allReduce)
    (nonempty : 1 ≤ args.count) {stage : Nat} (stageBound : stage < 2 * (setup.worldSize - 1))
    (passed : Passed setup (world.rank (hop setup.worldSize 0 (stage + 1))) call stage) :
    ∃ piece ∈ (world.rank (hop setup.worldSize 0 stage)).sentPieces,
      piece.call = call ∧ piece.stage setup.worldSize = stage := by
  have positive := setup.positive
  have bound := hop_lt positive 0 stage
  have nextBound := hop_lt positive 0 (stage + 1)
  have inLog := (onSchedule _).passed nextBound found (mem_stages_allReduce kind stageBound) passed
  have here : blockAt setup.worldSize (hop setup.worldSize 0 (stage + 1)) (stage + 1) = 0 :=
    blockAt_eq positive rfl
  obtain ⟨post, waits, callEq, stageEq, -⟩ := waitRecv_of_stage
    (setup.context (hop setup.worldSize 0 (stage + 1)) (setup.sequenceAt call) call)
    (effectiveConfig_maxInflight _).1 args.count stage args.datatype args.operation
    (by
      simp only [Setup.context]
      rw [here]
      exact blockCount_zero_pos _ nonempty)
    fun status member => (onSchedule _).noError status (inLog _ member)
  have receiver := (inv.receivers (hop setup.worldSize 0 stage) bound).agreed
  rw [next_hop] at receiver
  refine ⟨post.toPiece, receiver.subset ?_, callEq, stageEq⟩
  refine List.mem_map.mpr ⟨post, List.mem_filterMap.mpr ⟨.waitRecv post, ?_, rfl⟩, rfl⟩
  exact List.mem_filterMap.mpr ⟨_, inLog _ waits, rfl⟩

/-- Behind a stage at which the first block was sent lie all the stages before it. -/
theorem MockInvariant.sent_earlier (inv : MockInvariant setup world)
    (onSchedule : ∀ rank, OnSchedule setup rank (world.rank rank))
    (found : setup.calls[call]? = some args) (kind : args.kind = .allReduce)
    (nonempty : 1 ≤ args.count) {stage : Nat} (stageBound : stage < 2 * (setup.worldSize - 1))
    (sent : ∃ piece ∈ (world.rank (hop setup.worldSize 0 stage)).sentPieces,
      piece.call = call ∧ piece.stage setup.worldSize = stage) {earlier : Nat}
    (le : earlier ≤ stage) :
    ∃ piece ∈ (world.rank (hop setup.worldSize 0 earlier)).sentPieces,
      piece.call = call ∧ piece.stage setup.worldSize = earlier := by
  induction stage with
  | zero =>
      obtain rfl : earlier = 0 := by omega
      exact sent
  | succ stage ih =>
      by_cases last : earlier = stage + 1
      · rw [last]
        exact sent
      · apply ih (by omega) _ (by omega)
        obtain ⟨piece, member, callEq, stageEq⟩ := sent
        obtain ⟨post, inPosts, rfl⟩ := List.mem_map.mp member
        obtain ⟨event, inEvents, isSend⟩ := List.mem_filterMap.mp inPosts
        have itemEq : event.item = post := by
          cases event <;> simp [Event.postedSend] at isSend
          exact isSend
        refine inv.sent_before onSchedule found kind nonempty (by omega)
          (Or.inr ⟨event, inEvents, by rw [itemEq]; exact callEq, ?_⟩)
        rw [itemEq, stageEq]
        omega

theorem OnSchedule.sent_le_finished {Request : Type} {rank : Nat} {state : RankState Request}
    (onSchedule : OnSchedule setup rank state) (bound : rank < setup.worldSize) {piece : Piece}
    (member : piece ∈ state.sentPieces) : piece.call ≤ state.finished := by
  obtain ⟨post, inPosts, rfl⟩ := List.mem_map.mp member
  obtain ⟨event, inEvents, isSend⟩ := List.mem_filterMap.mp inPosts
  have itemEq : event.item = post := by
    cases event <;> simp [Event.postedSend] at isSend
    exact isSend
  rw [← itemEq]
  exact onSchedule.call_le_finished bound inEvents

theorem MockInvariant.finished_le_succ (inv : MockInvariant setup world)
    (onSchedule : ∀ rank, OnSchedule setup rank (world.rank rank))
    (calls : ∀ args ∈ setup.calls, args.kind = .allReduce ∧ 1 ≤ args.count) {first second : Nat}
    (firstBound : first < setup.worldSize) (secondBound : second < setup.worldSize) :
    (world.rank first).finished ≤ (world.rank second).finished + 1 := by
  by_cases fresh : (world.rank first).finished = 0
  · omega
  by_cases same : first = second
  · rw [same]
    omega
  obtain ⟨call, finished⟩ := Nat.exists_eq_succ_of_ne_zero fresh
  have callBound := (onSchedule first).control.log_split.1
  have found : setup.calls[call]? = some setup.calls[call] := List.getElem?_eq_getElem (by omega)
  obtain ⟨kind, nonempty⟩ := calls _ (List.mem_of_getElem? found)
  -- the stage at which the rank received the first block for the last time
  obtain ⟨stage, stageBound, late, arrives⟩ : ∃ stage < 2 * (setup.worldSize - 1),
      (first = setup.worldSize - 1 → setup.worldSize - 2 ≤ stage) ∧
        hop setup.worldSize 0 (stage + 1) = first ∧
          (first ≠ setup.worldSize - 1 → setup.worldSize - 1 ≤ stage) := by
    by_cases owner : first = setup.worldSize - 1
    · refine ⟨setup.worldSize - 2, by omega, by omega, ?_, by omega⟩
      rw [hop, Nat.zero_add, show setup.worldSize - 2 + 1 = first by omega,
        Nat.mod_eq_of_lt firstBound]
    · refine ⟨setup.worldSize - 1 + first, by omega, by omega, ?_, by omega⟩
      rw [hop, Nat.zero_add, show setup.worldSize - 1 + first + 1 = first + setup.worldSize by omega,
        Nat.add_mod_right, Nat.mod_eq_of_lt firstBound]
  have sent := inv.sent_before onSchedule found kind nonempty stageBound
    (Or.inl (by rw [arrives.1]; omega))
  obtain ⟨piece, member, callEq, -⟩ := inv.sent_earlier onSchedule found kind nonempty stageBound
    sent (show second ≤ stage by
      have otherwise := arrives.2
      omega)
  rw [show hop setup.worldSize 0 second = second by
    rw [hop, Nat.zero_add, Nat.mod_eq_of_lt secondBound]] at member
  have started := (onSchedule second).sent_le_finished secondBound member
  omega

end RingAllReduce
