import RingAllReduce.MockInvariant

/-! What `ring_all_reduce` leaves in the buffers of the ranks that return `PG_SUCCESS`. -/

namespace RingAllReduce

open Exchange Rotation

variable {Value Net Request : Type} {setup : Setup Value}

structure RankState.Returned (state : RankState Request) (call : Nat) (status : Status) : Prop where
  idle : state.todo = []
  last : state.results.length = call + 1
  status : state.results[call]? = some status

theorem OnSchedule.log_returned {state : RankState Request} {rank call : Nat}
    (onSchedule : OnSchedule setup rank state) (returned : state.Returned call .success) :
    call < setup.calls.length ∧ state.log = setup.codeUpTo rank (call + 1) := by
  obtain ⟨idle, last, status⟩ := returned
  cases onSchedule.control with
  | between calls bound todo results sequence log =>
      obtain rfl : calls = call + 1 := by simpa [results] using last
      exact ⟨bound, log⟩
  | inside number args found done code busy results sequence log => exact absurd idle busy
  | failed number args found done instr rest code todo error isError results log =>
      obtain rfl : number = call := by simpa [results] using last
      rw [results, List.getElem?_append_right (by simp)] at status
      exact absurd (by simpa using status) isError

/-- After a successful return nothing is open, and a rank that received what it should holds what
the call is for. -/
theorem OnSchedule.returned {state : RankState Request} {rank call : Nat} {args : Call Value}
    (onSchedule : OnSchedule setup rank state) (bound : rank < setup.worldSize)
    (found : setup.calls[call]? = some args) (returned : state.Returned call .success) :
    openRecvs (events state.log) = [] ∧ args.accepted setup.worldSize rank ∧
      Holding setup args rank (args.kind.stages setup.worldSize)
        (expectedMemory setup rank (setup.memory rank) state.log) := by
  obtain ⟨made, log⟩ := onSchedule.log_returned returned
  have noError := onSchedule.noError
  rw [log] at noError ⊢
  refine ⟨?_, ?_⟩
  · rw [events_codeUpTo bound made noError, ← List.append_nil (run _), openRecvs_run_append]
    rfl
  · rw [setup.codeUpTo_succ, Setup.code, found] at noError ⊢
    have callNoError : ∀ status, .ret status ∈ callCode (setup.context rank
        (setup.sequenceAt call) call) args → status = .success :=
      fun error member => noError error (List.mem_append_right _ member)
    rw [expectedMemory_append]
    exact ⟨accepted_of_noError callNoError, holding_call found bound callNoError _⟩

theorem carried_allReduce {args : Call Value} (kind : args.kind = .allReduce)
    (typed : args.datatype.supported = true) (known : args.operation.supported = true)
    (block index : Nat) :
    setup.carried args block (setup.worldSize - 1) index =
      ringFold (setup.element args.datatype args.operation) (args.input · index) setup.worldSize
        block (setup.worldSize - 1) := by
  have combine : setup.combine args = setup.element args.datatype args.operation := by
    funext destination source
    simp [Setup.combine, typed, known]
  rw [Setup.carried, if_neg (by simp [kind]), Nat.min_self, combine]

theorem MockInvariant.allReduce_element {world : MockWorld Value} (inv : MockInvariant setup world)
    {rank : Nat} (onSchedule : OnSchedule setup rank (world.rank rank))
    (bound : rank < setup.worldSize) {call : Nat} {args : Call Value}
    (found : setup.calls[call]? = some args) (kind : args.kind = .allReduce)
    (known : args.operation.supported = true)
    (returned : (world.rank rank).Returned call .success) {block index : Nat}
    (blockBound : block < setup.worldSize) (inside : args.inBlock setup.worldSize block index) :
    world.memory rank .workbuf index =
      ringFold (setup.element args.datatype args.operation) (args.input · index) setup.worldSize
        block (setup.worldSize - 1) := by
  obtain ⟨noneOpen, accepted, holding⟩ := onSchedule.returned bound found returned
  have inRange : index < args.count :=
    Nat.lt_of_lt_of_le inside.2 (block_end_le args.count blockBound)
  have agree := inv.memory rank bound .workbuf index (by simp [RankState.opens, noneOpen])
  calc world.memory rank .workbuf index
      = setup.held args rank (args.kind.stages setup.worldSize) index := by
        rw [agree, holding index inRange]
    _ = setup.carried args block (setup.worldSize - 1) index :=
        held_allReduce bound kind blockBound inside
    _ = _ := carried_allReduce kind accepted.1 known block index

/-- Every rank that returns successfully from an All-Reduce holds the same result: element by
element, the value that starts at the owner of its block and is combined with the input of one
rank after the other. -/
theorem ringAllReduce_value {call : Nat} {args : Call Value}
    (found : setup.calls[call]? = some args) (kind : args.kind = .allReduce)
    (known : args.operation.supported = true) {world : MockWorld Value}
    (reachable : MockReachable setup world) {rank : Nat} (bound : rank < setup.worldSize)
    (returned : (world.rank rank).Returned call .success) :
    (∃ layout, computeBlockLayout args.count setup.worldSize = .ok layout ∧
      ∀ block < setup.worldSize, ∀ index, layout.offsets.getD block 0 ≤ index →
        index < layout.offsets.getD block 0 + layout.counts.getD block 0 →
        world.memory rank .workbuf index =
          ringFold (setup.element args.datatype args.operation) (args.input · index)
            setup.worldSize block (setup.worldSize - 1)) ∧
    ∀ later, MockReachable setup later → ∀ other < setup.worldSize,
      (later.rank other).Returned call .success → ∀ index < args.count,
        later.memory other .workbuf index = world.memory rank .workbuf index := by
  have element := fun {block index : Nat} (blockBound : block < setup.worldSize)
      (inside : args.inBlock setup.worldSize block index) =>
    (mockInvariant_of_reachable reachable).allReduce_element (onSchedule_of_reachable reachable rank)
      bound found kind known returned blockBound inside
  constructor
  · obtain ⟨layout, laid, get⟩ := computeBlockLayout_get args.count setup.positive
    refine ⟨layout, laid, ?_⟩
    intro block blockBound index lower upper
    obtain ⟨counts, offsets⟩ := get block blockBound
    exact element blockBound ⟨by omega, by omega⟩
  · intro later reachable' other otherBound returned' index inRange
    obtain ⟨block, blockBound, inside⟩ := exists_block setup.positive inRange
    rw [element blockBound inside]
    exact (mockInvariant_of_reachable reachable').allReduce_element
      (onSchedule_of_reachable reachable' other) otherBound found kind known returned' blockBound
      inside

/-- Two ranks that add up two elements each, in place, some times in a row. -/
def pairSetup (times : Nat) : Setup Nat :=
  { worldSize := 2, positive := by decide, config := fun _ => none,
    element := fun _ _ destination source => destination + source,
    calls := List.replicate times
      { kind := .allReduce, count := 2, datatype := .int32, operation := .sum,
        inPlace := fun _ => true, owned := fun _ => 0, sendbuf := fun _ _ => 0,
        workbuf := fun rank index => 10 * rank + index },
    memory := fun _ _ _ => 0 }

theorem pair_run : ∃ world, MockReachable (pairSetup 1) world ∧
    (world.rank 0).Returned 0 .success ∧ (world.rank 1).Returned 0 .success := by
  have ran : (mockFollow (pairSetup 1) (List.replicate 4 0 ++ List.replicate 10 1 ++
      List.replicate 10 0 ++ List.replicate 4 1)).map (fun world =>
        ((world.rank 0).todo, (world.rank 0).results, (world.rank 1).todo,
          (world.rank 1).results)) = some ([], [.success], [], [.success]) := by
    decide +kernel
  obtain ⟨world, followed, ended⟩ := Option.map_eq_some_iff.mp ran
  simp only [Prod.mk.injEq] at ended
  obtain ⟨idle, results, idle', results'⟩ := ended
  exact ⟨world, mockReachable_of_follow followed, ⟨idle, by simp [results], by simp [results]⟩,
    ⟨idle', by simp [results'], by simp [results']⟩⟩

theorem ringAllReduce_value_pair : ∃ world, MockReachable (pairSetup 1) world ∧
    (world.rank 1).Returned 0 .success ∧ world.memory 1 .workbuf 1 = 12 := by
  obtain ⟨world, reachable, -, returned⟩ := pair_run
  obtain ⟨⟨layout, laid, element⟩, -⟩ :=
    ringAllReduce_value (show (pairSetup 1).calls[0]? = some _ from rfl) rfl rfl reachable
      (by decide) returned
  obtain rfl := Except.ok.inj laid
  exact ⟨world, reachable, returned, element 1 (by decide) 1 (by decide) (by decide)⟩

end RingAllReduce
