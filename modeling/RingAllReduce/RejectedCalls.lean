import RingAllReduce.OtherData
import RingAllReduce.RejectedRuns

/-!
What an All-Reduce leaves behind that all ranks reject in its loops: requests nobody waits for, or a
work buffer that is partly reduced. No such call is without effect.
-/

namespace RingAllReduce

open Exchange Rotation

variable {Value : Type} {setup : Setup Value} {world : MockWorld Value} {rank call : Nat}
  {status : Status} {args : Call Value}

def Setup.instead (setup : Setup Value) (call : Nat) (later : Call Value) : Setup Value :=
  { setup with calls := setup.calls.set call later }

/-- The ranks, free to make another call in place of one that failed. Their contexts, buffers and
links are as the failed call has left them. -/
def World.again (world : MockWorld Value) (call : Nat) : MockWorld Value :=
  { world with
    rank := fun rank => { world.rank rank with results := List.replicate call .success } }

structure WithoutEffect (setup : Setup Value) (call : Nat) (args : Call Value)
    (world : MockWorld Value) : Prop where
  buffers : ∀ rank < setup.worldSize, ∀ index < args.count,
    world.memory rank .workbuf index = args.workbuf rank index
  requests : ∀ rank < setup.worldSize, ∀ slot, (world.rank rank).vars.requests slot = none
  messages : ∀ rank < setup.worldSize, world.net.incoming rank = []
  retries : ∀ later : Call Value, later.kind = .allReduce → later.operation.supported = true →
    ∀ world', Runs.Reachable (Step (setup.instead call later) (mockTransport Value setup.worldSize))
      (world.again call) world' →
    (∀ rank < setup.worldSize, (world'.rank rank).Returned call .success) →
    ∀ rank < setup.worldSize, ∀ block < setup.worldSize, ∀ index,
      later.inBlock setup.worldSize block index → world'.memory rank .workbuf index =
        ringFold (setup.element later.datatype later.operation) (later.input · index)
          setup.worldSize block (setup.worldSize - 1)

/-- Every in-place call that all ranks reject for its operation or its tags is without effect. -/
def RejectedWithoutEffect (setup : Setup Value) : Prop :=
  ∀ world, MockReachable setup world → ∀ call args, setup.calls[call]? = some args →
    (∀ rank < setup.worldSize, args.inPlace rank = true) →
    (∀ rank < setup.worldSize, (world.rank rank).Returned call .unsupportedOperation ∨
      (world.rank rank).Returned call .tagRange) → WithoutEffect setup call args world

section Filled

variable {buffers : Nat → Nat → Nat → Value}

theorem Alike.filled (alike : Alike setup) : Alike (setup.filled buffers) := by
  refine ⟨alike.config, fun args member => ?_⟩
  obtain ⟨call, found⟩ := List.mem_iff_getElem?.mp member
  rw [setup.filled_call] at found
  obtain ⟨args', found', rfl⟩ := Option.map_eq_some_iff.mp found
  exact alike.calls args' (List.mem_of_getElem? found')

theorem Setup.PassesUpTo.filled (passes : setup.PassesUpTo call) :
    (setup.filled buffers).PassesUpTo call := by
  intro earlier less args found
  rw [setup.filled_call] at found
  obtain ⟨args', found', rfl⟩ := Option.map_eq_some_iff.mp found
  exact passes earlier less args' found'

theorem Setup.PassesUpTo.of_filled (passes : (setup.filled buffers).PassesUpTo call) :
    setup.PassesUpTo call := by
  intro earlier less args found
  refine passes earlier less { args with workbuf := buffers earlier } ?_
  rw [setup.filled_call, found]
  rfl

end Filled

/-- A call that all ranks reject for its operation or its tags is one that is refused in the loops,
after calls that all ranks carry out. -/
theorem Alike.refuses_of_returned (alike : Alike setup) (several : 2 ≤ setup.worldSize)
    (reachable : MockReachable setup world) (found : setup.calls[call]? = some args)
    (returned : ∀ rank < setup.worldSize, (world.rank rank).Returned call .unsupportedOperation ∨
      (world.rank rank).Returned call .tagRange) :
    setup.PassesUpTo call ∧ setup.Refuses args := by
  have same := alike.samePieces
  have length : ∀ rank < setup.worldSize, (world.rank rank).results.length = call + 1 := by
    intro rank bound
    rcases returned rank bound with returned | returned <;> exact returned.last
  have returned := returned 0 setup.positive
  -- the call itself is not carried out by all ranks
  have fails : ¬ setup.PassesUpTo (call + 1) := by
    intro passes
    rcases alive_or_rejected same reachable 0 setup.positive with alive | ⟨other, status, rejected⟩
    · rcases returned with ⟨-, -, last⟩ | ⟨-, -, last⟩
      · simpa using alive _ (List.mem_of_getElem? last)
      · simpa using alive _ (List.mem_of_getElem? last)
    · obtain ⟨-, results, -, -, done, instr, rest, code, rejects, -⟩ := rejected
      have here := length 0 setup.positive
      rw [results, List.length_append, List.length_replicate, List.length_singleton] at here
      have inCode : instr ∈ setup.codeUpTo 0 (call + 1) :=
        List.mem_flatMap.mpr ⟨other, List.mem_range.mpr (by omega), by rw [code]; simp⟩
      have clear := alike.clear_upTo passes setup.positive instr inCode
      simp [rejects] at clear
  have exists_call : ∃ (first : Nat) (other : Call Value), first < call + 1 ∧
      setup.calls[first]? = some other ∧ ¬ setup.Passes other := by
    simp only [Setup.PassesUpTo, not_forall] at fails
    obtain ⟨first, less, other, otherFound, otherFails⟩ := fails
    exact ⟨first, other, less, otherFound, otherFails⟩
  classical
  obtain ⟨other, less, otherFound, otherFails⟩ := Nat.find_spec exists_call
  have passes : setup.PassesUpTo (Nat.find exists_call) := by
    intro earlier earlierLess other' found'
    by_contra fails'
    exact Nat.find_min exists_call earlierLess ⟨other', by omega, found', fails'⟩
  generalize Nat.find exists_call = first at less otherFound passes
  by_cases starves : setup.Starves other
  · obtain ⟨rank, stage, starved⟩ := alike.exists_starvation otherFound several starves
    have unreturned := starved.unreturned same otherFound reachable
    rw [length _ (next_lt setup.positive rank)] at unreturned
    omega
  · obtain ⟨status, front, refusal, kind⟩ :=
      alike.exists_refusal otherFound several otherFails starves
    have settled := alike.settled_of_refusal refusal passes
      (List.getElem?_eq_some_iff.mp otherFound).1
    have along := settled.along world reachable 0 setup.positive
    have short := along.length_le
    rw [length 0 setup.positive, List.length_append, List.length_replicate,
      List.length_singleton] at short
    obtain rfl : first = call := by omega
    have whole := List.IsPrefix.eq_of_length along (by
      rw [length 0 setup.positive, List.length_append, List.length_replicate, List.length_singleton])
    obtain rfl := Option.some.inj (found.symm.trans otherFound)
    refine ⟨passes, kind.resolve_right fun others => ?_⟩
    rcases returned with ⟨-, -, last⟩ | ⟨-, -, last⟩
    · rw [whole] at last
      exact others.1 (by simpa using last)
    · rw [whole] at last
      exact others.2 (by simpa using last)

/-- In some run all ranks reject a call that is refused in the loops. -/
theorem Alike.exists_rejected (alike : Alike setup) (several : 2 ≤ setup.worldSize)
    (found : setup.calls[call]? = some args) (passes : setup.PassesUpTo call)
    (refuses : setup.Refuses args) :
    ∃ world, MockReachable setup world ∧ ∀ rank < setup.worldSize,
      (world.rank rank).Returned call .unsupportedOperation ∨
        (world.rank rank).Returned call .tagRange := by
  obtain ⟨status, front, refusal, cause⟩ := alike.refusal_of_refuses found several refuses
  obtain ⟨world, reachable, terminal⟩ := exists_terminal setup
  refine ⟨world, reachable, fun rank bound => ?_⟩
  obtain ⟨idle, results⟩ := (alike.settled_of_refusal refusal passes
    (List.getElem?_eq_some_iff.mp found).1).atEnd world reachable terminal rank bound
  have returned : (world.rank rank).Returned call status :=
    ⟨idle, by simp [results], by simp [results]⟩
  rcases cause with rfl | rfl
  · exact Or.inl returned
  · exact Or.inr returned

section Effects

theorem rejected_everywhere (reachable : MockReachable setup world)
    (returned : ∀ rank < setup.worldSize, (world.rank rank).Returned call .unsupportedOperation ∨
      (world.rank rank).Returned call .tagRange) (bound : rank < setup.worldSize) :
    ∃ status, (status = .unsupportedOperation ∨ status = .tagRange) ∧
      Rejected setup rank (world.rank rank) call status := by
  rcases returned rank bound with returned | returned
  · exact ⟨_, Or.inl rfl, rejected_of_returned reachable returned (by simp) (by simp)⟩
  · exact ⟨_, Or.inr rfl, rejected_of_returned reachable returned (by simp) (by simp)⟩

variable (several : 2 ≤ setup.worldSize) (reachable : MockReachable setup world)
  (found : setup.calls[call]? = some args) (kind : args.kind = .allReduce)
  (inPlace : ∀ rank < setup.worldSize, args.inPlace rank = true)
  (returned : ∀ rank < setup.worldSize, (world.rank rank).Returned call .unsupportedOperation ∨
    (world.rank rank).Returned call .tagRange)

include several reachable found kind returned

/-- With an unknown operation a request is left; a single element would not have made the first rank
return. -/
theorem request_of_returned (unknown : args.operation.supported = false) :
    ∃ slot, (world.rank 1).vars.requests slot ≠ none := by
  obtain ⟨status, cause, rejected⟩ := rejected_everywhere reachable returned several
  obtain ⟨nonempty, typed⟩ := rejected.entered found kind cause
  refine rejected.request_left several reachable found kind cause unknown ?_
  by_contra single
  obtain ⟨_, _, first⟩ := rejected_everywhere reachable returned setup.positive
  obtain ⟨done, instr, rest, code, rejects, -⟩ := first.place
  simp only [Setup.code, found] at code
  have clear := @code_clear_single _ args (setup.callContext 0 call) several rfl kind typed
    (by omega) instr (by rw [code]; simp)
  simp [rejects] at clear

include inPlace

theorem element_of_returned (known : args.operation.supported = true) :
    world.memory 1 .workbuf 0 =
      setup.element args.datatype args.operation (args.workbuf 1 0) (args.workbuf 0 0) := by
  obtain ⟨status, cause, rejected⟩ := rejected_everywhere reachable returned several
  have typed := (rejected.entered found kind cause).2
  rw [rejected.element_left several reachable found kind cause inPlace known, Setup.combine,
    if_pos ⟨typed, known⟩]

/-- Such a call is not without effect, unless the first elements of the first two ranks happen to
give the second one. -/
theorem not_withoutEffect (differs : args.operation.supported = true →
    setup.element args.datatype args.operation (args.workbuf 1 0) (args.workbuf 0 0) ≠
      args.workbuf 1 0) : ¬ WithoutEffect setup call args world := by
  intro without
  by_cases known : args.operation.supported = true
  · obtain ⟨status, cause, rejected⟩ := rejected_everywhere reachable returned several
    have nonempty := (rejected.entered found kind cause).1
    have kept := without.buffers 1 several 0 (Nat.pos_of_ne_zero nonempty)
    rw [element_of_returned several reachable found kind inPlace returned known] at kept
    exact differs known kept
  · obtain ⟨slot, left⟩ := request_of_returned several reachable found kind returned
      (by simpa using known)
    exact left (without.requests 1 several slot)

omit several reachable found kind inPlace returned in
theorem exists_differing (call : Nat) (combines : args.operation.supported = true →
      ∃ own other, setup.element args.datatype args.operation own other ≠ own) :
    ∃ buffers : Nat → Nat → Nat → Value, args.operation.supported = true →
      setup.element args.datatype args.operation (buffers call 1 0) (buffers call 0 0) ≠
        buffers call 1 0 := by
  by_cases known : args.operation.supported = true
  · obtain ⟨own, other, differs⟩ := combines known
    exact ⟨fun _ rank _ => if rank = 0 then other else own, fun _ => by simpa using differs⟩
  · exact ⟨fun _ => args.workbuf, fun isKnown => absurd isKnown known⟩

end Effects

/-- No call that all ranks reject for its operation or its tags is without effect, whatever the
configurations of the ranks and whatever they have called before. An unknown operation leaves a
request, with any data. With a known one the second rank has reduced its first element, so that the
same run with other data is not without effect. -/
theorem rejected_leaves {setup : Setup Value} {world : MockWorld Value} {call : Nat}
    {args : Call Value} (several : 2 ≤ setup.worldSize) (reachable : MockReachable setup world)
    (found : setup.calls[call]? = some args) (kind : args.kind = .allReduce)
    (inPlace : ∀ rank < setup.worldSize, args.inPlace rank = true)
    (returned : ∀ rank < setup.worldSize, (world.rank rank).Returned call .unsupportedOperation ∨
      (world.rank rank).Returned call .tagRange)
    (combines : args.operation.supported = true →
      ∃ own other, setup.element args.datatype args.operation own other ≠ own) :
    (args.operation.supported = false → ¬ WithoutEffect setup call args world) ∧
    (args.operation.supported = true → world.memory 1 .workbuf 0 =
      setup.element args.datatype args.operation (args.workbuf 1 0) (args.workbuf 0 0)) ∧
    ∃ buffers mirror, MockReachable (setup.filled buffers) mirror ∧ mirror.rank = world.rank ∧
      ¬ WithoutEffect (setup.filled buffers) call { args with workbuf := buffers call } mirror := by
  refine ⟨fun unknown => ?_, ?_, ?_⟩
  · exact not_withoutEffect several reachable found kind inPlace returned fun known => by
      simp [unknown] at known
  · exact element_of_returned several reachable found kind inPlace returned
  · obtain ⟨buffers, differs⟩ := exists_differing call combines
    obtain ⟨mirror, reached, same⟩ := exists_sameCourse reachable buffers
    have foundFilled := (setup.filled_call buffers call).trans (congrArg _ found)
    exact ⟨buffers, mirror, reached, same, not_withoutEffect
      (show 2 ≤ (setup.filled buffers).worldSize from several) reached foundFilled kind inPlace
      (by rw [same]; exact returned) differs⟩

def leftCall (operation : Operation) (workbuf : Nat → Nat → Nat) : Call Nat :=
  { kind := .allReduce, count := 4, datatype := .int32, operation := operation,
    inPlace := fun _ => true, owned := fun _ => 0, sendbuf := fun _ _ => 0, workbuf := workbuf }

/-- Two ranks that combine four elements, each a piece of its own, by an operation that is not in the
enumeration. -/
def leftSetup : Setup Nat :=
  { worldSize := 2, positive := Nat.two_pos,
    config := fun _ => some { pipelinePieceBytes := 4, maxInflight := 2, transferMode := .auto },
    element := fun _ _ destination source => destination + source,
    calls := [leftCall (.other 7) fun rank index => 10 * rank + index],
    memory := fun _ _ _ => 0 }

/-- Both ranks reject the operation, and add up zeros in a second try. -/
theorem left_run : ∃ world retried, MockReachable leftSetup world ∧
    (∀ rank < 2, (world.rank rank).Returned 0 .unsupportedOperation) ∧
    Runs.Reachable (Step (leftSetup.instead 0 (leftCall .sum fun _ _ => 0)) (mockTransport Nat 2))
      (world.again 0) retried ∧
    (∀ rank < 2, (retried.rank rank).Returned 0 .success) ∧ retried.memory 0 .workbuf 3 = 13 := by
  have ran : ((mockFollow leftSetup (List.replicate 6 0 ++ List.replicate 8 1 ++
      List.replicate 2 0)).bind fun world => (Runs.follow (mockMove (leftSetup.instead 0
        (leftCall .sum fun _ _ => 0))) (List.replicate 6 0 ++ List.replicate 6 1 ++
          List.replicate 11 0 ++ List.replicate 17 1 ++ List.replicate 6 0) (world.again 0)).map
        fun retried => ([0, 1].map (fun rank => ((world.rank rank).todo, (world.rank rank).results)),
          [0, 1].map (fun rank => ((retried.rank rank).todo, (retried.rank rank).results)),
          retried.memory 0 .workbuf 3)) =
      some ([([], [Status.unsupportedOperation]), ([], [.unsupportedOperation])],
        [([], [.success]), ([], [.success])], 13) := by
    decide +kernel
  obtain ⟨world, followed, retries⟩ := Option.bind_eq_some_iff.mp ran
  obtain ⟨retried, refollowed, reached⟩ := Option.map_eq_some_iff.mp retries
  simp only [List.map_cons, List.map_nil, Prod.mk.injEq, List.cons.injEq, and_true] at reached
  obtain ⟨⟨⟨idle, results⟩, idle1, results1⟩, ⟨⟨idle', results'⟩, idle1', results1'⟩, stale⟩ :=
    reached
  refine ⟨world, retried, mockReachable_of_follow followed, fun rank bound => ?_,
    mockMoves_reachable refollowed, fun rank bound => ?_, stale⟩
  · obtain rfl | rfl : rank = 0 ∨ rank = 1 := by omega
    · exact ⟨idle, by rw [results]; rfl, by rw [results]; rfl⟩
    · exact ⟨idle1, by rw [results1]; rfl, by rw [results1]; rfl⟩
  · obtain rfl | rfl : rank = 0 ∨ rank = 1 := by omega
    · exact ⟨idle', by rw [results']; rfl, by rw [results']; rfl⟩
    · exact ⟨idle1', by rw [results1']; rfl, by rw [results1']; rfl⟩

theorem rejected_leaves_pair : ∃ world, MockReachable leftSetup world ∧
    (∀ rank < 2, (world.rank rank).Returned 0 .unsupportedOperation) ∧
    ¬ WithoutEffect leftSetup 0 (leftCall (.other 7) fun rank index => 10 * rank + index) world := by
  obtain ⟨world, -, reachable, returned, -⟩ := left_run
  refine ⟨world, reachable, returned, ?_⟩
  exact (rejected_leaves (Nat.le_refl 2) reachable rfl rfl (fun _ _ => rfl)
    (fun rank bound => Or.inl (returned rank bound))
    fun known => absurd known (by simp [leftCall, Operation.supported])).1 rfl

/-- A message that the rejected call has left behind is taken for one of the second try: an element
of the rejected call is in the sum of zeros. -/
theorem retry_receives_rejected : ¬ RejectedWithoutEffect leftSetup ∧
    ∃ world retried, MockReachable leftSetup world ∧
      (∀ rank < 2, (world.rank rank).Returned 0 .unsupportedOperation) ∧
      Runs.Reachable (Step (leftSetup.instead 0 (leftCall .sum fun _ _ => 0)) (mockTransport Nat 2))
        (world.again 0) retried ∧
      (∀ rank < 2, (retried.rank rank).Returned 0 .success) ∧
      retried.memory 0 .workbuf 3 = 13 := by
  obtain ⟨world, retried, reachable, returned, again, succeeded, stale⟩ := left_run
  refine ⟨fun without => ?_, world, retried, reachable, returned, again, succeeded, stale⟩
  have own := (without world reachable 0 _ rfl (fun _ _ => rfl)
    fun rank bound => Or.inl (returned rank bound)).retries (leftCall .sum fun _ _ => 0) rfl rfl
      retried again succeeded 0 (by decide) 1 (by decide) 3 (by
        simp [Call.inBlock, leftCall, leftSetup, blockOffset, blockCount])
  rw [stale] at own
  simp [ringFold, leftSetup, leftCall, Call.input] at own

/-- Whatever the data, a call that all ranks reject for its operation or its tags is without effect
exactly if there is no such call: each leaves a request nobody waits for, or a work buffer that is
partly reduced. -/
theorem rejected_without_effect_iff {setup : Setup Value} (several : 2 ≤ setup.worldSize)
    (alike : Alike setup) (combines : ∀ datatype operation, datatype.supported = true →
      operation.supported = true → ∃ own other, setup.element datatype operation own other ≠ own) :
    (∀ buffers, RejectedWithoutEffect (setup.filled buffers)) ↔
      ∀ call args, setup.calls[call]? = some args →
        (∀ rank < setup.worldSize, args.inPlace rank = true) → setup.PassesUpTo call →
          ¬ setup.Refuses args := by
  constructor
  · intro without call args found inPlace passes refuses
    obtain ⟨buffers, differs⟩ := exists_differing call fun known => combines _ _ refuses.2.1 known
    have foundFilled := (setup.filled_call buffers call).trans (congrArg _ found)
    have kind := alike.calls args (List.mem_of_getElem? found)
    obtain ⟨world, reachable, returned⟩ := (@Alike.filled _ setup buffers alike).exists_rejected
      several foundFilled passes.filled refuses
    exact not_withoutEffect (show 2 ≤ (setup.filled buffers).worldSize from several) reachable
      foundFilled kind inPlace returned differs
      (without buffers world reachable call _ foundFilled inPlace returned)
  · intro none buffers world reachable call args found inPlace returned
    obtain ⟨passes, refuses⟩ := alike.filled.refuses_of_returned several reachable found returned
    rw [setup.filled_call] at found
    obtain ⟨args', found', rfl⟩ := Option.map_eq_some_iff.mp found
    exact absurd refuses (none call args' found' inPlace passes.of_filled)

theorem unknown_operation_leaves :
    ∃ buffers, ¬ RejectedWithoutEffect ((unknownSetup 2).filled buffers) := by
  have alike : Alike (unknownSetup 2) :=
    ⟨fun _ _ => rfl, fun args member => by rw [List.eq_of_mem_replicate member]⟩
  have refusesNone := rejected_without_effect_iff (show 2 ≤ (unknownSetup 2).worldSize by decide)
    alike fun _ _ _ _ => ⟨0, 1, show 0 + 1 ≠ 0 by decide⟩
  by_contra without
  simp only [not_exists, not_not] at without
  apply refusesNone.mp without 0 _ rfl (fun _ _ => rfl)
  · intro earlier less
    exact absurd less (Nat.not_lt_zero _)
  · simp [Setup.Refuses, Datatype.supported, Operation.supported, unknownSetup]

end RingAllReduce
