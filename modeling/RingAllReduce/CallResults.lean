import RingAllReduce.Library.Reduction
import RingAllReduce.PhaseValues

/-!
What the collectives are for, all three of them in one place: how the two phases make up an
All-Reduce, and what it computes where the order of the ranks does not matter.
-/

namespace RingAllReduce

open Exchange Rotation Reduction

variable {Value : Type} {setup : Setup Value} {rank call : Nat} {args : Call Value}

section RingFold

variable {combine : Value → Value → Value} {input input' : Nat → Value} {size start : Nat}

theorem ringFold_congr (bound : start < size) (same : ∀ place < size, input place = input' place)
    (steps : Nat) :
    ringFold combine input size start steps = ringFold combine input' size start steps := by
  induction steps with
  | zero => exact same start bound
  | succ steps ih => rw [ringFold, ringFold, ih, same _ (hop_lt (by omega) start (steps + 1))]

/-- What a value becomes on its way round the ring is the reduction of what it meets. -/
theorem ringFold_reduction [Std.Commutative combine] (bound : start < size) (steps : Nat) :
    reduction combine ((List.range (steps + 1)).map fun step => input (hop size start step)) =
      some (ringFold combine input size start steps) := by
  induction steps with
  | zero => simp [reduction, ringFold, hop_zero bound]
  | succ steps ih =>
      rw [List.range_succ, List.map_append, List.map_singleton, reduction_snoc ih, ringFold,
        @Std.Commutative.comm _ combine]

/-- Once round the ring it has met every rank, and their order does not matter. -/
theorem ringFold_all [Std.Commutative combine] [Std.Associative combine] (bound : start < size)
    {order : List Nat} (ranks : order.Perm (List.range size)) :
    reduction combine (order.map input) = some (ringFold combine input size start (size - 1)) := by
  have round := (ranks.trans (hops_perm bound).symm).map input
  rw [List.map_map] at round
  rw [reduction_perm round, ← ringFold_reduction bound (size - 1), Nat.sub_add_cancel (by omega)]
  rfl

end RingFold

def Setup.result (setup : Setup Value) (args : Call Value) (rank block index : Nat) : Value :=
  match args.kind with
  | .allReduce =>
      ringFold (setup.element args.datatype args.operation) (args.input · index) setup.worldSize block
        (setup.worldSize - 1)
  | .reduceScatter =>
      ringFold (setup.element args.datatype args.operation) (args.input · index) setup.worldSize block
        (distance setup.worldSize block rank)
  | .allGather => args.input (hop setup.worldSize block (setup.worldSize - 1)) index

/-- The operation of a call is one that its reductions know, if it has any. -/
def Call.known (args : Call Value) : Prop :=
  args.kind ≠ .allGather → args.operation.supported = true

theorem held_result (bound : rank < setup.worldSize) (typed : args.datatype.supported = true)
    (known : args.known) {block index : Nat} (blockBound : block < setup.worldSize)
    (inside : args.inBlock setup.worldSize block index) :
    setup.held args rank (args.kind.stages setup.worldSize) index =
      setup.result args rank block index := by
  cases kind : args.kind with
  | allReduce =>
      have operation := known (by simp [kind])
      rw [← kind, held_allReduce bound kind blockBound inside, carried_allReduce kind typed operation]
      simp only [Setup.result, kind]
  | reduceScatter =>
      have operation := known (by simp [kind])
      have small := distance_lt setup.positive block rank
      have combine : setup.combine args = setup.element args.datatype args.operation := by
        funext destination source
        simp [Setup.combine, typed, operation]
      rw [← kind, held_reduceScatter bound kind blockBound inside, Setup.carried,
        if_neg (by simp [kind]), Nat.min_eq_left (by omega), combine]
      simp only [Setup.result, kind]
  | allGather =>
      rw [← kind, held_allGather bound kind blockBound inside]
      simp [Setup.result, Call.input, kind]

section Returned

variable {world : MockWorld Value} (reachable : MockReachable setup world)
  (bound : rank < setup.worldSize) (found : setup.calls[call]? = some args)
  (returned : (world.rank rank).Returned call .success)

include reachable bound found returned

theorem returned_result (known : args.known) {block index : Nat} (blockBound : block < setup.worldSize)
    (inside : args.inBlock setup.worldSize block index) :
    world.memory rank .workbuf index = setup.result args rank block index := by
  obtain ⟨accepted, held⟩ := returned_held reachable bound found returned
  have inRange := Nat.lt_of_lt_of_le inside.2 (block_end_le args.count blockBound)
  rw [held index inRange, held_result bound accepted.1 known blockBound inside]

end Returned

/-- A Reduce-Scatter and an All-Gather of what it leaves do what one All-Reduce does, in place or
not, on a ring of the same ranks, whatever the configurations. -/
theorem phases_compose {scatter gather : Call Value} {world : MockWorld Value}
    (isScatter : setup.calls[call]? = some scatter) (scatters : scatter.kind = .reduceScatter)
    (known : scatter.operation.supported = true)
    (isGather : setup.calls[call + 1]? = some gather) (gathers : gather.kind = .allGather)
    (counts : gather.count = scatter.count)
    (handedOn : ∀ owner < setup.worldSize, ∃ earlier, MockReachable setup earlier ∧
      (earlier.rank owner).Returned call .success ∧
      gather.workbuf owner = earlier.memory owner .workbuf)
    (reachable : MockReachable setup world) (bound : rank < setup.worldSize)
    (returned : (world.rank rank).Returned (call + 1) .success) :
    (∀ index, scatter.count ≤ index →
      world.memory rank .workbuf index = scatter.workbuf rank index) ∧
    ∀ (setup' : Setup Value) (whole : Call Value) (call' : Nat),
      setup'.worldSize = setup.worldSize → setup'.element = setup.element →
      setup'.calls[call']? = some whole → whole.kind = .allReduce → whole.count = scatter.count →
      whole.datatype = scatter.datatype → whole.operation = scatter.operation →
      (∀ owner < setup.worldSize, ∀ index < scatter.count,
        whole.input owner index = scatter.workbuf owner index) →
      ∀ world', MockReachable setup' world' → ∀ rank' < setup.worldSize,
        (world'.rank rank').Returned call' .success → ∀ index < scatter.count,
          world.memory rank .workbuf index = world'.memory rank' .workbuf index := by
  constructor
  · intro index beyond
    obtain ⟨earlier, reached, scattered, handed⟩ := handedOn rank bound
    rw [returned_untouched reachable bound isGather returned (by omega), handed,
      returned_untouched reached bound isScatter scattered beyond]
  · intro setup' whole call' sizes elements isWhole reduces wholeCount datatypes operations inputs
      world' reached' rank' bound' returned' index inRange
    obtain ⟨block, blockBound, inside⟩ := exists_block setup.positive inRange
    have ownerBound := hop_lt setup.positive block (setup.worldSize - 1)
    obtain ⟨earlier, reached, scattered, handed⟩ := handedOn _ ownerBound
    have last := (hop_eq_iff blockBound ownerBound (setup.worldSize - 1)).mp rfl
    rw [Nat.mod_eq_of_lt (by have positive := setup.positive; omega)] at last
    have scatterKnown : scatter.known := fun _ => known
    have gatherKnown : gather.known := fun reduces => absurd gathers reduces
    have wholeKnown : whole.known := fun _ => by rw [operations, known]
    have owned := returned_result reached ownerBound isScatter scattered scatterKnown blockBound inside
    have gathered := returned_result reachable bound isGather returned gatherKnown blockBound
      (by rw [Call.inBlock, counts]; exact inside)
    have reduced := returned_result reached' (by omega) isWhole returned' wholeKnown
      (show block < setup'.worldSize by omega) (by rw [Call.inBlock, wholeCount, sizes]; exact inside)
    simp only [Setup.result, scatters, gathers, reduces, ← last] at owned gathered reduced
    rw [gathered, reduced, Call.input, if_neg (by simp [gathers]), handed, owned, sizes, elements,
      datatypes, operations]
    apply ringFold_congr blockBound
    intro owner ownerBound
    rw [inputs owner ownerBound index inRange, Call.input, if_neg (by simp [scatters])]

/-- The two ranks of `pairSetup`, that scatter and then gather what they have. -/
def phasesSetup : Setup Nat :=
  { pairSetup 0 with
    calls :=
      [{ kind := .reduceScatter, count := 2, datatype := .int32, operation := .sum,
         inPlace := fun _ => true, owned := fun _ => 0, sendbuf := fun _ _ => 0,
         workbuf := fun rank index => 10 * rank + index },
       { kind := .allGather, count := 2, datatype := .int32, operation := .sum,
         inPlace := fun _ => true, owned := fun rank => 1 - rank, sendbuf := fun _ _ => 0,
         workbuf := fun rank index => 10 * rank + index + if rank + index = 1 then 11 * index else 0 }] }

theorem phases_compose_pair : ∃ world world', MockReachable phasesSetup world ∧
    MockReachable (pairSetup 1) world' ∧
    ∀ index < 2, world.memory 1 .workbuf index = world'.memory 0 .workbuf index := by
  have scattered : (mockFollow phasesSetup (List.replicate 4 0 ++ List.replicate 9 1 ++
      List.replicate 5 0)).map (fun world => ((world.rank 0).todo, (world.rank 0).results,
        (world.rank 1).todo, (world.rank 1).results)) = some ([], [.success], [], [.success]) := by
    decide +kernel
  have gathered : (mockFollow phasesSetup (List.replicate 4 0 ++ List.replicate 9 1 ++
      List.replicate 9 0 ++ List.replicate 7 1)).map (fun world =>
        ((world.rank 1).todo, (world.rank 1).results)) = some ([], [.success, .success]) := by
    decide +kernel
  obtain ⟨earlier, followed, ended⟩ := Option.map_eq_some_iff.mp scattered
  obtain ⟨world, followed', ended'⟩ := Option.map_eq_some_iff.mp gathered
  simp only [Prod.mk.injEq] at ended ended'
  have reached := mockReachable_of_follow followed
  have reachable := mockReachable_of_follow followed'
  have both : ∀ owner < 2, (earlier.rank owner).Returned 0 .success := by
    intro owner bound
    obtain rfl | rfl : owner = 0 ∨ owner = 1 := by omega
    · exact ⟨ended.1, by simp [ended.2.1], by simp [ended.2.1]⟩
    · exact ⟨ended.2.2.1, by simp [ended.2.2.2], by simp [ended.2.2.2]⟩
  have isScatter : phasesSetup.calls[0]? = some _ := rfl
  have isGather : phasesSetup.calls[1]? = some _ := rfl
  obtain ⟨world', reachable', returned', -⟩ := pair_run
  refine ⟨world, world', reachable, reachable', ?_⟩
  refine (phases_compose isScatter rfl rfl isGather rfl rfl ?_ reachable (by decide)
    ⟨ended'.1, by simp [ended'.2], by simp [ended'.2]⟩).2 (pairSetup 1) _ 0 rfl rfl rfl rfl rfl rfl
      rfl (fun _ _ _ _ => rfl) world' reachable' 0 (by decide) returned'
  intro owner bound
  have small : owner < 2 := bound
  refine ⟨earlier, reached, both owner small, ?_⟩
  funext index
  have element := fun block => @returned_result _ phasesSetup owner 0 _ earlier reached bound isScatter
    (both owner small) (fun _ => rfl) block index
  obtain rfl | rfl | beyond : index = 0 ∨ index = 1 ∨ 2 ≤ index := by omega
  · rw [element 0 (by decide) (by decide)]
    obtain rfl | rfl : owner = 0 ∨ owner = 1 := by omega
    all_goals decide
  · rw [element 1 (by decide) (by decide)]
    obtain rfl | rfl : owner = 0 ∨ owner = 1 := by omega
    all_goals decide
  · rw [returned_untouched reached bound isScatter (both owner small) beyond]
    exact congrArg (10 * owner + index + ·) (if_neg (by omega))

section Order

variable {world : MockWorld Value}

section Returned

variable (found : setup.calls[call]? = some args) (kind : args.kind = .allReduce)
  (known : args.operation.supported = true) (reachable : MockReachable setup world)
  (bound : rank < setup.worldSize) (returned : (world.rank rank).Returned call .success)
  {combine : Value → Value → Value}
  (isCombine : setup.element args.datatype args.operation = combine)

include found kind known reachable bound returned isCombine

theorem reduction_of_returned [Std.Commutative combine] [Std.Associative combine] {order : List Nat}
    (ranks : order.Perm (List.range setup.worldSize)) {index : Nat} (inRange : index < args.count) :
    reduction combine (order.map (args.input · index)) =
      some (world.memory rank .workbuf index) := by
  obtain ⟨block, blockBound, inside⟩ := exists_block setup.positive inRange
  rw [returned_result reachable bound found returned (fun _ => known) blockBound inside]
  simp only [Setup.result, kind, isCombine]
  exact ringFold_all blockBound ranks

end Returned

/-- With a commutative and associative operation an All-Reduce leaves the reduction of all inputs, in
whatever order the ranks are taken. -/
theorem all_reduce_any_order (found : setup.calls[call]? = some args) (kind : args.kind = .allReduce)
    (known : args.operation.supported = true)
    (commutes : Std.Commutative (setup.element args.datatype args.operation))
    (associates : Std.Associative (setup.element args.datatype args.operation))
    (reachable : MockReachable setup world) (bound : rank < setup.worldSize)
    (returned : (world.rank rank).Returned call .success) :
    ∀ order : List Nat, order.Perm (List.range setup.worldSize) → ∀ index < args.count,
      reduction (setup.element args.datatype args.operation) (order.map (args.input · index)) =
        some (world.memory rank .workbuf index) :=
  fun _ ranks _ inRange =>
    reduction_of_returned found kind known reachable bound returned rfl ranks inRange

/-- `PG_MIN` and `PG_MAX` on a linear order leave the least and the greatest of the inputs. -/
theorem all_reduce_extremum [LinearOrder Value] (found : setup.calls[call]? = some args)
    (kind : args.kind = .allReduce) (reachable : MockReachable setup world)
    (bound : rank < setup.worldSize) (returned : (world.rank rank).Returned call .success)
    {index : Nat} (inRange : index < args.count) :
    (args.operation = .min → setup.element args.datatype .min = min →
      (∃ owner < setup.worldSize, world.memory rank .workbuf index = args.input owner index) ∧
        ∀ owner < setup.worldSize, world.memory rank .workbuf index ≤ args.input owner index) ∧
    (args.operation = .max → setup.element args.datatype .max = max →
      (∃ owner < setup.worldSize, world.memory rank .workbuf index = args.input owner index) ∧
        ∀ owner < setup.worldSize, args.input owner index ≤ world.memory rank .workbuf index) := by
  have among : ∀ value ∈ (List.range setup.worldSize).map (args.input · index),
      ∃ owner < setup.worldSize, value = args.input owner index := by
    intro value member
    obtain ⟨owner, ownerIn, rfl⟩ := List.mem_map.mp member
    exact ⟨owner, List.mem_range.mp ownerIn, rfl⟩
  have inputs : ∀ owner < setup.worldSize,
      args.input owner index ∈ (List.range setup.worldSize).map (args.input · index) :=
    fun owner ownerBound => List.mem_map.mpr ⟨owner, List.mem_range.mpr ownerBound, rfl⟩
  constructor
  · intro operation isMin
    obtain ⟨member, below⟩ := reduction_min (reduction_of_returned found kind (by rw [operation]; rfl)
      reachable bound returned (by rw [operation]; exact isMin) (List.Perm.refl _) inRange)
    exact ⟨among _ member, fun owner ownerBound => below _ (inputs owner ownerBound)⟩
  · intro operation isMax
    obtain ⟨member, above⟩ := reduction_max (reduction_of_returned found kind (by rw [operation]; rfl)
      reachable bound returned (by rw [operation]; exact isMax) (List.Perm.refl _) inRange)
    exact ⟨among _ member, fun owner ownerBound => above _ (inputs owner ownerBound)⟩

theorem all_reduce_any_order_pair : ∃ world, MockReachable (pairSetup 1) world ∧
    reduction (· + ·) ([1, 0].map fun rank => 10 * rank + 1) =
      some (world.memory 0 .workbuf 1) := by
  obtain ⟨world, reachable, returned, -⟩ := pair_run
  exact ⟨world, reachable, all_reduce_any_order (show (pairSetup 1).calls[0]? = some _ from rfl) rfl rfl
    ⟨Nat.add_comm⟩ ⟨Nat.add_assoc⟩ reachable (by decide) returned [1, 0] (by decide) 1 (by decide)⟩

/-- The two ranks of `pairSetup`, that look for the smaller element. -/
def leastSetup : Setup Nat :=
  { pairSetup 0 with
    element := fun _ _ => min
    calls :=
      [{ kind := .allReduce, count := 2, datatype := .int32, operation := .min,
         inPlace := fun _ => true, owned := fun _ => 0, sendbuf := fun _ _ => 0,
         workbuf := fun rank index => 10 * rank + index }] }

theorem all_reduce_extremum_pair : ∃ world, MockReachable leastSetup world ∧
    ∀ owner < 2, world.memory 1 .workbuf 1 ≤ 10 * owner + 1 := by
  have ran : (mockFollow leastSetup (List.replicate 4 0 ++ List.replicate 10 1 ++
      List.replicate 10 0 ++ List.replicate 4 1)).map (fun world =>
        ((world.rank 1).todo, (world.rank 1).results)) = some ([], [.success]) := by
    decide +kernel
  obtain ⟨world, followed, ended⟩ := Option.map_eq_some_iff.mp ran
  simp only [Prod.mk.injEq] at ended
  have reachable := mockReachable_of_follow followed
  exact ⟨world, reachable, ((all_reduce_extremum (show leastSetup.calls[0]? = some _ from rfl) rfl
    reachable (by decide) ⟨ended.1, by simp [ended.2], by simp [ended.2]⟩
    (show 1 < 2 by decide)).1 rfl rfl).2⟩

end Order

end RingAllReduce
