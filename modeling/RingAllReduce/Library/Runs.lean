import Mathlib.Algebra.BigOperators.Group.Finset.Basic
import Mathlib.Logic.Relation
import Mathlib.Order.WellFounded

/-! Runs of an unlabelled transition system: invariants, measures and maximal runs. -/

namespace Runs

variable {State : Type}

/-- The states some finite run from `initial` ends in. -/
def Reachable (step : State → State → Prop) (initial state : State) : Prop :=
  Relation.ReflTransGen step initial state

/-- A run that ends in a terminal state is maximal. -/
def Terminal (step : State → State → Prop) (state : State) : Prop :=
  ∀ next, ¬ step state next

theorem Reachable.invariant {step : State → State → Prop} {initial state : State}
    (property : State → Prop) (reachable : Reachable step initial state)
    (start : property initial)
    (preserved : ∀ before after, property before → step before after → property after) :
    property state := by
  induction reachable with
  | refl => exact start
  | tail _ next ih => exact preserved _ _ ih next

/-- An invariant whose step lemma may use that the state before the step is reachable. -/
theorem Reachable.strengthen {step : State → State → Prop} {initial state : State}
    (property : State → Prop) (reachable : Reachable step initial state)
    (start : property initial)
    (preserved : ∀ before after, Reachable step initial before → property before →
      step before after → property after) :
    property state := by
  induction reachable with
  | refl => exact start
  | tail earlier next ih => exact preserved _ _ earlier ih next

theorem Reachable.next {step : State → State → Prop} {initial before after : State}
    (reachable : Reachable step initial before) (next : step before after) :
    Reachable step initial after :=
  Relation.ReflTransGen.tail reachable next

theorem Reachable.trans {step : State → State → Prop} {first second third : State}
    (left : Reachable step first second) (right : Reachable step second third) :
    Reachable step first third :=
  Relation.ReflTransGen.trans left right

/-- A relation every step of one system keeps, where the other one takes some steps for it. -/
theorem Reachable.simulate {Other : Type} {step : State → State → Prop}
    {other : Other → Other → Prop} {initial state : State} {start : Other}
    (relates : State → Other → Prop) (reachable : Reachable step initial state)
    (related : relates initial start)
    (simulated : ∀ before after mirror, Reachable step initial before → Reachable other start mirror →
      relates before mirror → step before after →
        ∃ mirror', Reachable other mirror mirror' ∧ relates after mirror') :
    ∃ mirror, Reachable other start mirror ∧ relates state mirror := by
  induction reachable with
  | refl => exact ⟨start, Relation.ReflTransGen.refl, related⟩
  | tail earlier next ih =>
      obtain ⟨mirror, reached, relatesBefore⟩ := ih
      obtain ⟨mirror', further, relatesAfter⟩ := simulated _ _ _ earlier reached relatesBefore next
      exact ⟨mirror', reached.trans further, relatesAfter⟩

/-- The state a list of moves leads to, where every one of them can be made. -/
def follow {Move : Type} (act : Move → State → Option State) : List Move → State → Option State
  | [], state => some state
  | move :: moves, state => (act move state).bind (follow act moves)

theorem reachable_of_follow {Move : Type} {step : State → State → Prop}
    {act : Move → State → Option State}
    (sound : ∀ move before after, act move before = some after → step before after)
    {moves : List Move} {initial state : State} (followed : follow act moves initial = some state) :
    Reachable step initial state := by
  induction moves generalizing initial with
  | nil =>
      obtain rfl : initial = state := by simpa [follow] using followed
      exact Relation.ReflTransGen.refl
  | cons move moves ih =>
      obtain ⟨next, taken, rest⟩ := Option.bind_eq_some_iff.mp followed
      exact Relation.ReflTransGen.head (sound move initial next taken) (ih rest)

/-- A run can be completed where a measure decreases from all states that satisfy an invariant. -/
theorem exists_terminal_of_invariant {step : State → State → Prop} (measure : State → Nat)
    {property : State → Prop}
    (preserved : ∀ before after, property before → step before after → property after)
    (decreases : ∀ before after, property before → step before after →
      measure after < measure before) :
    ∀ state, property state → ∃ final, Reachable step state final ∧ Terminal step final := by
  intro state holds
  generalize sizeEq : measure state = size
  induction size using Nat.strong_induction_on generalizing state with
  | _ size ih =>
      by_cases stuck : Terminal step state
      · exact ⟨state, Relation.ReflTransGen.refl, stuck⟩
      · simp only [Terminal, not_forall, not_not] at stuck
        obtain ⟨next, taken⟩ := stuck
        obtain ⟨final, rest, ended⟩ :=
          ih (measure next) (sizeEq ▸ decreases state next holds taken) next
            (preserved state next holds taken) rfl
        exact ⟨final, Relation.ReflTransGen.head taken rest, ended⟩

/-- A measure that decreases from every reachable state bounds the length of every run. -/
theorem no_infinite {step : State → State → Prop} {initial : State} (measure : State → Nat)
    (decreases : ∀ before after, Reachable step initial before → step before after →
      measure after < measure before) (run : Nat → State) (start : run 0 = initial) :
    ¬ ∀ index, step (run index) (run (index + 1)) := by
  intro steps
  have along : ∀ index, Reachable step initial (run index) ∧
      measure (run index) + index ≤ measure initial := by
    intro index
    induction index with
    | zero => exact ⟨start ▸ Relation.ReflTransGen.refl, by rw [start]; omega⟩
    | succ index ih =>
        have less := decreases _ _ ih.1 (steps index)
        exact ⟨ih.1.next (steps index), by omega⟩
  have last := (along (measure initial + 1)).2
  omega

/-- A sum over parties of which only one changes. -/
theorem sum_change {size place : Nat} (before after : Nat → Nat) (bound : place < size)
    (others : ∀ other, other ≠ place → after other = before other) :
    (∑ other ∈ Finset.range size, after other) + before place =
      (∑ other ∈ Finset.range size, before other) + after place := by
  have member := Finset.mem_range.mpr bound
  have same : ∑ other ∈ (Finset.range size).erase place, after other =
      ∑ other ∈ (Finset.range size).erase place, before other :=
    Finset.sum_congr rfl fun other inside => others other (Finset.ne_of_mem_erase inside)
  rw [← Finset.add_sum_erase _ after member, ← Finset.add_sum_erase _ before member, same]
  omega

end Runs
