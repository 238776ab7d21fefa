import RingAllReduce.Library.Runs

/-! Two transition systems that take their steps together. -/

namespace Runs

variable {State Other : Type}

/-- Every step of one system is one of the other, and the one can go on where the other can. -/
structure Lockstep (step : State → State → Prop) (other : Other → Other → Prop) (start : Other)
    (relates : State → Other → Prop) : Prop where
  forward : ∀ before after mirror, Reachable other start mirror → relates before mirror →
    step before after → ∃ mirror', other mirror mirror' ∧ relates after mirror'
  enabled : ∀ state mirror mirror', Reachable other start mirror → relates state mirror →
    other mirror mirror' → ∃ after, step state after

section Lockstep

variable {step : State → State → Prop} {other : Other → Other → Prop} {initial state : State}
  {start mirror : Other} {relates : State → Other → Prop}
  (lockstep : Lockstep step other start relates)

include lockstep

theorem Lockstep.reachable (related : relates initial start)
    (reachable : Reachable step initial state) :
    ∃ mirror, Reachable other start mirror ∧ relates state mirror := by
  apply reachable.simulate relates related
  intro before after mirror _ reached relatesBefore taken
  obtain ⟨mirror', next, relatesAfter⟩ :=
    lockstep.forward before after mirror reached relatesBefore taken
  exact ⟨mirror', Relation.ReflTransGen.single next, relatesAfter⟩

theorem Lockstep.terminal (reached : Reachable other start mirror) (related : relates state mirror)
    (ended : Terminal step state) : Terminal other mirror := by
  intro mirror' next
  obtain ⟨after, taken⟩ := lockstep.enabled state mirror mirror' reached related next
  exact ended after taken

variable (measure : Other → Nat)
  (decreases : ∀ before after, Reachable other start before → other before after →
    measure after < measure before)

include decreases

theorem Lockstep.no_infinite (run : Nat → State) (related : relates (run 0) start) :
    ¬ ∀ index, step (run index) (run (index + 1)) := by
  intro steps
  have along : ∀ index, ∃ mirror, Reachable other start mirror ∧ relates (run index) mirror ∧
      measure mirror + index ≤ measure start := by
    intro index
    induction index with
    | zero => exact ⟨start, Relation.ReflTransGen.refl, related, le_rfl⟩
    | succ index ih =>
        obtain ⟨mirror, reached, relatesBefore, le⟩ := ih
        obtain ⟨mirror', next, relatesAfter⟩ :=
          lockstep.forward _ _ mirror reached relatesBefore (steps index)
        have less := decreases mirror mirror' reached next
        exact ⟨mirror', reached.next next, relatesAfter, by omega⟩
  obtain ⟨mirror, -, -, le⟩ := along (measure start + 1)
  omega

theorem Lockstep.exists_terminal (reached : Reachable other start mirror)
    (related : relates state mirror) : ∃ final, Reachable step state final ∧ Terminal step final := by
  generalize sizeEq : measure mirror = size
  induction size using Nat.strong_induction_on generalizing state mirror with
  | _ size ih =>
      by_cases stuck : Terminal step state
      · exact ⟨state, Relation.ReflTransGen.refl, stuck⟩
      · simp only [Terminal, not_forall, not_not] at stuck
        obtain ⟨next, taken⟩ := stuck
        obtain ⟨mirror', moved, relatesNext⟩ :=
          lockstep.forward state next mirror reached related taken
        obtain ⟨final, rest, ended⟩ :=
          ih (measure mirror') (sizeEq ▸ decreases mirror mirror' reached moved)
            (reached.next moved) relatesNext rfl
        exact ⟨final, Relation.ReflTransGen.head taken rest, ended⟩

end Lockstep

end Runs
