import Mathlib.Data.List.Induction
import Mathlib.Data.List.Nodup
import Mathlib.Data.List.Perm.Subperm
import Mathlib.Order.Lattice
import RingAllReduce.Library.Rotation

/-! Reductions of a list by one operation, and why their order does not matter where the operation is
commutative and associative. -/

namespace Reduction

open Rotation

variable {Item : Type}

/-- The items of a list combined from left to right; an empty list has nothing to combine. -/
def reduction (combine : Item → Item → Item) : List Item → Option Item
  | [] => none
  | first :: rest => some (rest.foldl combine first)

variable {combine : Item → Item → Item} {items others : List Item} {value : Item}

theorem reduction_snoc (whole : reduction combine items = some value) (last : Item) :
    reduction combine (items ++ [last]) = some (combine value last) := by
  cases items with
  | nil => simp [reduction] at whole
  | cons first rest =>
      obtain rfl := Option.some.inj whole
      simp [reduction]

theorem reduction_perm [Std.Commutative combine] [Std.Associative combine]
    (same : items.Perm others) : reduction combine items = reduction combine others := by
  induction same with
  | nil => rfl
  | cons first rest _ => simp only [reduction, rest.foldl_op_eq]
  | swap first second rest =>
      simp only [reduction, List.foldl_cons]
      rw [@Std.Commutative.comm _ combine _ first second]
  | trans _ _ left right => exact left.trans right

section Extremum

variable [LinearOrder Item]

/-- What is left of a list by taking the smaller one is its minimum. -/
theorem reduction_min (whole : reduction min items = some value) :
    value ∈ items ∧ ∀ item ∈ items, value ≤ item := by
  induction items using List.reverseRecOn generalizing value with
  | nil => simp [reduction] at whole
  | append_singleton items last ih =>
      cases before : reduction min items with
      | none =>
          cases items with
          | nil =>
              obtain rfl : last = value := by simpa [reduction] using whole
              simp
          | cons first rest => simp [reduction] at before
      | some least =>
          obtain ⟨member, below⟩ := ih before
          rw [reduction_snoc before, Option.some.injEq] at whole
          subst whole
          constructor
          · rcases min_choice least last with same | same <;> rw [same] <;> simp [member]
          · intro item itemIn
            rcases List.mem_append.mp itemIn with old | new
            · exact (min_le_left _ _).trans (below item old)
            · rw [List.mem_singleton.mp new]
              exact min_le_right _ _

theorem reduction_max (whole : reduction max items = some value) :
    value ∈ items ∧ ∀ item ∈ items, item ≤ value :=
  @reduction_min Itemᵒᵈ items value _ whole

end Extremum

/-- One way round a ring all places are visited. -/
theorem hops_perm {size start : Nat} (bound : start < size) :
    ((List.range size).map (hop size start)).Perm (List.range size) := by
  apply List.Subperm.perm_of_length_le
  · apply List.Nodup.subperm
    · rw [List.nodup_map_iff_inj_on List.nodup_range]
      intro step stepIn step' stepIn' same
      rw [List.mem_range] at stepIn stepIn'
      have congruent : step ≡ step' [MOD size] := Nat.ModEq.add_left_cancel' start same
      exact Nat.ModEq.eq_of_lt_of_lt congruent stepIn stepIn'
    · intro place member
      obtain ⟨step, -, rfl⟩ := List.mem_map.mp member
      exact List.mem_range.mpr (hop_lt (by omega) start step)
  · simp

end Reduction
