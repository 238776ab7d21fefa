import Mathlib.Order.Lattice
import Mathlib.Data.Nat.ModEq

/-! Positions on a ring of `size` places, and the fact that nothing decreases all the way
round it. -/

namespace Rotation

/-- The place `distance` further round the ring from `start`. -/
def hop (size start distance : Nat) : Nat := (start + distance) % size

/-- The successor on the ring. -/
def next (size place : Nat) : Nat := (place + 1) % size

def distance (size start place : Nat) : Nat := (place + size - start) % size

variable {size start place : Nat}

theorem hop_lt (positive : 0 < size) (start distance : Nat) : hop size start distance < size :=
  Nat.mod_lt _ positive

theorem next_lt (positive : 0 < size) (place : Nat) : next size place < size :=
  Nat.mod_lt _ positive

theorem hop_zero (bound : start < size) : hop size start 0 = start := by
  simp [hop, Nat.mod_eq_of_lt bound]

theorem next_hop (size start steps : Nat) :
    next size (hop size start steps) = hop size start (steps + 1) := by
  simp [next, hop, Nat.add_assoc]

theorem hop_size (size start steps : Nat) : hop size start (steps + size) = hop size start steps := by
  simp [hop, ← Nat.add_assoc]

theorem hop_distance (startBound : start < size) (placeBound : place < size) :
    hop size start (distance size start place) = place := by
  simp only [hop, distance, Nat.add_mod_mod]
  rw [show start + (place + size - start) = place + size by omega]
  simp [Nat.mod_eq_of_lt placeBound]

theorem distance_lt (positive : 0 < size) (start place : Nat) : distance size start place < size :=
  Nat.mod_lt _ positive

theorem mod_cases (value : Nat) (bound : value < 2 * size) :
    (value < size ∧ value % size = value) ∨ (size ≤ value ∧ value % size = value - size) := by
  by_cases small : value < size
  · exact Or.inl ⟨small, Nat.mod_eq_of_lt small⟩
  · refine Or.inr ⟨by omega, ?_⟩
    rw [Nat.mod_eq_sub_mod (by omega), Nat.mod_eq_of_lt (by omega)]

theorem distance_eq (startBound : start < size) (placeBound : place < size) :
    distance size start place = if start ≤ place then place - start else place + size - start := by
  rcases mod_cases (place + size - start) (show _ < 2 * size by omega) with ⟨small, eq⟩ | ⟨large, eq⟩
  · rw [distance, eq, if_neg (by omega)]
  · rw [distance, eq, if_pos (by omega)]
    omega

theorem next_eq (bound : place < size) :
    next size place = if place + 1 = size then 0 else place + 1 := by
  unfold next
  split
  · rename_i last
    simp [last]
  · exact Nat.mod_eq_of_lt (by omega)

theorem next_ne (several : 2 ≤ size) (bound : place < size) : next size place ≠ place := by
  rw [next_eq bound]
  split <;> omega

theorem hop_injective {first second steps : Nat} (firstBound : first < size)
    (secondBound : second < size) (same : hop size first steps = hop size second steps) :
    first = second := by
  have congruent : first ≡ second [MOD size] := Nat.ModEq.add_right_cancel' steps same
  exact Nat.ModEq.eq_of_lt_of_lt congruent firstBound secondBound

theorem hop_eq_iff (startBound : start < size) (placeBound : place < size) (steps : Nat) :
    hop size start steps = place ↔ steps % size = distance size start place := by
  have reached := hop_distance startBound placeBound
  constructor
  · intro arrives
    have congruent : steps ≡ distance size start place [MOD size] := by
      apply Nat.ModEq.add_left_cancel' start
      exact arrives.trans reached.symm
    have small := distance_lt (show 0 < size by omega) start place
    unfold Nat.ModEq at congruent
    rwa [Nat.mod_eq_of_lt small] at congruent
  · intro eq
    rw [← reached, ← eq]
    simp [hop]

theorem exists_prev (bound : place < size) : ∃ prev < size, next size prev = place := by
  refine ⟨hop size place (size - 1), hop_lt (by omega) _ _, ?_⟩
  rw [next_hop, show size - 1 + 1 = 0 + size by omega, hop_size, hop_zero bound]

theorem spreads {property : Nat → Prop} (bound : start < size) (holds : property start)
    (spread : ∀ place, place < size → property place → property (next size place)) :
    ∀ place, place < size → property place := by
  have positive : 0 < size := Nat.lt_of_le_of_lt (Nat.zero_le _) bound
  have along : ∀ steps, property (hop size start steps) := by
    intro steps
    induction steps with
    | zero =>
        rw [hop_zero bound]
        exact holds
    | succ steps ih =>
        rw [← next_hop]
        exact spread _ (hop_lt positive _ _) ih
  intro place placeBound
  rw [← hop_distance bound placeBound]
  exact along _

theorem spreads_back {property : Nat → Prop} (bound : start < size) (holds : property start)
    (spread : ∀ place, place < size → property (next size place) → property place) :
    ∀ place, place < size → property place := by
  intro place placeBound
  by_contra fails
  have everywhere := @spreads size place (fun place => ¬ property place) placeBound fails
    (fun other otherBound absent present => absent (spread other otherBound present))
  exact everywhere start bound holds

theorem no_descent {Value : Type} [Preorder Value] (positive : 0 < size) (value : Nat → Value)
    (drops : ∀ place, place < size → value (next size place) < value place) : False := by
  have below : ∀ steps, value (hop size 0 (steps + 1)) < value (hop size 0 0) := by
    intro steps
    induction steps with
    | zero =>
        rw [← next_hop]
        exact drops _ (hop_lt positive _ _)
    | succ steps ih =>
        rw [← next_hop]
        exact lt_trans (drops _ (hop_lt positive _ _)) ih
  have around := below (size - 1)
  rw [show size - 1 + 1 = 0 + size by omega, hop_size] at around
  exact lt_irrefl _ around

theorem no_ascent {Value : Type} [Preorder Value] (positive : 0 < size) (value : Nat → Value)
    (rises : ∀ place, place < size → value place < value (next size place)) : False :=
  @no_descent size Valueᵒᵈ _ positive value rises

theorem next_injective {size first second : Nat} (firstBound : first < size)
    (secondBound : second < size) (same : next size first = next size second) : first = second := by
  rw [next_eq firstBound, next_eq secondBound] at same
  split at same <;> split at same <;> omega

end Rotation
