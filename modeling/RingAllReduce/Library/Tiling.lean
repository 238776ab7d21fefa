import Mathlib.Data.List.Range
import Mathlib.Data.Nat.ModEq

/-! Cutting a range into tiles of equal size, the last of which may be shorter. -/

namespace Tiling

/-- The number of tiles of size `size` that cover `total`. -/
def tiles (total size : Nat) : Nat := (total + size - 1) / size

variable {size : Nat}

theorem le_tiles_mul (total : Nat) (positive : 0 < size) : total ≤ tiles total size * size := by
  have whole := Nat.div_add_mod (total + size - 1) size
  have small := Nat.mod_lt (total + size - 1) positive
  rw [tiles, Nat.mul_comm]
  omega

theorem lt_tiles_iff (total : Nat) (positive : 0 < size) (index : Nat) :
    index < tiles total size ↔ index * size < total := by
  rw [tiles, Nat.lt_iff_add_one_le, Nat.le_div_iff_mul_le positive, Nat.succ_mul]
  omega

theorem exists_tile {total : Nat} (positive : 0 < size) {index : Nat} (bound : index < total) :
    index / size < tiles total size ∧ index / size * size ≤ index ∧
      index - index / size * size < min size (total - index / size * size) := by
  have below := Nat.div_mul_le_self index size
  have above : index < index / size * size + size := by
    have := Nat.lt_mul_div_succ index positive
    rw [Nat.mul_succ, Nat.mul_comm] at this
    exact this
  refine ⟨(lt_tiles_iff _ positive _).mpr (by omega), below, ?_⟩
  omega

/-- Batches of consecutive indices, one after the other, run through all indices. -/
theorem flatMap_batches (batches size total : Nat) :
    ((List.range batches).flatMap fun batch =>
        List.range' (batch * size) (min (batch * size + size) total - batch * size)) =
      List.range (min (batches * size) total) := by
  induction batches with
  | zero => simp
  | succ batches ih =>
      rw [List.range_succ, List.flatMap_append, ih, List.flatMap_singleton, Nat.succ_mul]
      by_cases covered : total ≤ batches * size
      · rw [Nat.min_eq_right covered, Nat.min_eq_right (show total ≤ batches * size + size by omega),
          show total - batches * size = 0 by omega]
        simp
      · rw [Nat.min_eq_left (show batches * size ≤ total by omega), List.range_eq_range',
          List.range_eq_range']
        have joined := @List.range'_append 0 (batches * size)
          (min (batches * size + size) total - batches * size) 1
        simp only [Nat.zero_add, Nat.one_mul] at joined
        rw [joined]
        congr 1
        omega

/-- Ranges of at most `size` indices, one behind the other, that make up the first `total`
indices. A range is a first index and a number of indices. -/
structure Tiled (size total : Nat) (ranges : List (Nat × Nat)) : Prop where
  increasing : ranges.Pairwise fun first second => first.1 + first.2 ≤ second.1
  sized : ∀ range ∈ ranges, 1 ≤ range.2 ∧ range.2 ≤ size
  covers : ∀ index, index < total ↔ ∃ range ∈ ranges, range.1 ≤ index ∧ index < range.1 + range.2

theorem Tiled.within {total : Nat} {ranges : List (Nat × Nat)} (tiled : Tiled size total ranges)
    {range : Nat × Nat} (member : range ∈ ranges) : range.1 + range.2 ≤ total := by
  have nonempty := (tiled.sized range member).1
  have last := (tiled.covers (range.1 + range.2 - 1)).mpr ⟨range, member, by omega, by omega⟩
  omega

def tile (size total index : Nat) : Nat × Nat := (index * size, min size (total - index * size))

theorem tiled_tiles (positive : 0 < size) {total few : Nat} (enough : few ≤ tiles total size) :
    Tiled size (min (few * size) total) ((List.range few).map (tile size total)) := by
  constructor
  · rw [List.pairwise_map]
    apply List.pairwise_lt_range.imp
    intro first second less
    have next : (first + 1) * size ≤ second * size := Nat.mul_le_mul_right size less
    rw [Nat.succ_mul] at next
    simp only [tile]
    omega
  · intro range member
    obtain ⟨index, inFew, rfl⟩ := List.mem_map.mp member
    have bound := (lt_tiles_iff total positive index).mp
      ((List.mem_range.mp inFew).trans_le enough)
    simp only [tile]
    omega
  · intro index
    constructor
    · intro inside
      obtain ⟨-, lower, upper⟩ := exists_tile positive (show index < total by omega)
      have isTile : index / size < few := (Nat.div_lt_iff_lt_mul positive).mpr (by omega)
      exact ⟨_, List.mem_map.mpr ⟨index / size, List.mem_range.mpr isTile, rfl⟩, lower, by
        simp only [tile]
        omega⟩
    · rintro ⟨range, member, lower, upper⟩
      obtain ⟨place, inFew, rfl⟩ := List.mem_map.mp member
      have next : (place + 1) * size ≤ few * size :=
        Nat.mul_le_mul_right size (List.mem_range.mp inFew)
      rw [Nat.succ_mul] at next
      simp only [tile] at lower upper
      omega

theorem tiled_all (positive : 0 < size) (total : Nat) :
    Tiled size total ((List.range (tiles total size)).map (tile size total)) := by
  have all := tiled_tiles positive (Nat.le_refl (tiles total size))
  rwa [Nat.min_eq_right (le_tiles_mul total positive)] at all

end Tiling
