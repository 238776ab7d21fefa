import Mathlib.Algebra.Ring.Nat
import RingAllReduce.Interface

/-! `block_layout.cpp`: how `count` elements are cut into one block per rank. -/

namespace RingAllReduce

structure BlockLayout where
  counts : List Nat
  offsets : List Nat
  deriving DecidableEq, Repr

/-- The loop over `block` with its `running_offset`. -/
def layoutLoop (base remainder : Nat) : (blocks block runningOffset : Nat) → BlockLayout
  | 0, _, _ => { counts := [], offsets := [] }
  | blocks + 1, block, runningOffset =>
      let blockCount := base + if block < remainder then 1 else 0
      let rest := layoutLoop base remainder blocks (block + 1) (runningOffset + blockCount)
      { counts := blockCount :: rest.counts, offsets := runningOffset :: rest.offsets }

def computeBlockLayout (count : Nat) (worldSize : Int) : Except Status BlockLayout :=
  if worldSize ≤ 0 then .error .invalidArgument
  else
    let base := count / worldSize.toNat
    let remainder := count % worldSize.toNat
    .ok (layoutLoop base remainder worldSize.toNat 0 0)

/-- The loop with its sums taken modulo 2^64, as `size_t` takes them. -/
def layoutLoopSize (base remainder : UInt64) :
    (blocks block : Nat) → (runningOffset : UInt64) → List UInt64 × List UInt64
  | 0, _, _ => ([], [])
  | blocks + 1, block, runningOffset =>
      let blockCount := base + if UInt64.ofNat block < remainder then 1 else 0
      let rest := layoutLoopSize base remainder blocks (block + 1) (runningOffset + blockCount)
      (blockCount :: rest.1, runningOffset :: rest.2)

def computeBlockLayoutSize (count : UInt64) (worldSize : Int) :
    Except Status (List UInt64 × List UInt64) :=
  if worldSize ≤ 0 then .error .invalidArgument
  else
    let base := count / UInt64.ofNat worldSize.toNat
    let remainder := count % UInt64.ofNat worldSize.toNat
    .ok (layoutLoopSize base remainder worldSize.toNat 0 0)

/-- The closed form of `layout.counts[block]`. -/
def blockCount (count worldSize block : Nat) : Nat :=
  count / worldSize + if block < count % worldSize then 1 else 0

/-- The closed form of `layout.offsets[block]`. -/
def blockOffset (count worldSize block : Nat) : Nat :=
  block * (count / worldSize) + min block (count % worldSize)

theorem blockOffset_succ (count worldSize block : Nat) :
    blockOffset count worldSize (block + 1) =
      blockOffset count worldSize block + blockCount count worldSize block := by
  unfold blockOffset blockCount
  split <;> rw [Nat.succ_mul] <;> omega

@[simp] theorem blockOffset_zero (count worldSize : Nat) : blockOffset count worldSize 0 = 0 := by
  simp [blockOffset]

theorem blockOffset_end (count : Nat) {worldSize : Nat} (positive : 0 < worldSize) :
    blockOffset count worldSize worldSize = count := by
  have small := Nat.mod_lt count positive
  have whole := Nat.div_add_mod count worldSize
  unfold blockOffset
  omega

theorem blockOffset_mono (count worldSize : Nat) {first second : Nat} (le : first ≤ second) :
    blockOffset count worldSize first ≤ blockOffset count worldSize second := by
  induction second with
  | zero => simp [Nat.le_zero.mp le]
  | succ second ih =>
      by_cases last : first = second + 1
      · exact Nat.le_of_eq (by rw [last])
      · have step := blockOffset_succ count worldSize second
        have earlier := ih (by omega)
        omega

theorem blocks_disjoint (count worldSize : Nat) {first second index : Nat}
    (inFirst : blockOffset count worldSize first ≤ index ∧
      index < blockOffset count worldSize first + blockCount count worldSize first)
    (inSecond : blockOffset count worldSize second ≤ index ∧
      index < blockOffset count worldSize second + blockCount count worldSize second) :
    first = second := by
  rw [← blockOffset_succ] at inFirst inSecond
  by_contra different
  rcases Nat.lt_or_gt_of_ne different with less | greater
  · have apart := blockOffset_mono count worldSize (show first + 1 ≤ second by omega)
    omega
  · have apart := blockOffset_mono count worldSize (show second + 1 ≤ first by omega)
    omega

theorem block_end_le (count : Nat) {worldSize block : Nat} (bound : block < worldSize) :
    blockOffset count worldSize block + blockCount count worldSize block ≤ count := by
  rw [← blockOffset_succ]
  calc blockOffset count worldSize (block + 1)
      ≤ blockOffset count worldSize worldSize := blockOffset_mono _ _ (by omega)
    _ = count := blockOffset_end count (by omega)

theorem exists_block {count worldSize index : Nat} (positive : 0 < worldSize)
    (bound : index < count) :
    ∃ block < worldSize, blockOffset count worldSize block ≤ index ∧
      index < blockOffset count worldSize block + blockCount count worldSize block := by
  have reach : ∀ blocks, index < blockOffset count worldSize blocks →
      ∃ block < blocks, blockOffset count worldSize block ≤ index ∧
        index < blockOffset count worldSize block + blockCount count worldSize block := by
    intro blocks
    induction blocks with
    | zero => simp
    | succ blocks ih =>
        intro below
        rw [blockOffset_succ] at below
        by_cases earlier : index < blockOffset count worldSize blocks
        · obtain ⟨block, blockBound, inside⟩ := ih earlier
          exact ⟨block, by omega, inside⟩
        · exact ⟨blocks, by omega, by omega, below⟩
  apply reach
  rwa [blockOffset_end count positive]

theorem layoutLoop_get (base remainder blocks block runningOffset index : Nat)
    (bound : index < blocks) :
    (layoutLoop base remainder blocks block runningOffset).counts.getD index 0 =
        base + (if block + index < remainder then 1 else 0) ∧
      (layoutLoop base remainder blocks block runningOffset).offsets.getD index 0 +
          (block * base + min block remainder) =
        runningOffset + ((block + index) * base + min (block + index) remainder) := by
  induction blocks generalizing block runningOffset index with
  | zero => omega
  | succ blocks ih =>
      cases index with
      | zero => simp [layoutLoop]
      | succ index =>
          obtain ⟨counts, offsets⟩ := ih (block + 1)
            (runningOffset + (base + if block < remainder then 1 else 0)) index (by omega)
          have shift : block + 1 + index = block + (index + 1) := by omega
          rw [shift] at counts offsets
          simp only [layoutLoop, List.getD_cons_succ]
          generalize layoutLoop base remainder blocks (block + 1) _ = rest at counts offsets ⊢
          refine ⟨counts, ?_⟩
          rw [Nat.succ_mul] at offsets
          split at offsets <;> omega

theorem computeBlockLayout_get (count : Nat) {worldSize : Nat} (positive : 0 < worldSize) :
    ∃ layout, computeBlockLayout count worldSize = .ok layout ∧
      ∀ block < worldSize, layout.counts.getD block 0 = blockCount count worldSize block ∧
        layout.offsets.getD block 0 = blockOffset count worldSize block := by
  refine ⟨_, by rw [computeBlockLayout, if_neg (by omega)], ?_⟩
  intro block inside
  have facts := layoutLoop_get (count / worldSize) (count % worldSize) worldSize 0 0 block inside
  simpa [blockCount, blockOffset] using facts

theorem layoutLoop_length (base remainder blocks block runningOffset : Nat) :
    (layoutLoop base remainder blocks block runningOffset).counts.length = blocks ∧
      (layoutLoop base remainder blocks block runningOffset).offsets.length = blocks := by
  induction blocks generalizing block runningOffset with
  | zero => simp [layoutLoop]
  | succ blocks ih => simp [layoutLoop, ih]

theorem blockCount_balanced (count worldSize : Nat) {first second : Nat} (le : first ≤ second) :
    blockCount count worldSize second ≤ blockCount count worldSize first ∧
      blockCount count worldSize first ≤ blockCount count worldSize second + 1 := by
  unfold blockCount
  split <;> split <;> omega

theorem layoutLoopSize_eq (base remainder : UInt64) {blocks block : Nat} {runningOffset : UInt64}
    (numbers : block + blocks < 2 ^ 64)
    (fits : ∀ done ≤ blocks, runningOffset.toNat + done * base.toNat +
      (min (block + done) remainder.toNat - min block remainder.toNat) < 2 ^ 64) :
    layoutLoop base.toNat remainder.toNat blocks block runningOffset.toNat =
      { counts := (layoutLoopSize base remainder blocks block runningOffset).1.map UInt64.toNat
        offsets := (layoutLoopSize base remainder blocks block runningOffset).2.map UInt64.toNat } := by
  induction blocks generalizing block runningOffset with
  | zero => rfl
  | succ blocks ih =>
      have one := fits 1 (by omega)
      have first : (base + if UInt64.ofNat block < remainder then 1 else 0).toNat =
          base.toNat + if block < remainder.toNat then 1 else 0 := by
        have less : UInt64.ofNat block < remainder ↔ block < remainder.toNat := by
          rw [UInt64.lt_iff_toNat_lt, UInt64.toNat_ofNat_of_lt' (by rw [UInt64.size]; omega)]
        rw [UInt64.toNat_add]
        simp only [less]
        split
        · exact Nat.mod_eq_of_lt (by simp only [UInt64.reduceToNat]; omega)
        · exact Nat.mod_eq_of_lt (by simp only [UInt64.reduceToNat]; omega)
      have sum : (runningOffset + (base + if UInt64.ofNat block < remainder then 1 else 0)).toNat =
          runningOffset.toNat + (base.toNat + if block < remainder.toNat then 1 else 0) := by
        rw [UInt64.toNat_add, first]
        apply Nat.mod_eq_of_lt
        split <;> omega
      have rest := @ih (block + 1)
        (runningOffset + (base + if UInt64.ofNat block < remainder then 1 else 0))
        (by omega) (by
          intro done bound
          have later := fits (done + 1) (by omega)
          rw [Nat.succ_mul] at later
          rw [sum]
          split <;> omega)
      rw [sum] at rest
      simp only [layoutLoop, layoutLoopSize, List.map_cons, first, rest]

theorem computeBlockLayoutSize_eq (count : UInt64) {worldSize : Nat} (positive : 0 < worldSize)
    (isInt : worldSize < 2 ^ 31) :
    computeBlockLayout count.toNat worldSize =
      (computeBlockLayoutSize count worldSize).map fun (counts, offsets) =>
        { counts := counts.map UInt64.toNat, offsets := offsets.map UInt64.toNat } := by
  have size : (UInt64.ofNat worldSize).toNat = worldSize := UInt64.toNat_ofNat_of_lt' (by rw [UInt64.size]; omega)
  rw [computeBlockLayout, computeBlockLayoutSize, if_neg (by omega), if_neg (by omega)]
  have loop := @layoutLoopSize_eq (count / UInt64.ofNat worldSize)
    (count % UInt64.ofNat worldSize) worldSize 0 0 (by omega) (by
      intro done bound
      have within := blockOffset_mono count.toNat worldSize bound
      rw [blockOffset_end count.toNat positive, blockOffset] at within
      have small := count.toNat_lt
      simp only [UInt64.toNat_div, UInt64.toNat_mod, size, UInt64.toNat_zero, Nat.zero_add,
        Nat.zero_min, Nat.sub_zero]
      omega)
  simp only [UInt64.toNat_div, UInt64.toNat_mod, size, UInt64.toNat_zero] at loop
  simp only [Int.toNat_natCast, loop, Except.map]

/-- The blocks are a balanced partition of the array, and computing them wraps nowhere. -/
theorem computeBlockLayout_balanced (count : UInt64) {worldSize : Nat} (positive : 0 < worldSize)
    (isInt : worldSize < 2 ^ 31) :
    ∃ layout, computeBlockLayout count.toNat worldSize = .ok layout ∧
      layout.counts.length = worldSize ∧ layout.offsets.length = worldSize ∧
      layout.offsets.getD 0 0 = 0 ∧
      (∀ block, block + 1 < worldSize → layout.offsets.getD (block + 1) 0 =
        layout.offsets.getD block 0 + layout.counts.getD block 0) ∧
      layout.offsets.getD (worldSize - 1) 0 + layout.counts.getD (worldSize - 1) 0 = count.toNat ∧
      (∀ first second, first ≤ second → second < worldSize →
        layout.counts.getD second 0 ≤ layout.counts.getD first 0 ∧
          layout.counts.getD first 0 ≤ layout.counts.getD second 0 + 1) ∧
      (∀ index < count.toNat, ∃! block, block < worldSize ∧ layout.offsets.getD block 0 ≤ index ∧
        index < layout.offsets.getD block 0 + layout.counts.getD block 0) ∧
      (∀ block < worldSize, layout.offsets.getD block 0 + layout.counts.getD block 0 < 2 ^ 64) ∧
      ∃ counts offsets, computeBlockLayoutSize count worldSize = .ok (counts, offsets) ∧
        layout.counts = counts.map UInt64.toNat ∧ layout.offsets = offsets.map UInt64.toNat := by
  have lengths := layoutLoop_length (count.toNat / worldSize) (count.toNat % worldSize) worldSize 0 0
  have size := computeBlockLayoutSize_eq count positive isInt
  obtain ⟨layout, laid, get⟩ := computeBlockLayout_get count.toNat positive
  have loop := laid
  rw [computeBlockLayout, if_neg (by omega), Int.toNat_natCast, Except.ok.injEq] at loop
  rw [loop] at lengths
  refine ⟨layout, laid, lengths.1, lengths.2, ?_, ?_, ?_, ?_, ?_, ?_, ?_⟩
  · rw [(get 0 positive).2, blockOffset_zero]
  · intro block bound
    rw [(get _ bound).2, (get block (by omega)).1, (get block (by omega)).2, blockOffset_succ]
  · rw [(get _ (by omega)).1, (get _ (by omega)).2, ← blockOffset_succ,
      show worldSize - 1 + 1 = worldSize by omega, blockOffset_end _ positive]
  · intro first second le bound
    rw [(get _ bound).1, (get first (by omega)).1]
    exact blockCount_balanced _ _ le
  · intro index inRange
    obtain ⟨block, bound, inside⟩ := exists_block positive inRange
    refine ⟨block, ⟨bound, by rw [(get _ bound).1, (get _ bound).2]; exact inside⟩, ?_⟩
    rintro other ⟨otherBound, otherInside⟩
    rw [(get _ otherBound).1, (get _ otherBound).2] at otherInside
    exact blocks_disjoint _ _ otherInside inside
  · intro block bound
    have within := block_end_le count.toNat bound
    have small := count.toNat_lt
    rw [(get _ bound).1, (get _ bound).2]
    omega
  · cases machine : computeBlockLayoutSize count worldSize with
    | error status => simp [laid, machine, Except.map] at size
    | ok made =>
        rw [laid, machine] at size
        have same := Except.ok.inj size
        exact ⟨made.1, made.2, rfl, by rw [same], by rw [same]⟩

theorem computeBlockLayout_balanced_seven :
    ∃ layout, computeBlockLayout 7 3 = .ok layout ∧ layout.counts = [3, 2, 2] ∧
      ∀ index < 7, ∃! block, block < 3 ∧ layout.offsets.getD block 0 ≤ index ∧
        index < layout.offsets.getD block 0 + layout.counts.getD block 0 := by
  obtain ⟨layout, laid, -, -, -, -, -, -, partition, -⟩ :=
    computeBlockLayout_balanced 7 (show 0 < 3 by decide) (by decide)
  exact ⟨layout, laid, by rw [← Except.ok.inj laid]; decide, partition⟩

end RingAllReduce
