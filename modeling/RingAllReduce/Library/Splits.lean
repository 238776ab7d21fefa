import Mathlib.Data.List.Basic
import Mathlib.Data.List.Nodup
import Mathlib.Data.List.Flatten
import Mathlib.Data.List.Forall2

/-! Where an element of a concatenation of lists lies. -/

namespace Splits

variable {Item Part : Type}

theorem append_split {left right before after : List Item} {item : Item}
    (split : left ++ right = before ++ item :: after) :
    (∃ rest, left = before ++ item :: rest ∧ after = rest ++ right) ∨
      ∃ lead, before = left ++ lead ∧ right = lead ++ item :: after := by
  rcases List.append_eq_append_iff.mp split with ⟨lead, beforeEq, rightEq⟩ | ⟨rest, leftEq, afterEq⟩
  · exact Or.inr ⟨lead, beforeEq, rightEq⟩
  · cases rest with
    | nil =>
        refine Or.inr ⟨[], ?_, ?_⟩
        · simpa using leftEq.symm
        · simpa using afterEq.symm
    | cons head rest =>
        simp only [List.cons_append, List.cons.injEq] at afterEq
        exact Or.inl ⟨rest, by rw [leftEq, afterEq.1], afterEq.2⟩

theorem flatMap_split {parts : List Part} {items : Part → List Item} {before after : List Item}
    {item : Item} (split : parts.flatMap items = before ++ item :: after) :
    ∃ earlier part later lead rest, parts = earlier ++ part :: later ∧
      before = earlier.flatMap items ++ lead ∧ items part = lead ++ item :: rest ∧
      after = rest ++ later.flatMap items := by
  induction parts generalizing before with
  | nil => simp at split
  | cons part parts ih =>
      rw [List.flatMap_cons] at split
      rcases append_split split with ⟨rest, here, afterEq⟩ | ⟨lead, beforeEq, there⟩
      · exact ⟨[], part, parts, before, rest, rfl, by simp, here, afterEq⟩
      · obtain ⟨earlier, found, later, inner, rest, partsEq, leadEq, itemsEq, afterEq⟩ := ih there
        refine ⟨part :: earlier, found, later, inner, rest, by rw [partsEq]; rfl, ?_, itemsEq,
          afterEq⟩
        rw [beforeEq, leadEq, List.flatMap_cons, List.append_assoc]

theorem map_split {transform : Item → Part} {items : List Item} {before after : List Part}
    {image : Part} (split : items.map transform = before ++ image :: after) :
    ∃ lead item rest, items = lead ++ item :: rest ∧ before = lead.map transform ∧
      image = transform item ∧ after = rest.map transform := by
  obtain ⟨lead, tail, itemsEq, beforeEq, tailEq⟩ := List.map_eq_append_iff.mp split
  obtain ⟨item, rest, rfl, imageEq, restEq⟩ := List.map_eq_cons_iff.mp tailEq
  exact ⟨lead, item, rest, itemsEq, beforeEq.symm, imageEq.symm, restEq.symm⟩

theorem prefix_getElem? {few many : List Item} (ahead : few <+: many) {index : Nat}
    (bound : index < few.length) : many[index]? = few[index]? := by
  obtain ⟨rest, rfl⟩ := ahead
  exact List.getElem?_append_left bound

theorem prefix_snoc {few many : List Item} (ahead : few <+: many) {item : Item}
    (found : many[few.length]? = some item) : few ++ [item] <+: many := by
  obtain ⟨rest, rfl⟩ := ahead
  rw [List.getElem?_append_right (Nat.le_refl _), Nat.sub_self] at found
  cases rest with
  | nil => simp at found
  | cons head rest =>
      obtain rfl : head = item := by simpa using found
      exact ⟨rest, by simp⟩

/-- Of two front parts of a list, the one that is not yet covered contains the item after the
other. -/
theorem mem_of_behind {few front whole : List Item} {item : Item} (ahead : few <+: whole)
    (next : front ++ [item] <+: whole) (behind : ¬ few <+: front) : item ∈ few := by
  have less : front.length < few.length := by
    by_contra le
    exact behind (List.prefix_of_prefix_length_le ahead ((List.prefix_append _ _).trans next)
      (by omega))
  have within := List.prefix_of_prefix_length_le next ahead
    (by rwa [List.length_append, List.length_singleton])
  exact within.subset (by simp)

/-! Where an entry of a changed list comes from. -/

/-- An item behind a front part of a list without repetitions is not in it. -/
theorem not_mem_of_prefix {front whole : List Item} (ahead : front <+: whole) (nodup : whole.Nodup)
    {index : Nat} {item : Item} (found : whole[index]? = some item) (late : front.length ≤ index) :
    item ∉ front := by
  intro member
  obtain ⟨rest, rfl⟩ := ahead
  rw [List.getElem?_append_right late] at found
  exact (List.nodup_append.mp nodup).2.2 item member item (List.mem_of_getElem? found) rfl

theorem getElem?_snoc {few : List Item} {last item : Item} {index : Nat}
    (found : (few ++ [last])[index]? = some item) :
    few[index]? = some item ∨ index = few.length ∧ item = last := by
  by_cases old : index < few.length
  · rw [List.getElem?_append_left old] at found
    exact Or.inl found
  · have bound := (List.getElem?_eq_some_iff.mp found).1
    simp only [List.length_append, List.length_singleton] at bound
    obtain rfl : index = few.length := by omega
    rw [List.getElem?_concat_length, Option.some.injEq] at found
    exact Or.inr ⟨rfl, found.symm⟩

theorem getElem?_set_cases {items : List Item} {place index : Nat} {new item : Item}
    (found : (items.set place new)[index]? = some item) :
    (index = place ∧ item = new) ∨ items[index]? = some item := by
  rw [List.getElem?_set] at found
  split at found
  · rename_i same
    split at found
    · exact Or.inl ⟨same.symm, (Option.some.inj found).symm⟩
    · simp at found
  · exact Or.inr found

theorem getElem?_modify_some {items : List Item} {place index : Nat} {change : Item → Item}
    {item : Item} (found : (items.modify place change)[index]? = some item) :
    ∃ old, items[index]? = some old ∧ item = if index = place then change old else old := by
  rw [List.getElem?_modify] at found
  obtain ⟨old, isOld, rfl⟩ := Option.map_eq_some_iff.mp found
  exact ⟨old, isOld, by simp only [eq_comm]⟩

theorem forall_modify {property : Item → Prop} {items : List Item}
    (every : ∀ item ∈ items, property item) {place : Nat} {change : Item → Item}
    (changed : ∀ item, items[place]? = some item → property (change item)) :
    ∀ item ∈ items.modify place change, property item := by
  intro item member
  obtain ⟨index, found⟩ := List.mem_iff_getElem?.mp member
  obtain ⟨old, isOld, rfl⟩ := getElem?_modify_some found
  split
  · rename_i same
    exact changed old (same ▸ isOld)
  · exact every old (List.mem_of_getElem? isOld)

theorem forall_snoc {property : Item → Prop} {items : List Item}
    (every : ∀ item ∈ items, property item) {last : Item} (holds : property last) :
    ∀ item ∈ items ++ [last], property item := by
  intro item member
  rcases List.mem_append.mp member with old | new
  · exact every item old
  · exact List.mem_singleton.mp new ▸ holds

variable {Kept : Type}

theorem map_modify_same (keep : Item → Kept) {change : Item → Item}
    (same : ∀ item, keep (change item) = keep item) (items : List Item) (place : Nat) :
    (items.modify place change).map keep = items.map keep := by
  apply List.ext_getElem?
  intro index
  rw [List.getElem?_map, List.getElem?_map, List.getElem?_modify]
  cases items[index]? with
  | none => rfl
  | some item =>
      simp only [Option.map_some]
      split <;> simp [same]

/-! Two lists whose items stand for each other, place by place. -/

theorem forall₂_getElem? {relates : Item → Part → Prop} {items : List Item} {parts : List Part}
    (alongside : List.Forall₂ relates items parts) {place : Nat} {item : Item}
    (found : items[place]? = some item) : ∃ part, parts[place]? = some part ∧ relates item part := by
  induction alongside generalizing place with
  | nil => simp at found
  | cons holds _ ih =>
      cases place with
      | zero =>
          obtain rfl := Option.some.inj found
          exact ⟨_, rfl, holds⟩
      | succ place => exact ih found

theorem forall₂_modify_set {relates : Item → Part → Prop} {items : List Item} {parts : List Part}
    (alongside : List.Forall₂ relates items parts) {place : Nat} {change : Item → Item} {new : Part}
    (holds : ∀ item, items[place]? = some item → relates (change item) new) :
    List.Forall₂ relates (items.modify place change) (parts.set place new) := by
  induction alongside generalizing place with
  | nil => simp
  | cons head tail ih =>
      cases place with
      | zero => exact .cons (holds _ rfl) tail
      | succ place => exact .cons head (ih holds)

theorem forall₂_modify {relates : Item → Part → Prop} {items : List Item} {parts : List Part}
    (alongside : List.Forall₂ relates items parts) {place : Nat} {change : Item → Item}
    (holds : ∀ item part, relates item part → relates (change item) part) :
    List.Forall₂ relates (items.modify place change) parts := by
  induction alongside generalizing place with
  | nil => simp
  | cons head tail ih =>
      cases place with
      | zero => exact .cons (holds _ _ head) tail
      | succ place => exact .cons head ih

/-! How many items satisfy a test. -/

theorem countP_modify (test : Item → Bool) (change : Item → Item) {items : List Item} {place : Nat}
    {item : Item} (found : items[place]? = some item) :
    (items.modify place change).countP test + (if test item then 1 else 0) =
      items.countP test + if test (change item) then 1 else 0 := by
  induction items generalizing place with
  | nil => simp at found
  | cons head items ih =>
      cases place with
      | zero =>
          obtain rfl : head = item := by simpa using found
          simp only [List.modify_zero_cons, List.countP_cons]
          omega
      | succ place =>
          have tail : (items.modify place change).countP test + (if test item then 1 else 0) =
              items.countP test + if test (change item) then 1 else 0 := ih (by simpa using found)
          simp only [List.modify_succ_cons, List.countP_cons]
          omega

theorem countP_modify_same (test : Item → Bool) (change : Item → Item)
    (same : ∀ item, test (change item) = test item) (items : List Item) (place : Nat) :
    (items.modify place change).countP test = items.countP test := by
  cases found : items[place]? with
  | none => rw [List.modify_eq_self (List.getElem?_eq_none_iff.mp found)]
  | some item =>
      have counted := countP_modify test change found
      rw [same] at counted
      omega

/-- A change after which an item no longer counts. -/
theorem countP_modify_fewer (test : Item → Bool) (change : Item → Item)
    (cleared : ∀ item, test (change item) = false) (items : List Item) (place : Nat) :
    (items.modify place change).countP test ≤ items.countP test := by
  cases found : items[place]? with
  | none =>
      have same := List.modify_eq_self (f := change) (List.getElem?_eq_none_iff.mp found)
      exact Nat.le_of_eq (congrArg (List.countP test) same)
  | some item =>
      have counted := countP_modify test change found
      rw [cleared] at counted
      simp only [Bool.false_eq_true, if_false] at counted
      omega

theorem countP_modify_le (test : Item → Bool) (change : Item → Item) (items : List Item)
    (place : Nat) : (items.modify place change).countP test ≤ items.countP test + 1 := by
  cases found : items[place]? with
  | none =>
      rw [List.modify_eq_self (List.getElem?_eq_none_iff.mp found)]
      omega
  | some item =>
      have counted := countP_modify test change found
      split at counted <;> split at counted <;> omega

/-- Items at the front that fail a test leave at most the others to pass it. -/
theorem countP_le_of_front {test : Item → Bool} {items : List Item} {count : Nat}
    (front : ∀ (place : Nat) item, items[place]? = some item → place < count → test item = false) :
    items.countP test ≤ items.length - count := by
  induction items generalizing count with
  | nil => simp
  | cons head items ih =>
      cases count with
      | zero => exact List.countP_le_length
      | succ count =>
          have failed := front 0 head rfl (Nat.succ_pos count)
          have tail : items.countP test ≤ items.length - count := ih fun place item found inside =>
            front (place + 1) item (by simpa using found) (by omega)
          rw [List.countP_cons_of_neg (by simp [failed]), List.length_cons]
          omega

/-- And where all others pass it, they are counted. -/
theorem countP_of_front {test : Item → Bool} {items : List Item} {count : Nat}
    (front : ∀ (place : Nat) item, items[place]? = some item → place < count → test item = false)
    (others : ∀ item ∈ items.drop count, test item = true) :
    items.countP test = (items.drop count).length := by
  apply Nat.le_antisymm
  · rw [List.length_drop]
    exact countP_le_of_front front
  · rw [← List.countP_eq_length.mpr others]
    exact (List.drop_sublist count items).countP_le

theorem map_set_same (keep : Item → Kept) {items : List Item} {place : Nat} {old new : Item}
    (found : items[place]? = some old) (same : keep new = keep old) :
    (items.set place new).map keep = items.map keep := by
  obtain ⟨bound, rfl⟩ := List.getElem?_eq_some_iff.mp found
  rw [List.map_set, same]
  apply List.ext_getElem? fun index => ?_
  grind

end Splits
