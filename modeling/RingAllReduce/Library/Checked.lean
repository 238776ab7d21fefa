import Mathlib.Data.List.Range

/-! Arithmetic on unsigned words below `limit`. There is no result where a word would wrap. -/

namespace Checked

variable {limit left right : Nat}

def add (limit left right : Nat) : Option Nat :=
  if left + right < limit then some (left + right) else none

def sub (left right : Nat) : Option Nat := if right ≤ left then some (left - right) else none

def mul (limit left right : Nat) : Option Nat :=
  if left * right < limit then some (left * right) else none

theorem add_eq (fits : left + right < limit) : add limit left right = some (left + right) :=
  if_pos fits

theorem sub_eq (le : right ≤ left) : sub left right = some (left - right) := if_pos le

theorem mul_eq (fits : left * right < limit) : mul limit left right = some (left * right) :=
  if_pos fits

section Loops

variable {Result : Type}

/-- So many turns of a loop that counts up, from `index` on. -/
def turns (limit : Nat) (body : Nat → Option Result) : (count index : Nat) → Option (List Result)
  | 0, _ => some []
  | count + 1, index =>
      (body index).bind fun result =>
        (add limit index 1).bind fun next =>
          (turns limit body count next).map (result :: ·)

/-- `for (index = first; index < bound; ++index)`, and what its turns give. -/
def forRange (limit : Nat) (body : Nat → Option Result) (first bound : Nat) :
    Option (List Result) :=
  turns limit body (bound - first) first

variable {body : Nat → Option Result} {value : Nat → Result}

theorem turns_eq {count index : Nat} (fits : index + count < limit)
    (given : ∀ turn, index ≤ turn → turn < index + count → body turn = some (value turn)) :
    turns limit body count index = some ((List.range' index count).map value) := by
  induction count generalizing index with
  | zero => rfl
  | succ count ih =>
      have rest := @ih (index + 1) (by omega) fun turn lower upper =>
        given turn (by omega) (by omega)
      rw [turns, given index (Nat.le_refl _) (by omega), Option.bind_some, add_eq (by omega),
        Option.bind_some, rest, Option.map_some, List.range'_succ, List.map_cons]

theorem forRange_eq {first bound : Nat} (fits : bound < limit)
    (given : ∀ turn, first ≤ turn → turn < bound → body turn = some (value turn)) :
    forRange limit body first bound = some ((List.range' first (bound - first)).map value) := by
  by_cases nonempty : first ≤ bound
  · exact turns_eq (by omega) fun turn lower upper => given turn lower (by omega)
  · rw [forRange, show bound - first = 0 by omega]
    rfl

theorem mapM_eq {Item : Type} {body : Item → Option Result} {value : Item → Result}
    {items : List Item} (given : ∀ item ∈ items, body item = some (value item)) :
    items.mapM body = some (items.map value) := by
  induction items with
  | nil => rfl
  | cons head items ih =>
      rw [List.mapM_cons, given head List.mem_cons_self,
        ih fun item member => given item (List.mem_cons_of_mem _ member)]
      rfl

end Loops

end Checked
