import Mathlib.Data.List.Nodup
import RingAllReduce.Bootstrap

/-! The order of the operations of a rank, and the neighbours on the ring. -/

namespace RingAllReduce.Bootstrap

theorem program_nodup (even : Bool) : (connectProcessGroup even).Nodup := by
  cases even <;> decide

/-- One operation comes before another on every rank. -/
def Ordered (first second : Action) : Prop :=
  ∀ even, (connectProcessGroup even).idxOf first < (connectProcessGroup even).idxOf second

instance (first second : Action) : Decidable (Ordered first second) :=
  inferInstanceAs (Decidable (∀ _, _))

section Order

variable {even : Bool} {log todo : List Action} {first second : Action}

theorem idxOf_lt_iff (program : log ++ todo = connectProcessGroup even) :
    first ∈ log ↔ (connectProcessGroup even).idxOf first < log.length := by
  constructor
  · intro done
    rw [← program, List.idxOf_append_of_mem done]
    exact List.idxOf_lt_length_of_mem done
  · intro early
    by_contra absent
    rw [← program, List.idxOf_append_of_notMem absent] at early
    omega

theorem mem_of_ordered (program : log ++ todo = connectProcessGroup even)
    (ordered : Ordered first second) (done : second ∈ log) : first ∈ log := by
  rw [idxOf_lt_iff program] at done ⊢
  exact (ordered even).trans done

theorem head_idxOf (program : log ++ first :: todo = connectProcessGroup even) :
    (connectProcessGroup even).idxOf first = log.length := by
  have nodup := program_nodup even
  rw [← program] at nodup ⊢
  have absent : first ∉ log := by
    intro done
    exact (List.nodup_append.mp nodup).2.2 _ done _ (by simp) rfl
  rw [List.idxOf_append_of_notMem absent]
  simp

theorem head_absent (program : log ++ first :: todo = connectProcessGroup even) :
    first ∉ log := by
  intro done
  have nodup := program_nodup even
  rw [← program] at nodup
  exact (List.nodup_append.mp nodup).2.2 _ done _ (by simp) rfl

theorem before_head (program : log ++ second :: todo = connectProcessGroup even)
    (ordered : Ordered first second) : first ∈ log := by
  rw [idxOf_lt_iff program, ← head_idxOf program]
  exact ordered even

theorem after_head (program : log ++ first :: todo = connectProcessGroup even)
    (ordered : Ordered first second) : second ∉ log := by
  intro done
  exact head_absent program (mem_of_ordered program ordered done)

end Order

section Ring

variable {size rank : Nat}

theorem nextRank_lt (several : 2 ≤ size) (rank : Nat) : nextRank size rank < size :=
  Nat.mod_lt _ (by omega)

theorem previousRank_lt (several : 2 ≤ size) (rank : Nat) : previousRank size rank < size :=
  Nat.mod_lt _ (by omega)

theorem previousRank_eq (bound : rank < size) :
    previousRank size rank = if rank = 0 then size - 1 else rank - 1 := by
  unfold previousRank
  split
  · rename_i zero
    rw [zero, Nat.zero_add]
    exact Nat.mod_eq_of_lt (by omega)
  · rw [show rank + size - 1 = (rank - 1) + size by omega, Nat.add_mod_right]
    exact Nat.mod_eq_of_lt (by omega)

theorem nextRank_eq (bound : rank < size) :
    nextRank size rank = if rank + 1 = size then 0 else rank + 1 :=
  Rotation.next_eq bound

theorem nextRank_previousRank (bound : rank < size) :
    nextRank size (previousRank size rank) = rank := by
  have before : previousRank size rank < size := Nat.mod_lt _ (by omega)
  rw [nextRank_eq before, previousRank_eq bound]
  split <;> split <;> omega

theorem previousRank_nextRank (bound : rank < size) :
    previousRank size (nextRank size rank) = rank := by
  have after : nextRank size rank < size := Nat.mod_lt _ (by omega)
  rw [previousRank_eq after, nextRank_eq bound]
  split <;> split <;> omega

theorem nextRank_ne (several : 2 ≤ size) (bound : rank < size) : nextRank size rank ≠ rank := by
  rw [nextRank_eq bound]
  split <;> omega

theorem previousRank_ne (several : 2 ≤ size) (bound : rank < size) :
    previousRank size rank ≠ rank := by
  rw [previousRank_eq bound]
  split <;> omega

end Ring

end RingAllReduce.Bootstrap
