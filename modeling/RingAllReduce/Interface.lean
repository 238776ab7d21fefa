import Mathlib.Data.List.Basic

/-! The types of `pg_transport.h` and `ring_collectives.h` that both modules exchange. -/

namespace RingAllReduce

inductive Status where
  | success
  | invalidArgument
  | noMemory
  | transport
  | unsupportedDatatype
  | unsupportedOperation
  | tagRange
  deriving DecidableEq, Repr

/-- `DATATYPE`. A C caller can pass a code that names no enumerator. -/
inductive Datatype where
  | int32
  | float32
  | float64
  | other (code : Int)
  deriving DecidableEq, Repr

/-- `OPERATION`. A C caller can pass a code that names no enumerator. -/
inductive Operation where
  | sum
  | min
  | max
  | other (code : Int)
  deriving DecidableEq, Repr

/-- `pg_transfer_mode_t`. -/
inductive TransferMode where
  | auto
  | eager
  | rendezvous
  | other (code : Int)
  deriving DecidableEq, Repr

structure Config where
  pipelinePieceBytes : Nat
  maxInflight : Nat
  transferMode : TransferMode
  deriving DecidableEq, Repr

inductive CollectivePhase where
  | reduceScatter
  | allGather
  deriving DecidableEq, Repr

def CollectivePhase.code : CollectivePhase → UInt32
  | .reduceScatter => 0
  | .allGather => 1

/-- The memory a rank's collective works on: the caller's `recvbuf` (`workbuf` inside the phases),
its `sendbuf`, and the context's `temporary_buffer`. -/
inductive Buffer where
  | workbuf
  | sendbuf
  | temporary
  deriving DecidableEq, Repr

/-- One piece of a block on its way over a link. `call` numbers the collectives of a run and is
read by no code; it tells pieces with the same 32-bit tag apart. -/
structure Piece where
  call : Nat
  phase : CollectivePhase
  step : Nat
  block : Nat
  pieceIndex : Nat
  elementOffset : Nat
  elementCount : Nat
  bytes : Nat
  tag : UInt32
  deriving DecidableEq, Repr

/-- A `PostedRequest` with the arguments it is posted with: `start` is the first element of
`buffer` the piece is read from or written to. -/
structure Post extends Piece where
  mode : TransferMode
  buffer : Buffer
  start : Nat
  deriving DecidableEq, Repr

def Memory (Value : Type) : Type := Buffer → Nat → Value

namespace Memory

variable {Value : Type}

/-- `count` elements of a buffer from `start` on. -/
def load (memory : Memory Value) (buffer : Buffer) (start count : Nat) : List Value :=
  (List.range count).map fun index => memory buffer (start + index)

/-- `memcpy` of a payload to `start`. -/
def store (memory : Memory Value) (buffer : Buffer) (start : Nat) (payload : List Value) :
    Memory Value := fun target index =>
  if target = buffer ∧ start ≤ index then (payload[index - start]?).getD (memory target index)
  else memory target index

@[simp] theorem load_length (memory : Memory Value) (buffer : Buffer) (start count : Nat) :
    (memory.load buffer start count).length = count := by
  simp [load]

theorem load_getElem? (memory : Memory Value) (buffer : Buffer) (start count index : Nat) :
    (memory.load buffer start count)[index]? =
      if index < count then some (memory buffer (start + index)) else none := by
  by_cases bound : index < count <;> simp [load, bound]

theorem load_congr {first second : Memory Value} {buffer : Buffer} {start count : Nat}
    (same : ∀ index < count, first buffer (start + index) = second buffer (start + index)) :
    first.load buffer start count = second.load buffer start count := by
  apply List.map_congr_left
  intro index member
  exact same index (List.mem_range.mp member)

theorem store_inside (memory : Memory Value) (buffer : Buffer) (start : Nat)
    (payload : List Value) {index : Nat} {value : Value} (found : payload[index]? = some value) :
    memory.store buffer start payload buffer (start + index) = value := by
  simp [store, found]

theorem store_outside (memory : Memory Value) {buffer target : Buffer} {start index : Nat}
    {payload : List Value}
    (outside : target ≠ buffer ∨ index < start ∨ start + payload.length ≤ index) :
    memory.store buffer start payload target index = memory target index := by
  unfold store
  split
  · rename_i inside
    have beyond : payload.length ≤ index - start := by
      rcases outside with different | before | after
      · exact absurd inside.1 different
      · omega
      · omega
    simp [List.getElem?_eq_none beyond]
  · rfl

theorem store_eq_ite (memory : Memory Value) (buffer : Buffer) (start : Nat)
    (content : Nat → Value) (count : Nat) (target : Buffer) (index : Nat) :
    memory.store buffer start ((List.range count).map content) target index =
      if target = buffer ∧ start ≤ index ∧ index < start + count then content (index - start)
      else memory target index := by
  by_cases inside : target = buffer ∧ start ≤ index ∧ index < start + count
  · obtain ⟨rfl, lower, upper⟩ := inside
    have found : ((List.range count).map content)[index - start]? =
        some (content (index - start)) := by
      simp [show index - start < count by omega]
    simp [store, lower, upper, found]
  · rw [if_neg inside]
    apply store_outside
    by_cases different : target = buffer
    · right
      simp only [different, true_and, not_and, Nat.not_lt] at inside
      simp only [List.length_map, List.length_range]
      omega
    · exact Or.inl different

end Memory

end RingAllReduce
