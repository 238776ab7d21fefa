import RingAllReduce.Order

/-!
What a collective is for, and the memory of a rank that receives exactly what it should: the value
a block carries after each hop, the contents of a work buffer after each stage, and the effect of
the operations on them. No transport occurs here.
-/

namespace RingAllReduce

open Exchange Rotation

variable {Value : Type}

/-- A value that starts at `start`, goes round the ring and is combined with the input of every
rank it comes to. -/
def ringFold (combine : Value → Value → Value) (input : Nat → Value) (size start : Nat) :
    Nat → Value
  | 0 => input start
  | steps + 1 =>
      combine (input (hop size start (steps + 1))) (ringFold combine input size start steps)

def Call.input (call : Call Value) (rank index : Nat) : Value :=
  if call.kind = .allReduce ∧ call.inPlace rank = false then call.sendbuf rank index
  else call.workbuf rank index

/-- The statement of the reduction loop; an operation that is not supported leaves the
destination as it is. -/
def Setup.combine (setup : Setup Value) (call : Call Value) (destination source : Value) : Value :=
  if call.datatype.supported ∧ call.operation.supported then
    setup.element call.datatype call.operation destination source
  else destination

/-- The element `index` of a block as it stands after `hops` hops. -/
def Setup.carried (setup : Setup Value) (call : Call Value) (block hops index : Nat) : Value :=
  if call.kind = .allGather then
    call.input (hop setup.worldSize block (setup.worldSize - 1)) index
  else ringFold (setup.combine call) (call.input · index) setup.worldSize block
    (min hops (setup.worldSize - 1))

def Piece.stage (piece : Piece) (worldSize : Nat) : Nat :=
  match piece.phase with
  | .reduceScatter => piece.step
  | .allGather => worldSize - 1 + piece.step

def Setup.payload (setup : Setup Value) (piece : Piece) : List Value :=
  match setup.calls[piece.call]? with
  | some call => (List.range piece.elementCount).map fun index =>
      setup.carried call piece.block (piece.stage setup.worldSize)
        (blockOffset call.count setup.worldSize piece.block + piece.elementOffset + index)
  | none => []

/-- The effect of an operation on the memory of a rank that receives what it should. -/
def expectedStep (setup : Setup Value) (rank : Nat) (memory : Memory Value) (instr : Instr) :
    Memory Value :=
  match instr with
  | .waitRecv post => memory.store post.buffer post.start (setup.payload post.toPiece)
  | other => match performLocal setup rank memory other with
      | .ok memory => memory
      | .error _ => memory

/-- The memory after some operations of a rank that receives what it should. -/
def expectedMemory (setup : Setup Value) (rank : Nat) (memory : Memory Value) (done : List Instr) :
    Memory Value := done.foldl (expectedStep setup rank) memory

section Memory

variable (setup : Setup Value) (rank : Nat) (memory : Memory Value)

@[simp] theorem expectedMemory_nil : expectedMemory setup rank memory [] = memory := rfl

@[simp] theorem expectedMemory_cons (instr : Instr) (rest : List Instr) :
    expectedMemory setup rank memory (instr :: rest) =
      expectedMemory setup rank (expectedStep setup rank memory instr) rest := rfl

@[simp] theorem expectedMemory_append (left right : List Instr) :
    expectedMemory setup rank memory (left ++ right) =
      expectedMemory setup rank (expectedMemory setup rank memory left) right :=
  List.foldl_append

def Instr.silent : Instr → Bool
  | .postRecv _ | .postSend _ | .waitSend _ | .storeOwned _ | .advanceSequence | .ret _ => true
  | _ => false

theorem expectedStep_silent {instr : Instr} (silent : instr.silent = true) :
    expectedStep setup rank memory instr = memory := by
  cases instr <;> simp [Instr.silent] at silent <;> simp [expectedStep, performLocal]

theorem expectedMemory_silent {code : List Instr} (silent : ∀ instr ∈ code, instr.silent = true) :
    expectedMemory setup rank memory code = memory := by
  induction code with
  | nil => rfl
  | cons instr rest ih =>
      rw [expectedMemory_cons, expectedStep_silent _ _ _ (silent instr (by simp)),
        ih fun other member => silent other (by simp [member])]

theorem expectedMemory_stepBody {context : Context} {phase : CollectivePhase}
    {step elementSize pieceElements : Nat} (inflight : 0 < context.config.maxInflight)
    (recv send : Flow) (afterWait : Post → List Instr) :
    expectedMemory setup rank memory
        (stepBody context phase step elementSize pieceElements recv send afterWait) =
      expectedMemory setup rank memory
        ((flowPosts context phase step elementSize pieceElements recv).flatMap afterWait) := by
  have quiet : ∀ (make : Post → Instr) (posts : List (Except Status Post)),
      (∀ post, (make post).silent = true) → ∀ instr ∈ postAll make posts, instr.silent = true := by
    intro make posts silent instr member
    obtain ⟨made, -, rfl⟩ := List.mem_map.mp member
    cases made with
    | ok post => exact silent post
    | error status => rfl
  have batches : ∀ (indices : List Nat) (memory : Memory Value),
      expectedMemory setup rank memory (indices.flatMap
          (batchBody context phase step elementSize pieceElements recv send afterWait)) =
        expectedMemory setup rank memory (indices.flatMap fun index =>
          (posted (batchPosts context phase step elementSize pieceElements recv index)).flatMap
            afterWait) := by
    intro indices
    induction indices with
    | nil => simp
    | cons index indices ih =>
        intro memory
        rw [List.flatMap_cons, List.flatMap_cons, expectedMemory_append, expectedMemory_append, ih]
        congr 1
        rw [batchBody, expectedMemory_append, expectedMemory_append, expectedMemory_append]
        rw [expectedMemory_silent setup rank memory (quiet _ _ fun _ => rfl),
          expectedMemory_silent setup rank memory (quiet _ _ fun _ => rfl),
          expectedMemory_silent setup rank _ (by simp [Instr.silent])]
  rw [stepBody, batches, ← List.flatMap_assoc, ← posted_flatMap,
    flatMap_batchPosts inflight (Nat.le_max_right _ _)]
  rfl

end Memory

/-- Where an operation writes at most: the temporary buffer, and the given range of the work
buffer. -/
def Instr.writesIn (start count : Nat) : Instr → Prop
  | .waitRecv post => post.buffer = .temporary ∨
      post.buffer = .workbuf ∧ start ≤ post.start ∧ post.start + post.elementCount ≤ start + count
  | .reduce destination _ elements _ _ =>
      start ≤ destination ∧ destination + elements ≤ start + count
  | instr => instr.silent = true

theorem payload_length_le (setup : Setup Value) (piece : Piece) :
    (setup.payload piece).length ≤ piece.elementCount := by
  unfold Setup.payload
  split <;> simp

theorem reduceInPlace_length {element : Datatype → Operation → Value → Value → Value}
    {destination source reduced : List Value} {count : Nat} {datatype : Datatype}
    {operation : Operation}
    (done : reduceInPlace element destination source count datatype operation = .ok reduced) :
    reduced.length ≤ destination.length := by
  unfold reduceInPlace at done
  split at done
  · rw [← Except.ok.inj done]
  · cases datatype <;> cases operation <;>
      simp only [reduceTyped, Except.ok.injEq, reduceCtorEq] at done <;> rw [← done] <;>
      simp only [List.length_zipWith] <;> omega

theorem expectedStep_outside {setup : Setup Value} {rank start count : Nat} {memory : Memory Value}
    {instr : Instr} (within : instr.writesIn start count) {index : Nat}
    (outside : index < start ∨ start + count ≤ index) :
    expectedStep setup rank memory instr .workbuf index = memory .workbuf index := by
  cases instr with
  | waitRecv post =>
      apply Memory.store_outside
      have short := payload_length_le setup post.toPiece
      rcases within with temporary | ⟨-, lower, upper⟩
      · exact Or.inl (by simp [temporary])
      · right
        omega
  | reduce destination source elements datatype operation =>
      obtain ⟨lower, upper⟩ := within
      simp only [expectedStep, performLocal]
      cases done : reduceInPlace setup.element (memory.load .workbuf destination elements)
          (memory.load .temporary source elements) elements datatype operation with
      | error status => rfl
      | ok reduced =>
          have short := reduceInPlace_length done
          rw [Memory.load_length] at short
          apply Memory.store_outside
          right
          omega
  | load call => simp [Instr.writesIn, Instr.silent] at within
  | copyInput count => simp [Instr.writesIn, Instr.silent] at within
  | _ => rw [expectedStep_silent _ _ _ within]

theorem expectedMemory_spared (setup : Setup Value) (rank : Nat) {code : List Instr} {index : Nat}
    (spared : ∀ instr ∈ code, ∃ start count, instr.writesIn start count ∧
      (index < start ∨ start + count ≤ index)) (memory : Memory Value) :
    expectedMemory setup rank memory code .workbuf index = memory .workbuf index := by
  induction code generalizing memory with
  | nil => rfl
  | cons instr rest ih =>
      obtain ⟨start, count, within, outside⟩ := spared instr (by simp)
      rw [expectedMemory_cons, ih fun other member => spared other (by simp [member]),
        expectedStep_outside within outside]

theorem expectedMemory_outside (setup : Setup Value) (rank : Nat) {start count : Nat} {code : List Instr}
    (within : ∀ instr ∈ code, instr.writesIn start count) {index : Nat}
    (outside : index < start ∨ start + count ≤ index) (memory : Memory Value) :
    expectedMemory setup rank memory code .workbuf index = memory .workbuf index :=
  expectedMemory_spared setup rank (fun instr member => ⟨start, count, within instr member, outside⟩)
    memory

end RingAllReduce
