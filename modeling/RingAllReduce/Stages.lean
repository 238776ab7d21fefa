import RingAllReduce.Library.Exchange
import RingAllReduce.Tags

/-!
What a rank exchanges at every step of a collective. The steps are numbered through: stage
`stage` of `2 * (P - 1)` is a Reduce-Scatter step or, from stage `P - 1` on, an All-Gather step.
At every stage a rank passes on the block that started `stage` hops behind it, and receives the
block that started one hop further back.
-/

namespace RingAllReduce

open Exchange Rotation

def Instr.event : Instr → Option (Event Post)
  | .postRecv post => some (.postRecv post)
  | .postSend post => some (.postSend post)
  | .waitRecv post => some (.waitRecv post)
  | .waitSend post => some (.waitSend post)
  | _ => none

def events (code : List Instr) : List (Event Post) := code.filterMap Instr.event

@[simp] theorem events_nil : events [] = [] := rfl

@[simp] theorem events_append (left right : List Instr) :
    events (left ++ right) = events left ++ events right := List.filterMap_append

@[simp] theorem events_cons (instr : Instr) (rest : List Instr) :
    events (instr :: rest) = instr.event.toList ++ events rest := by
  cases event : instr.event <;> simp [events, event]

theorem events_flatMap {Index : Type} (indices : List Index) (code : Index → List Instr) :
    events (indices.flatMap code) = indices.flatMap fun index => events (code index) := by
  induction indices with
  | nil => rfl
  | cons index indices ih => simp [ih]

/-- The block a rank passes on at a stage. -/
def blockAt (worldSize rank stage : Nat) : Nat := (rank + (worldSize - stage % worldSize)) % worldSize

theorem blockAt_lt {worldSize : Nat} (positive : 0 < worldSize) (rank stage : Nat) :
    blockAt worldSize rank stage < worldSize := Nat.mod_lt _ positive

theorem hop_blockAt {worldSize rank : Nat} (bound : rank < worldSize) (stage : Nat) :
    hop worldSize (blockAt worldSize rank stage) stage = rank := by
  have small := Nat.mod_lt stage (show 0 < worldSize by omega)
  have whole := Nat.div_add_mod stage worldSize
  rw [hop, blockAt, Nat.mod_add_mod,
    show rank + (worldSize - stage % worldSize) + stage =
      rank + worldSize + worldSize * (stage / worldSize) by omega,
    Nat.add_mul_mod_self_left, Nat.add_mod_right, Nat.mod_eq_of_lt bound]

theorem blockAt_eq {worldSize rank block stage : Nat} (blockBound : block < worldSize)
    (reached : hop worldSize block stage = rank) : blockAt worldSize rank stage = block := by
  have positive : 0 < worldSize := by omega
  have bound : rank < worldSize := reached ▸ hop_lt positive _ _
  exact hop_injective (blockAt_lt positive rank stage) blockBound
    ((hop_blockAt bound stage).trans reached.symm)

theorem blockAt_next {worldSize rank : Nat} (bound : rank < worldSize) (stage : Nat) :
    blockAt worldSize (next worldSize rank) (stage + 1) = blockAt worldSize rank stage := by
  apply blockAt_eq (blockAt_lt (by omega) _ _)
  rw [← next_hop, hop_blockAt bound]

theorem positiveMod_eq {value : Int} {modulus rank stage : Nat} (bound : rank < modulus)
    (wraps : Nat) (same : value + stage = rank + wraps * modulus) :
    (positiveMod value modulus).toNat = blockAt modulus rank stage := by
  have positive : (0 : Int) < modulus := by omega
  have emod : positiveMod value modulus = value % modulus := by
    have sign := Int.tmod_eq_emod (a := value) (b := modulus)
    have nonneg := Int.emod_nonneg value (show (modulus : Int) ≠ 0 by omega)
    have less := Int.emod_lt_of_pos value positive
    simp only [positiveMod]
    split at sign <;> split <;> omega
  have nonneg := Int.emod_nonneg value (show (modulus : Int) ≠ 0 by omega)
  have less := Int.emod_lt_of_pos value positive
  symm
  apply blockAt_eq (by omega)
  have congruent : (((positiveMod value modulus).toNat + stage : Nat) : Int) % modulus =
      (rank : Int) % modulus := by
    rw [emod, Nat.cast_add, Int.toNat_of_nonneg nonneg, Int.emod_add_emod, same,
      Int.add_mul_emod_self_right]
  have casted : (((positiveMod value modulus).toNat + stage) % modulus : Nat) = rank % modulus := by
    exact_mod_cast congruent
  rw [hop, casted, Nat.mod_eq_of_lt bound]

theorem ownedBlock_eq (context : Context) :
    ownedBlock context = next context.worldSize context.rank := by
  unfold ownedBlock positiveMod
  rw [show (context.rank : Int) + 1 = ((context.rank + 1 : Nat) : Int) by push_cast; rfl,
    ← Int.ofNat_tmod]
  simp only [next]
  rw [if_neg (by omega)]

def stagePhase (worldSize stage : Nat) : CollectivePhase :=
  if stage < worldSize - 1 then .reduceScatter else .allGather

def stageStep (worldSize stage : Nat) : Nat :=
  if stage < worldSize - 1 then stage else stage - (worldSize - 1)

/-- A block to pass on lies in the work buffer. -/
def sentFlow (count worldSize block : Nat) : Flow :=
  { block := block, blockCount := blockCount count worldSize block, buffer := .workbuf,
    start := blockOffset count worldSize block }

def receivedFlow (count worldSize stage block : Nat) : Flow :=
  if stage < worldSize - 1 then
    { block := block, blockCount := blockCount count worldSize block, buffer := .temporary,
      start := 0 }
  else sentFlow count worldSize block

@[simp] theorem receivedFlow_block (count worldSize stage block : Nat) :
    (receivedFlow count worldSize stage block).block = block := by
  unfold receivedFlow
  split <;> rfl

@[simp] theorem receivedFlow_blockCount (count worldSize stage block : Nat) :
    (receivedFlow count worldSize stage block).blockCount = blockCount count worldSize block := by
  unfold receivedFlow
  split <;> rfl

/-- The body of the step loops, in one form for both phases. -/
def stageCode (context : Context) (count : Nat) (datatype : Datatype) (operation : Operation)
    (stage : Nat) : List Instr :=
  let elementSize := datatypeSize datatype
  let sendBlock := blockAt context.worldSize context.rank stage
  let recvBlock := blockAt context.worldSize context.rank (stage + 1)
  stepBody context (stagePhase context.worldSize stage) (stageStep context.worldSize stage)
    elementSize (pieceElementsFor context.config elementSize)
    (receivedFlow count context.worldSize stage recvBlock)
    (sentFlow count context.worldSize sendBlock) fun post =>
      if stage < context.worldSize - 1 then
        [.waitRecv post,
         .reduce (blockOffset count context.worldSize recvBlock + post.elementOffset)
           post.elementOffset post.elementCount datatype operation]
      else [.waitRecv post]

section Steps

variable {context : Context} (bound : context.rank < context.worldSize) {count : Nat}
  {layout : BlockLayout} (laid : computeBlockLayout count context.worldSize = .ok layout)

include laid in
theorem layout_get {block : Nat} (inside : block < context.worldSize) :
    layout.counts.getD block 0 = blockCount count context.worldSize block ∧
      layout.offsets.getD block 0 = blockOffset count context.worldSize block := by
  obtain ⟨found, foundEq, get⟩ := computeBlockLayout_get count (show 0 < context.worldSize by omega)
  obtain rfl : found = layout := by simpa [foundEq] using laid
  exact get block inside

include laid in
theorem flow_ofBlock {block : Nat} (inside : block < context.worldSize) :
    Flow.ofBlock layout block = sentFlow count context.worldSize block := by
  obtain ⟨counts, offsets⟩ := layout_get laid inside
  rw [Flow.ofBlock, sentFlow, counts, offsets]

include bound laid in
theorem reduceScatterStep_eq (datatype : Datatype) (operation : Operation) {step : Nat}
    (early : step < context.worldSize - 1) :
    reduceScatterStep context layout datatype operation step =
      stageCode context count datatype operation step := by
  have sends : (positiveMod (context.rank - step) context.worldSize).toNat =
      blockAt context.worldSize context.rank step :=
    positiveMod_eq bound 0 (by push_cast; omega)
  have recvs : (positiveMod (context.rank - step - 1) context.worldSize).toNat =
      blockAt context.worldSize context.rank (step + 1) :=
    positiveMod_eq bound 0 (by push_cast; omega)
  have positive : 0 < context.worldSize := by omega
  obtain ⟨counts, offsets⟩ := layout_get laid (blockAt_lt positive context.rank (step + 1))
  simp only [reduceScatterStep, stageCode, stagePhase, stageStep, receivedFlow, if_pos early, sends,
    recvs, flow_ofBlock laid (blockAt_lt positive _ _), counts, offsets]

include bound laid in
theorem allGatherStep_eq (datatype : Datatype) (operation : Operation) (step : Nat) :
    allGatherStep context layout datatype step =
      stageCode context count datatype operation (context.worldSize - 1 + step) := by
  have positive : 0 < context.worldSize := by omega
  have sends : (positiveMod (context.rank - step + 1) context.worldSize).toNat =
      blockAt context.worldSize context.rank (context.worldSize - 1 + step) :=
    positiveMod_eq bound 1 (by
      push_cast [Nat.cast_sub (show 1 ≤ context.worldSize from positive)]
      omega)
  have recvs : (positiveMod (context.rank - step) context.worldSize).toNat =
      blockAt context.worldSize context.rank (context.worldSize - 1 + step + 1) :=
    positiveMod_eq bound 1 (by
      push_cast [Nat.cast_sub (show 1 ≤ context.worldSize from positive)]
      omega)
  have late : ¬ context.worldSize - 1 + step < context.worldSize - 1 := by omega
  simp only [allGatherStep, stageCode, stagePhase, stageStep, receivedFlow, if_neg late, sends,
    recvs, flow_ofBlock laid (blockAt_lt positive _ _), Nat.add_sub_cancel_left]

end Steps

end RingAllReduce
