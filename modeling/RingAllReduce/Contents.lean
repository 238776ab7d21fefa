import RingAllReduce.Values

/-!
What the work buffer holds between the stages of a call, and that what a rank passes on at a stage
is what the block should carry there.
-/

namespace RingAllReduce

open Exchange Rotation

variable {Value : Type}

theorem stage_of_phase {worldSize stage : Nat} {piece : Piece}
    (phase : piece.phase = stagePhase worldSize stage)
    (step : piece.step = stageStep worldSize stage) : piece.stage worldSize = stage := by
  unfold Piece.stage
  rw [phase, step]
  unfold stagePhase stageStep
  by_cases early : stage < worldSize - 1
  · simp only [early, if_true]
  · simp only [early, if_false]
    omega

section Arrival

variable {setup : Setup Value} {args : Call Value} {rank : Nat}

theorem Setup.carried_saturated (setup : Setup Value) (args : Call Value) (block : Nat)
    {hops hops' : Nat} (late : setup.worldSize - 1 ≤ hops) (late' : setup.worldSize - 1 ≤ hops')
    (index : Nat) : setup.carried args block hops index = setup.carried args block hops' index := by
  simp only [carried, Nat.min_eq_right late, Nat.min_eq_right late']

theorem Setup.carried_succ {block stage : Nat} (reached : hop setup.worldSize block (stage + 1) = rank)
    (early : stage < setup.worldSize - 1) (kind : args.kind ≠ .allGather) (index : Nat) :
    setup.combine args (args.input rank index) (setup.carried args block stage index) =
      setup.carried args block (stage + 1) index := by
  rw [carried, carried, if_neg kind, if_neg kind, Nat.min_eq_left (by omega),
    Nat.min_eq_left (by omega), ringFold, reached]

def Call.inBlock (args : Call Value) (worldSize block index : Nat) : Prop :=
  blockOffset args.count worldSize block ≤ index ∧
    index < blockOffset args.count worldSize block + blockCount args.count worldSize block

instance (args : Call Value) (worldSize block index : Nat) :
    Decidable (args.inBlock worldSize block index) := inferInstanceAs (Decidable (_ ∧ _))

/-- The work buffer after the block of a stage has arrived. -/
def Setup.arrive (setup : Setup Value) (args : Call Value) (rank : Nat) (held : Nat → Value)
    (stage : Nat) : Nat → Value := fun index =>
  let block := blockAt setup.worldSize rank (stage + 1)
  if args.inBlock setup.worldSize block index then setup.carried args block (stage + 1) index
  else held index

def Setup.held (setup : Setup Value) (args : Call Value) (rank : Nat) (stages : List Nat) :
    Nat → Value := stages.foldl (setup.arrive args rank) (args.input rank)

theorem Setup.held_snoc (stages : List Nat) (stage : Nat) :
    setup.held args rank (stages ++ [stage]) =
      setup.arrive args rank (setup.held args rank stages) stage := by
  simp [held]

theorem Setup.held_fresh {stages : List Nat} {block index : Nat}
    (inside : args.inBlock setup.worldSize block index)
    (fresh : ∀ stage ∈ stages, blockAt setup.worldSize rank (stage + 1) ≠ block) :
    setup.held args rank stages index = args.input rank index := by
  induction stages using List.reverseRecOn with
  | nil => rfl
  | append_singleton stages stage ih =>
      have outside : ¬ args.inBlock setup.worldSize
          (blockAt setup.worldSize rank (stage + 1)) index := by
        intro arrived
        exact fresh stage (by simp) (blocks_disjoint _ _ arrived inside)
      rw [held_snoc, arrive, if_neg outside]
      exact ih fun other member => fresh other (by simp [member])

end Arrival

section Pieces

variable {setup : Setup Value} {args : Call Value} {rank call : Nat} {sequence : UInt32}
  {stage block piece pieceElements : Nat} {post : Post}

theorem zipWith_load (combine : Value → Value → Value) (memory : Memory Value)
    (destination source count : Nat) :
    List.zipWith combine (memory.load .workbuf destination count)
        (memory.load .temporary source count) =
      (List.range count).map fun index =>
        combine (memory .workbuf (destination + index)) (memory .temporary (source + index)) := by
  simp [Memory.load, List.zipWith_map]

theorem expectedStep_reduce (memory : Memory Value) (destination source count index : Nat)
    (typed : args.datatype.supported = true) :
    expectedStep setup rank memory (.reduce destination source count args.datatype args.operation)
        .workbuf index =
      if destination ≤ index ∧ index < destination + count then
        setup.combine args (memory .workbuf index)
          (memory .temporary (source + (index - destination)))
      else memory .workbuf index := by
  simp only [expectedStep, performLocal]
  by_cases empty : count = 0
  · rw [if_neg (by omega), empty]
    simp [reduceInPlace, Memory.load, Memory.store]
  by_cases known : args.operation.supported = true
  · rw [reduceInPlace_ok setup.element (by omega) typed known, zipWith_load]
    simp only [Memory.store_eq_ite, true_and, Setup.combine, typed, known, and_self, if_true]
    split
    · rename_i inside
      rw [show destination + (index - destination) = index by omega]
    · rfl
  · have unknown : args.operation.supported = false := by simpa using known
    rw [reduceInPlace_unknown setup.element (by omega) typed unknown]
    simp [Setup.combine, unknown]

theorem expectedMemory_piece (found : setup.calls[call]? = some args)
    (typed : args.datatype.supported = true)
    (made : postFor (setup.context rank sequence call) (stagePhase setup.worldSize stage)
      (stageStep setup.worldSize stage) (datatypeSize args.datatype) pieceElements
      (receivedFlow args.count setup.worldSize stage block) piece = .ok post)
    (memory : Memory Value) (index : Nat) :
    expectedMemory setup rank memory
        (if stage < setup.worldSize - 1 then
          [.waitRecv post, .reduce (blockOffset args.count setup.worldSize block +
            post.elementOffset) post.elementOffset post.elementCount args.datatype args.operation]
        else [.waitRecv post]) .workbuf index =
      if blockOffset args.count setup.worldSize block + piece * pieceElements ≤ index ∧
          index < blockOffset args.count setup.worldSize block + piece * pieceElements +
            min pieceElements
              (blockCount args.count setup.worldSize block - piece * pieceElements) then
        if stage < setup.worldSize - 1 then
          setup.combine args (memory .workbuf index) (setup.carried args block stage index)
        else setup.carried args block stage index
      else memory .workbuf index := by
  obtain ⟨tag, -, postEq⟩ := postFor_ok made
  have stageEq : post.toPiece.stage setup.worldSize = stage :=
    stage_of_phase (by rw [postEq]) (by rw [postEq])
  have payload : setup.payload post.toPiece = (List.range post.elementCount).map fun offset =>
      setup.carried args block stage
        (blockOffset args.count setup.worldSize block + piece * pieceElements + offset) := by
    unfold Setup.payload
    rw [stageEq, postEq]
    simp [Setup.context, found]
  by_cases early : stage < setup.worldSize - 1
  · have flow : receivedFlow args.count setup.worldSize stage block =
        { block := block, blockCount := blockCount args.count setup.worldSize block,
          buffer := .temporary, start := 0 } := if_pos early
    rw [if_pos early, if_pos early, expectedMemory_cons, expectedMemory_cons, expectedMemory_nil,
      expectedStep_reduce _ _ _ _ _ typed]
    simp only [expectedStep, payload, Memory.store_eq_ite]
    simp only [postEq, flow, reduceCtorEq, false_and, if_false, true_and]
    split
    · rename_i inside
      rw [if_pos (by omega), show blockOffset args.count setup.worldSize block +
        piece * pieceElements + (piece * pieceElements + (index - (blockOffset args.count
          setup.worldSize block + piece * pieceElements)) - (0 + piece * pieceElements)) =
        index by omega]
    · rfl
  · have flow : receivedFlow args.count setup.worldSize stage block =
        sentFlow args.count setup.worldSize block := if_neg early
    rw [if_neg early, if_neg early, expectedMemory_cons, expectedMemory_nil]
    simp only [expectedStep, payload, Memory.store_eq_ite]
    simp only [postEq, flow, sentFlow, true_and]
    split
    · rename_i inside
      rw [show blockOffset args.count setup.worldSize block + piece * pieceElements + (index -
        (blockOffset args.count setup.worldSize block + piece * pieceElements)) = index by omega]
    · rfl

end Pieces

section Stage

variable {setup : Setup Value} {args : Call Value} {rank call : Nat} {sequence : UInt32} {stage : Nat}

theorem stageCode_tagged (context : Context) (inflight : 0 < context.config.maxInflight) {count : Nat}
    {datatype : Datatype} {operation : Operation}
    (noError : ∀ status, .ret status ∈ stageCode context count datatype operation stage →
      status = .success) (piece : Nat)
    (bound : piece < pieceCountFor (blockCount count context.worldSize
        (blockAt context.worldSize context.rank (stage + 1)))
      (pieceElementsFor context.config (datatypeSize datatype))) :
    ∃ post, postFor context (stagePhase context.worldSize stage) (stageStep context.worldSize stage)
      (datatypeSize datatype) (pieceElementsFor context.config (datatypeSize datatype))
      (receivedFlow count context.worldSize stage
        (blockAt context.worldSize context.rank (stage + 1))) piece = .ok post := by
  generalize makeEq : postFor context (stagePhase context.worldSize stage)
    (stageStep context.worldSize stage) (datatypeSize datatype)
    (pieceElementsFor context.config (datatypeSize datatype))
    (receivedFlow count context.worldSize stage
      (blockAt context.worldSize context.rank (stage + 1))) = make
  cases made : make piece with
  | ok post => exact ⟨post, rfl⟩
  | error status =>
      exfalso
      rw [← receivedFlow_blockCount count context.worldSize stage] at bound
      have tried : .error status ∈ (List.range (pieceCountFor (receivedFlow count context.worldSize
          stage (blockAt context.worldSize context.rank (stage + 1))).blockCount
          (pieceElementsFor context.config (datatypeSize datatype)))).map make :=
        List.mem_map.mpr ⟨piece, List.mem_range.mpr bound, made⟩
      rw [← makeEq, ← flatMap_batchPosts inflight (Nat.le_max_right _ _)] at tried
      obtain ⟨batch, batchIn, failed⟩ := List.mem_flatMap.mp tried
      have returned := noError status (List.mem_flatMap.mpr ⟨batch, batchIn, by
        rw [batchBody]
        apply List.mem_append_left
        apply List.mem_append_left
        apply List.mem_append_left
        exact List.mem_map.mpr ⟨_, failed, rfl⟩⟩)
      have range := batchPosts_error failed
      rw [returned] at range
      simp at range

theorem expectedMemory_stage (found : setup.calls[call]? = some args)
    (typed : args.datatype.supported = true) (bound : rank < setup.worldSize)
    (noError : ∀ status, .ret status ∈ stageCode (setup.context rank sequence call) args.count
      args.datatype args.operation stage → status = .success)
    (scatters : stage < setup.worldSize - 1 → args.kind ≠ .allGather) {memory : Memory Value}
    (fresh : stage < setup.worldSize - 1 → ∀ index,
      args.inBlock setup.worldSize (blockAt setup.worldSize rank (stage + 1)) index →
        memory .workbuf index = args.input rank index) (index : Nat) :
    expectedMemory setup rank memory (stageCode (setup.context rank sequence call) args.count
        args.datatype args.operation stage) .workbuf index =
      setup.arrive args rank (memory .workbuf) stage index := by
  have inflight := (effectiveConfig_maxInflight (setup.config rank)).1
  have tagged := stageCode_tagged (setup.context rank sequence call) inflight noError
  have sizePos := pieceElementsFor_pos (effectiveConfig (setup.config rank))
    (datatypeSize args.datatype)
  have positive : 0 < setup.worldSize := setup.positive
  rw [stageCode, expectedMemory_stepBody _ _ _ inflight, flowPosts, posted_map,
    receivedFlow_blockCount]
  simp only [Setup.context] at tagged ⊢
  generalize blockEq : blockAt setup.worldSize rank (stage + 1) = block at fresh tagged ⊢
  generalize pieceElementsFor _ (datatypeSize args.datatype) = pieceElements at sizePos tagged ⊢
  -- after some pieces, the block has arrived up to their end
  have partially : ∀ pieces ≤ pieceCountFor (blockCount args.count setup.worldSize block)
      pieceElements, ∀ index,
      expectedMemory setup rank memory (((List.range pieces).filterMap fun piece =>
          (postFor (setup.context rank sequence call) (stagePhase setup.worldSize stage)
            (stageStep setup.worldSize stage) (datatypeSize args.datatype) pieceElements
            (receivedFlow args.count setup.worldSize stage block) piece).toOption).flatMap
        fun post => if stage < setup.worldSize - 1 then
          [.waitRecv post, .reduce (blockOffset args.count setup.worldSize block +
            post.elementOffset) post.elementOffset post.elementCount args.datatype args.operation]
        else [.waitRecv post]) .workbuf index =
      if blockOffset args.count setup.worldSize block ≤ index ∧
          index < blockOffset args.count setup.worldSize block +
            min (pieces * pieceElements) (blockCount args.count setup.worldSize block) then
        setup.carried args block (stage + 1) index
      else memory .workbuf index := by
    intro pieces
    induction pieces with
    | zero =>
        intro _ index
        rw [if_neg (by omega)]
        rfl
    | succ piece ih =>
        intro le index
        obtain ⟨post, made⟩ := tagged piece (by omega)
        have before := ih (by omega)
        have started : piece * pieceElements < blockCount args.count setup.worldSize block := by
          rw [← Tiling.lt_tiles_iff _ sizePos, ← pieceCountFor_eq sizePos]
          omega
        have value : ∀ index, blockOffset args.count setup.worldSize block +
              piece * pieceElements ≤ index → index < blockOffset args.count setup.worldSize block +
                blockCount args.count setup.worldSize block →
            (if stage < setup.worldSize - 1 then
              setup.combine args (memory .workbuf index) (setup.carried args block stage index)
            else setup.carried args block stage index) =
              setup.carried args block (stage + 1) index := by
          intro index lower upper
          split
          · rename_i early
            rw [fresh early index ⟨by omega, upper⟩]
            apply Setup.carried_succ _ early (scatters early)
            rw [← blockEq, hop_blockAt bound]
          · exact setup.carried_saturated _ _ (by omega) (by omega) _
        have option : (Except.ok post : Except Status Post).toOption = some post := rfl
        simp only [Setup.context] at made before
        rw [List.range_succ, List.filterMap_append, List.flatMap_append, expectedMemory_append]
        simp only [Setup.context, List.filterMap_cons, List.filterMap_nil, made, option,
          List.flatMap_singleton]
        rw [expectedMemory_piece found typed made, before index, Nat.succ_mul]
        split
        · rename_i inside
          have untouched : ¬(blockOffset args.count setup.worldSize block ≤ index ∧
              index < blockOffset args.count setup.worldSize block + min (piece * pieceElements)
                (blockCount args.count setup.worldSize block)) := by
            omega
          rw [if_neg untouched, value index inside.1 (by omega), if_pos (by omega)]
        · split
          · rw [if_pos (by omega)]
          · rw [if_neg (by omega)]
  refine (partially _ (Nat.le_refl _) index).trans ?_
  rw [Setup.arrive]
  simp only [blockEq, Call.inBlock]
  have covered := Tiling.le_tiles_mul (blockCount args.count setup.worldSize block) sizePos
  rw [pieceCountFor_eq sizePos, Nat.min_eq_right covered]

end Stage

end RingAllReduce
