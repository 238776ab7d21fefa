import Mathlib.Data.List.Perm.Subperm
import RingAllReduce.CallEvents

/-! What one call moves over a link: which pieces both ends post, and which elements they carry. -/

namespace RingAllReduce

open Exchange Rotation

variable {Value Net Request : Type} {setup : Setup Value} {rank : Nat}

theorem OnSchedule.call_made {state : RankState Request} (onSchedule : OnSchedule setup rank state)
    {call : Nat} (returned : state.Returned call .success) :
    ∃ args, setup.calls[call]? = some args :=
  ⟨_, List.getElem?_eq_getElem (onSchedule.log_returned returned).1⟩

theorem Setup.sentAt_eq_expectedAt (bound : rank < setup.worldSize)
    (same : (effectiveConfig (setup.config rank)).pipelinePieceBytes =
      (effectiveConfig (setup.config (next setup.worldSize rank))).pipelinePieceBytes)
    (place : Nat × Nat) :
    setup.sentAt rank place = setup.expectedAt (next setup.worldSize rank) place := by
  obtain ⟨call, stage⟩ := place
  rw [setup.sentAt_eq, setup.expectedAt_eq, blockAt_next bound]
  cases setup.calls[call]? with
  | none => rfl
  | some args => simp only [Setup.pieceElements, pieceElementsFor, same]

def sentDuring (call : Nat) (log : List Instr) : List Piece :=
  (sendPosts (events (operationsOf call log))).map Post.toPiece

def expectedDuring (call : Nat) (log : List Instr) : List Piece :=
  (recvPosts (events (operationsOf call log))).map Post.toPiece

section During

variable {state : RankState Request} {call : Nat} {args : Call Value}

theorem sends_of_stages (found : setup.calls[call]? = some args) (stages : List Nat) :
    (allSends (stages.flatMap (stageBatches (setup.context rank (setup.sequenceAt call) call)
      args.count args.datatype))).map Post.toPiece =
        stages.flatMap fun stage => setup.sentAt rank (call, stage) := by
  rw [allSends, List.flatMap_assoc, List.map_flatMap]
  apply List.flatMap_congr
  intro stage _
  simp only [Setup.sentAt, Setup.batchesAt, found]
  rfl

theorem recvs_of_stages (found : setup.calls[call]? = some args) (stages : List Nat) :
    (allRecvs (stages.flatMap (stageBatches (setup.context rank (setup.sequenceAt call) call)
      args.count args.datatype))).map Post.toPiece =
        stages.flatMap fun stage => setup.expectedAt rank (call, stage) := by
  rw [allRecvs, List.flatMap_assoc, List.map_flatMap]
  apply List.flatMap_congr
  intro stage _
  simp only [Setup.expectedAt, Setup.batchesAt, found]
  rfl

variable (onSchedule : OnSchedule setup rank state) (bound : rank < setup.worldSize)
  (found : setup.calls[call]? = some args) (returned : state.Returned call .success)

include onSchedule bound found returned

theorem OnSchedule.sentDuring_eq : sentDuring call state.log =
    (args.kind.stages setup.worldSize).flatMap fun stage => setup.sentAt rank (call, stage) := by
  rw [sentDuring, (onSchedule.events_operations bound found returned).2, sendPosts_run,
    sends_of_stages found]

theorem OnSchedule.expectedDuring_eq : expectedDuring call state.log =
    (args.kind.stages setup.worldSize).flatMap fun stage => setup.expectedAt rank (call, stage) := by
  rw [expectedDuring, (onSchedule.events_operations bound found returned).2, recvPosts_run,
    recvs_of_stages found]

theorem OnSchedule.posts_eq :
    (sendPosts (events state.log)).map Post.toPiece =
        (setup.stagesUpTo (call + 1)).flatMap (setup.sentAt rank) ∧
      (recvPosts (events state.log)).map Post.toPiece =
        (setup.stagesUpTo (call + 1)).flatMap (setup.expectedAt rank) := by
  obtain ⟨-, -, log⟩ := onSchedule.operations found returned
  have noError := onSchedule.noError
  rw [log] at noError
  rw [log, events_codeUpTo bound (List.getElem?_eq_some_iff.mp found).1 noError, sendPosts_run,
    recvPosts_run, Setup.planUpTo, allSends, allRecvs, List.flatMap_assoc, List.flatMap_assoc,
    List.map_flatMap, List.map_flatMap]
  exact ⟨rfl, rfl⟩

end During

/-- Both ends of a link follow the same schedule: over a successful All-Reduce a rank sends, one by
one and in order, the pieces its successor posts receives for, and so over all calls up to it. -/
theorem link_schedules_agree {transport : Transport Value Net Request} {net : Net}
    {world later : World Value Net Request} (reachable : Reachable setup transport net world)
    (reachable' : Reachable setup transport net later) (bound : rank < setup.worldSize)
    (same : (effectiveConfig (setup.config rank)).pipelinePieceBytes =
      (effectiveConfig (setup.config (next setup.worldSize rank))).pipelinePieceBytes)
    {call : Nat} (returned : (world.rank rank).Returned call .success)
    (returned' : (later.rank (next setup.worldSize rank)).Returned call .success) :
    sentDuring call (world.rank rank).log =
        expectedDuring call (later.rank (next setup.worldSize rank)).log ∧
      (sendPosts (events (world.rank rank).log)).map Post.toPiece =
        (recvPosts (events (later.rank (next setup.worldSize rank)).log)).map Post.toPiece := by
  have onSchedule := onSchedule_of_reachable reachable rank
  have onSchedule' := onSchedule_of_reachable reachable' (next setup.worldSize rank)
  have bound' := next_lt setup.positive rank
  obtain ⟨args, found⟩ := onSchedule.call_made returned
  have stages := setup.sentAt_eq_expectedAt bound same
  constructor
  · rw [onSchedule.sentDuring_eq bound found returned,
      onSchedule'.expectedDuring_eq bound' found returned']
    exact List.flatMap_congr fun stage _ => stages (call, stage)
  · rw [(onSchedule.posts_eq bound found returned).1,
      (onSchedule'.posts_eq bound' found returned').2]
    exact List.flatMap_congr fun place _ => stages place

theorem link_schedules_agree_pair : ∃ world, MockReachable (pairSetup 1) world ∧
    (world.rank 0).Returned 0 .success ∧
      sentDuring 0 (world.rank 0).log = expectedDuring 0 (world.rank 1).log := by
  obtain ⟨world, reachable, returned, returned'⟩ := pair_run
  have agree := link_schedules_agree reachable reachable (show 0 < (pairSetup 1).worldSize by decide)
    rfl returned returned'
  exact ⟨world, reachable, returned, agree.1⟩

/-- An element of a block on its way in a phase. -/
structure Element where
  phase : CollectivePhase
  block : Nat
  index : Nat
  deriving DecidableEq, Repr

def Piece.elements (piece : Piece) : List Element :=
  (List.range' piece.elementOffset piece.elementCount).map fun index =>
    { phase := piece.phase, block := piece.block, index := index }

/-- The pieces of a block whose tags are in range carry each of its elements once. -/
theorem flowPieces_elements {call : Nat} {sequence : UInt32} {phase : CollectivePhase}
    {step elementSize block blockCount pieceElements : Nat} (positive : 0 < pieceElements)
    (tagged : ∀ piece < pieceCountFor blockCount pieceElements,
      ∃ tag, makeTag sequence phase step piece = .ok tag) :
    (flowPieces call sequence phase step elementSize block blockCount pieceElements).flatMap
        Piece.elements =
      (List.range blockCount).map fun index => ⟨phase, block, index⟩ := by
  have turns := Tiling.flatMap_batches (pieceCountFor blockCount pieceElements) pieceElements
    blockCount
  have covered := Tiling.le_tiles_mul blockCount positive
  rw [← pieceCountFor_eq positive] at covered
  rw [Nat.min_eq_right covered] at turns
  rw [← turns, List.map_flatMap, flowPieces,
    List.filterMap_eq_flatMap_toList, List.flatMap_assoc]
  apply List.flatMap_congr
  intro piece member
  obtain ⟨tag, made⟩ := tagged piece (List.mem_range.mp member)
  simp only [pieceFor, made, Except.toOption, Option.map_some, Option.toList_some,
    List.flatMap_singleton, Piece.elements]
  congr 2
  omega

theorem blockAt_perm (bound : rank < setup.worldSize) (first : Nat) :
    ((List.range setup.worldSize).map fun step =>
      blockAt setup.worldSize rank (first + step)).Perm (List.range setup.worldSize) := by
  apply List.Subperm.perm_of_length_le
  · apply List.Nodup.subperm
    · rw [List.nodup_map_iff_inj_on List.nodup_range]
      intro step stepIn step' stepIn' same
      rw [List.mem_range] at stepIn stepIn'
      have congruent : first + step ≡ first + step' [MOD setup.worldSize] :=
        blockAt_injective bound same
      exact Nat.ModEq.eq_of_lt_of_lt (Nat.ModEq.add_left_cancel' first congruent) stepIn stepIn'
    · intro block member
      obtain ⟨step, -, rfl⟩ := List.mem_map.mp member
      exact List.mem_range.mpr (blockAt_lt setup.positive _ _)
  · simp

theorem sum_blockCount (count worldSize blocks : Nat) :
    ((List.range blocks).map (blockCount count worldSize)).sum =
      blockOffset count worldSize blocks := by
  induction blocks with
  | zero => simp
  | succ blocks ih => simp [List.range_succ, ih, blockOffset_succ]

/-- All stages of a phase but its last turn round the ring move the array but one block. -/
theorem sum_stages (bound : rank < setup.worldSize) (count first : Nat) :
    ((List.range (setup.worldSize - 1)).map fun step =>
        blockCount count setup.worldSize (blockAt setup.worldSize rank (first + step))).sum +
      blockCount count setup.worldSize
        (blockAt setup.worldSize rank (first + (setup.worldSize - 1))) = count := by
  have permuted := ((blockAt_perm bound first).map (blockCount count setup.worldSize)).sum_nat
  rw [sum_blockCount, blockOffset_end count setup.positive, List.map_map] at permuted
  have last : List.range setup.worldSize =
      List.range (setup.worldSize - 1) ++ [setup.worldSize - 1] := by
    rw [← List.range_succ, Nat.succ_eq_add_one, Nat.sub_add_cancel setup.positive]
  rw [last, List.map_append, List.sum_append] at permuted
  simpa [Function.comp_def] using permuted

theorem stage_tagged {context : Context} {count stage : Nat} {datatype : Datatype}
    {operation : Operation} (inflight : 0 < context.config.maxInflight)
    (noError : ∀ status, .ret status ∈ stageCode context count datatype operation stage →
      status = .success) {flow : Flow}
    (isFlow : flow = receivedFlow count context.worldSize stage
        (blockAt context.worldSize context.rank (stage + 1)) ∨
      flow = sentFlow count context.worldSize (blockAt context.worldSize context.rank stage)) :
    ∀ piece < pieceCountFor flow.blockCount
        (pieceElementsFor context.config (datatypeSize datatype)),
      ∃ tag, makeTag context.sequence (stagePhase context.worldSize stage)
        (stageStep context.worldSize stage) piece = .ok tag := by
  intro piece inside
  cases made : postFor context (stagePhase context.worldSize stage)
      (stageStep context.worldSize stage) (datatypeSize datatype)
      (pieceElementsFor context.config (datatypeSize datatype)) flow piece with
  | ok post =>
      obtain ⟨tag, tagMade, -⟩ := postFor_ok made
      exact ⟨tag, tagMade⟩
  | error status =>
      have returns := noError status (ret_mem_stepBody inflight isFlow inside made)
      unfold postFor at made
      split at made
      · rename_i error failed
        rw [← Except.error.inj made, makeTag_error failed] at returns
        simp at returns
      · simp at made

section Elements

variable {call : Nat} {args : Call Value} (found : setup.calls[call]? = some args)
  (bound : rank < setup.worldSize)
  (noError : ∀ status,
    .ret status ∈ callCode (setup.context rank (setup.sequenceAt call) call) args → status = .success)

include bound noError in
theorem stage_noError {stage : Nat} (member : stage ∈ args.kind.stages setup.worldSize) :
    ∀ status, .ret status ∈ stageCode (setup.context rank (setup.sequenceAt call) call) args.count
      args.datatype args.operation stage → status = .success := by
  obtain ⟨before, after, -, codeEq, -⟩ := callCode_at_stage
    (setup.context rank (setup.sequenceAt call) call) bound (accepted_of_noError noError) member
  intro status inStage
  apply noError
  rw [codeEq]
  exact List.mem_append_right _ (List.mem_append_left _ inStage)

include found bound noError in
/-- A stage of a successful call moves every element of its block once, at both ends. -/
theorem stage_elements {stage : Nat} (member : stage ∈ args.kind.stages setup.worldSize) :
    (setup.sentAt rank (call, stage)).flatMap Piece.elements =
        (List.range (blockCount args.count setup.worldSize (blockAt setup.worldSize rank stage))).map
          (fun index => ⟨stagePhase setup.worldSize stage, blockAt setup.worldSize rank stage, index⟩) ∧
      (setup.expectedAt rank (call, stage)).flatMap Piece.elements =
        (List.range (blockCount args.count setup.worldSize
            (blockAt setup.worldSize rank (stage + 1)))).map
          (fun index => ⟨stagePhase setup.worldSize stage,
            blockAt setup.worldSize rank (stage + 1), index⟩) := by
  have clean := stage_noError bound noError member
  have inflight := (effectiveConfig_maxInflight (setup.config rank)).1
  have sends := stage_tagged inflight clean (Or.inr rfl)
  have recvs := stage_tagged inflight clean (Or.inl rfl)
  rw [receivedFlow_blockCount] at recvs
  rw [setup.sentAt_eq, setup.expectedAt_eq, found]
  exact ⟨flowPieces_elements (pieceElementsFor_pos _ _) sends,
    flowPieces_elements (pieceElementsFor_pos _ _) recvs⟩

end Elements

theorem blockAt_of_add (bound : rank < setup.worldSize) {stage ahead : Nat} (wraps : Nat)
    (around : stage + ahead = wraps * setup.worldSize) :
    blockAt setup.worldSize rank stage = (rank + ahead) % setup.worldSize := by
  apply blockAt_eq (Nat.mod_lt _ setup.positive)
  rw [hop, Nat.mod_add_mod, show rank + ahead + stage = rank + wraps * setup.worldSize by omega,
    Nat.add_mul_mod_self_right, Nat.mod_eq_of_lt bound]

/-- The stages of a phase pass on all blocks but the one that would come next. -/
theorem exists_stage_iff (bound : rank < setup.worldSize) (first : Nat) {block : Nat} :
    (∃ step < setup.worldSize - 1, blockAt setup.worldSize rank (first + step) = block) ↔
      block < setup.worldSize ∧
        block ≠ blockAt setup.worldSize rank (first + (setup.worldSize - 1)) := by
  constructor
  · rintro ⟨step, less, rfl⟩
    refine ⟨blockAt_lt setup.positive _ _, ?_⟩
    intro same
    have congruent : first + step ≡ first + (setup.worldSize - 1) [MOD setup.worldSize] :=
      blockAt_injective bound same
    have equal := Nat.ModEq.eq_of_lt_of_lt (Nat.ModEq.add_left_cancel' first congruent) (by omega)
      (by omega)
    omega
  · rintro ⟨blockBound, different⟩
    have member := (blockAt_perm bound first).mem_iff.mpr (List.mem_range.mpr blockBound)
    obtain ⟨step, stepIn, rfl⟩ := List.mem_map.mp member
    rw [List.mem_range] at stepIn
    refine ⟨step, ?_, rfl⟩
    by_contra last
    exact different (by rw [show step = setup.worldSize - 1 by omega])

/-- The elements that the stages of an All-Reduce move, where stage `stage` moves the block that
`shift` stages later would be passed on. -/
def movedElements (setup : Setup Value) (rank count shift : Nat) : List Element :=
  (Kind.allReduce.stages setup.worldSize).flatMap fun stage =>
    (List.range (blockCount count setup.worldSize
      (blockAt setup.worldSize rank (stage + shift)))).map fun index =>
        ⟨stagePhase setup.worldSize stage, blockAt setup.worldSize rank (stage + shift), index⟩

theorem movedElements_nodup (bound : rank < setup.worldSize) (count shift : Nat) :
    (movedElements setup rank count shift).Nodup := by
  rw [movedElements, List.nodup_flatMap]
  constructor
  · intro stage _
    rw [List.nodup_map_iff_inj_on List.nodup_range]
    intro first _ second _ same
    simpa using same
  · apply (Kind.stages_sorted .allReduce setup.worldSize).imp_of_mem
    intro first second firstIn secondIn less element inFirst inSecond
    obtain ⟨index, -, rfl⟩ := List.mem_map.mp inFirst
    obtain ⟨index', -, same⟩ := List.mem_map.mp inSecond
    simp only [Element.mk.injEq] at same
    have congruent : second + shift ≡ first + shift [MOD setup.worldSize] :=
      blockAt_injective bound same.2.1
    have equal := Nat.ModEq.add_right_cancel' shift congruent
    have firstBound := Kind.mem_stages firstIn
    have secondBound := Kind.mem_stages secondIn
    have phases := same.1
    unfold stagePhase at phases
    obtain ⟨wraps, wrapsEq⟩ := (Nat.modEq_iff_dvd' (Nat.le_of_lt less)).mp equal.symm
    rcases Nat.eq_zero_or_pos wraps with rfl | positive
    · omega
    · have large : setup.worldSize ≤ setup.worldSize * wraps := Nat.le_mul_of_pos_right _ positive
      split at phases <;> split at phases <;> first | omega | simp at phases

theorem mem_movedElements (bound : rank < setup.worldSize) {count shift : Nat} {element : Element} :
    element ∈ movedElements setup rank count shift ↔ element.block < setup.worldSize ∧
      element.index < blockCount count setup.worldSize element.block ∧ match element.phase with
        | .reduceScatter => element.block ≠
            blockAt setup.worldSize rank (shift + (setup.worldSize - 1))
        | .allGather => element.block ≠
            blockAt setup.worldSize rank (setup.worldSize - 1 + shift + (setup.worldSize - 1)) := by
  obtain ⟨phase, block, index⟩ := element
  simp only [movedElements, Kind.stages, Kind.scatterStages, Kind.gatherStages, reduceCtorEq, if_false,
    List.mem_flatMap, List.mem_append, List.mem_map, List.mem_range, Element.mk.injEq]
  cases phase with
  | reduceScatter =>
      have reached := @exists_stage_iff _ _ _ bound shift block
      constructor
      · rintro ⟨stage, early | ⟨step, less, rfl⟩, index', inside, phaseEq, rfl, rfl⟩
        · have apart := reached.mp ⟨stage, early, by rw [Nat.add_comm]⟩
          exact ⟨apart.1, inside, apart.2⟩
        · simp [stagePhase] at phaseEq
      · rintro ⟨blockBound, inside, different⟩
        obtain ⟨step, less, rfl⟩ := reached.mpr ⟨blockBound, different⟩
        exact ⟨step, Or.inl less, index, by rwa [Nat.add_comm], by simp [stagePhase, less],
          by rw [Nat.add_comm], rfl⟩
  | allGather =>
      have reached := @exists_stage_iff _ _ _ bound (setup.worldSize - 1 + shift) block
      constructor
      · rintro ⟨stage, early | ⟨step, less, rfl⟩, index', inside, phaseEq, rfl, rfl⟩
        · simp [stagePhase, early] at phaseEq
        · have apart := reached.mp ⟨step, less, by congr 1; omega⟩
          exact ⟨apart.1, inside, apart.2⟩
      · rintro ⟨blockBound, inside, different⟩
        obtain ⟨step, less, rfl⟩ := reached.mpr ⟨blockBound, different⟩
        have placed : setup.worldSize - 1 + shift + step = setup.worldSize - 1 + step + shift := by
          omega
        exact ⟨setup.worldSize - 1 + step, Or.inr ⟨step, less, rfl⟩, index, by rwa [← placed],
          by simp [stagePhase], by rw [placed], rfl⟩

theorem movedElements_length (bound : rank < setup.worldSize) (count : Nat) :
    (movedElements setup rank count 0).length +
        blockCount count setup.worldSize ((rank + 1) % setup.worldSize) +
        blockCount count setup.worldSize ((rank + 2) % setup.worldSize) = 2 * count := by
  have scatter := sum_stages bound count 0
  have gather := sum_stages bound count (setup.worldSize - 1)
  have positive := setup.positive
  rw [Nat.zero_add, blockAt_of_add bound 1 (show setup.worldSize - 1 + 1 = _ by omega)] at scatter
  rw [blockAt_of_add bound 2 (show setup.worldSize - 1 + (setup.worldSize - 1) + 2 = _ by omega)]
    at gather
  simp only [movedElements, Kind.stages, Kind.scatterStages, Kind.gatherStages, reduceCtorEq, if_false,
    List.length_flatMap, List.length_map, List.length_range, List.map_append, List.sum_append,
    List.map_map, Function.comp_def, Nat.add_zero]
  simp only [Nat.zero_add] at scatter
  omega

theorem mem_flowPieces {call : Nat} {sequence : UInt32} {phase : CollectivePhase}
    {step elementSize block blockCount pieceElements : Nat} {piece : Piece}
    (member : piece ∈ flowPieces call sequence phase step elementSize block blockCount pieceElements) :
    piece.phase = phase ∧ piece.step = step ∧ piece.block = block := by
  obtain ⟨turn, -, made⟩ := List.mem_filterMap.mp member
  obtain ⟨tag, -, rfl⟩ := Option.map_eq_some_iff.mp made
  exact ⟨rfl, rfl, rfl⟩

theorem sentAt_fields {call stage : Nat} {args : Call Value} (found : setup.calls[call]? = some args)
    {piece : Piece} (member : piece ∈ setup.sentAt rank (call, stage)) :
    piece.stage setup.worldSize = stage ∧ piece.block = blockAt setup.worldSize rank stage := by
  rw [setup.sentAt_eq, found] at member
  obtain ⟨phase, step, block⟩ := mem_flowPieces member
  exact ⟨stage_of_phase phase step, block⟩

theorem expectedAt_fields {call stage : Nat} {args : Call Value}
    (found : setup.calls[call]? = some args) {piece : Piece}
    (member : piece ∈ setup.expectedAt rank (call, stage)) :
    piece.stage setup.worldSize = stage ∧ piece.block = blockAt setup.worldSize rank (stage + 1) := by
  rw [setup.expectedAt_eq, found] at member
  obtain ⟨phase, step, block⟩ := mem_flowPieces member
  exact ⟨stage_of_phase phase step, block⟩

/-- Over a successful All-Reduce a rank sends every element of all blocks but one in each phase,
once, out of its place in the work buffer; it receives every element of all blocks but one; and it
passes on at a step the block it received at the step before. -/
theorem link_traffic {transport : Transport Value Net Request} {net : Net}
    {world : World Value Net Request} (reachable : Reachable setup transport net world)
    (bound : rank < setup.worldSize) {call : Nat} {args : Call Value}
    (found : setup.calls[call]? = some args) (kind : args.kind = .allReduce)
    (returned : (world.rank rank).Returned call .success) :
    ∃ layout, computeBlockLayout args.count setup.worldSize = .ok layout ∧
      ((sentDuring call (world.rank rank).log).flatMap Piece.elements).Nodup ∧
      (∀ element, element ∈ (sentDuring call (world.rank rank).log).flatMap Piece.elements ↔
        element.block < setup.worldSize ∧ element.index < layout.counts.getD element.block 0 ∧
          match element.phase with
          | .reduceScatter => element.block ≠ (rank + 1) % setup.worldSize
          | .allGather => element.block ≠ (rank + 2) % setup.worldSize) ∧
      ((sentDuring call (world.rank rank).log).map Piece.elementCount).sum +
        layout.counts.getD ((rank + 1) % setup.worldSize) 0 +
        layout.counts.getD ((rank + 2) % setup.worldSize) 0 = 2 * args.count ∧
      ((expectedDuring call (world.rank rank).log).flatMap Piece.elements).Nodup ∧
      (∀ element, element ∈ (expectedDuring call (world.rank rank).log).flatMap Piece.elements ↔
        element.block < setup.worldSize ∧ element.index < layout.counts.getD element.block 0 ∧
          match element.phase with
          | .reduceScatter => element.block ≠ rank
          | .allGather => element.block ≠ (rank + 1) % setup.worldSize) ∧
      (∀ piece ∈ sentDuring call (world.rank rank).log,
        ∀ earlier ∈ expectedDuring call (world.rank rank).log, piece.phase = earlier.phase →
          piece.step = earlier.step + 1 → piece.block = earlier.block) ∧
      ∀ post ∈ sendPosts (events (operationsOf call (world.rank rank).log)),
        post.buffer = .workbuf ∧
          post.start = layout.offsets.getD post.block 0 + post.elementOffset := by
  have onSchedule := onSchedule_of_reachable reachable rank
  have positive := setup.positive
  obtain ⟨layout, laid, get⟩ := computeBlockLayout_get args.count positive
  obtain ⟨code, noError, -⟩ := onSchedule.operations found returned
  have sentEq := onSchedule.sentDuring_eq bound found returned
  have expectedEq := onSchedule.expectedDuring_eq bound found returned
  have sentElements : (sentDuring call (world.rank rank).log).flatMap Piece.elements =
      movedElements setup rank args.count 0 := by
    rw [sentEq, List.flatMap_assoc, kind]
    apply List.flatMap_congr
    intro stage member
    exact (stage_elements found bound noError (by rwa [kind])).1
  have expectedElements : (expectedDuring call (world.rank rank).log).flatMap Piece.elements =
      movedElements setup rank args.count 1 := by
    rw [expectedEq, List.flatMap_assoc, kind]
    apply List.flatMap_congr
    intro stage member
    exact (stage_elements found bound noError (by rwa [kind])).2
  have counted : ∀ {block index : Nat}, block < setup.worldSize →
      (index < layout.counts.getD block 0 ↔ index < blockCount args.count setup.worldSize block) := by
    intro block index blockBound
    rw [(get block blockBound).1]
  refine ⟨layout, laid, ?_, ?_, ?_, ?_, ?_, ?_, ?_⟩
  · rw [sentElements]
    exact movedElements_nodup bound _ _
  · intro element
    rw [sentElements, mem_movedElements bound, Nat.zero_add,
      blockAt_of_add bound 1 (show setup.worldSize - 1 + 1 = _ by omega),
      blockAt_of_add bound 2 (show setup.worldSize - 1 + 0 + (setup.worldSize - 1) + 2 = _ by omega)]
    exact and_congr_right fun blockBound => and_congr_left' (counted blockBound).symm
  · have length := movedElements_length bound args.count
    rw [← sentElements, List.length_flatMap] at length
    rw [(get _ (Nat.mod_lt _ positive)).1, (get _ (Nat.mod_lt _ positive)).1, ← length]
    simp [Piece.elements]
  · rw [expectedElements]
    exact movedElements_nodup bound _ _
  · intro element
    rw [expectedElements, mem_movedElements bound,
      blockAt_of_add bound 1 (show 1 + (setup.worldSize - 1) + 0 = _ by omega),
      blockAt_of_add bound 2 (show setup.worldSize - 1 + 1 + (setup.worldSize - 1) + 1 = _ by omega),
      Nat.add_zero, Nat.mod_eq_of_lt bound]
    exact and_congr_right fun blockBound => and_congr_left' (counted blockBound).symm
  · intro piece pieceIn earlier earlierIn phase step
    rw [sentEq, List.mem_flatMap] at pieceIn
    rw [expectedEq, List.mem_flatMap] at earlierIn
    obtain ⟨stage, -, pieceAt⟩ := pieceIn
    obtain ⟨before, -, earlierAt⟩ := earlierIn
    obtain ⟨pieceStage, pieceBlock⟩ := sentAt_fields found pieceAt
    obtain ⟨earlierStage, earlierBlock⟩ := expectedAt_fields found earlierAt
    have successive : stage = before + 1 := by
      rw [← pieceStage, ← earlierStage, Piece.stage, Piece.stage, phase, step]
      cases earlier.phase
      · rfl
      · exact (Nat.add_assoc _ _ _).symm
    rw [pieceBlock, earlierBlock, successive]
  · intro post member
    rw [(onSchedule.events_operations bound found returned).2, sendPosts_run, allSends,
      List.flatMap_assoc, List.mem_flatMap] at member
    obtain ⟨stage, -, inStage⟩ := member
    rw [← allSends, stageBatches, allSends_stepBatches (effectiveConfig_maxInflight _).1] at inStage
    obtain ⟨piece, -, made⟩ := mem_flowPosts.mp inStage
    obtain ⟨tag, -, rfl⟩ := postFor_ok made
    have offset := (get _ (blockAt_lt positive rank stage)).2
    refine ⟨rfl, ?_⟩
    simp only [sentFlow, Setup.context, offset]

theorem link_traffic_pair : ∃ world, MockReachable (pairSetup 1) world ∧
    (world.rank 1).Returned 0 .success ∧
      ((sentDuring 0 (world.rank 1).log).flatMap Piece.elements).Nodup := by
  obtain ⟨world, reachable, -, returned⟩ := pair_run
  obtain ⟨layout, -, nodup, -⟩ := link_traffic reachable (show 1 < (pairSetup 1).worldSize by decide)
    (show (pairSetup 1).calls[0]? = some _ from rfl) rfl returned
  exact ⟨world, reachable, returned, nodup⟩

end RingAllReduce
