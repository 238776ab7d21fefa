import RingAllReduce.Library.Tiling
import RingAllReduce.Stages

/-! The posts a stage consists of: which pieces, in which batches, in which order. -/

namespace RingAllReduce

open Exchange

theorem pieceCountFor_eq {elementCount pieceElements : Nat} (positive : 0 < pieceElements) :
    pieceCountFor elementCount pieceElements = Tiling.tiles elementCount pieceElements := by
  unfold pieceCountFor
  split
  · rename_i empty
    rw [empty, Tiling.tiles, Nat.div_eq_of_lt (by omega)]
  · rfl

theorem pieceElementsFor_pos (config : Config) (elementSize : Nat) :
    0 < pieceElementsFor config elementSize := by
  simp only [pieceElementsFor]
  omega

theorem effectiveConfig_maxInflight (config : Option Config) :
    0 < (effectiveConfig config).maxInflight ∧
      (effectiveConfig config).maxInflight ≤ kMaxInflightLimit := by
  unfold effectiveConfig
  split
  · decide
  · rename_i config
    simp only
    split
    · decide
    · have limit : kMaxInflightLimit = 1024 := rfl
      omega

theorem postFor_ok {context : Context} {phase : CollectivePhase}
    {step elementSize pieceElements piece : Nat} {flow : Flow} {post : Post}
    (made : postFor context phase step elementSize pieceElements flow piece = .ok post) :
    ∃ tag, makeTag context.sequence phase step piece = .ok tag ∧ post =
      { call := context.call, phase := phase, step := step, block := flow.block,
        pieceIndex := piece, elementOffset := piece * pieceElements,
        elementCount := min pieceElements (flow.blockCount - piece * pieceElements),
        bytes := min pieceElements (flow.blockCount - piece * pieceElements) * elementSize,
        tag := tag, mode := context.config.transferMode, buffer := flow.buffer,
        start := flow.start + piece * pieceElements } := by
  unfold postFor at made
  simp only at made
  split at made
  · simp at made
  · rename_i tag tagMade
    exact ⟨tag, tagMade, (Except.ok.inj made).symm⟩

@[simp] theorem posted_nil : posted [] = [] := rfl

@[simp] theorem posted_ok (post : Post) (posts : List (Except Status Post)) :
    posted (.ok post :: posts) = post :: posted posts := rfl

@[simp] theorem posted_error (status : Status) (posts : List (Except Status Post)) :
    posted (.error status :: posts) = posted posts := rfl

theorem posted_map {Index : Type} (make : Index → Except Status Post) (indices : List Index) :
    posted (indices.map make) = indices.filterMap fun index => (make index).toOption := by
  simp [posted, List.filterMap_map]

theorem mem_posted {posts : List (Except Status Post)} {post : Post} :
    post ∈ posted posts ↔ .ok post ∈ posts := by
  simp only [posted, List.mem_filterMap]
  constructor
  · rintro ⟨made, member, isOk⟩
    cases made with
    | error status => simp [Except.toOption] at isOk
    | ok found =>
        obtain rfl : found = post := by simpa [Except.toOption] using isOk
        exact member
  · intro member
    exact ⟨_, member, rfl⟩

section Step

variable (context : Context) (phase : CollectivePhase) (step elementSize pieceElements : Nat)

def flowPosts (flow : Flow) : List Post :=
  posted ((List.range (pieceCountFor flow.blockCount pieceElements)).map
    (postFor context phase step elementSize pieceElements flow))

def stepBatches (recv send : Flow) : List (Batch Post) :=
  let batchCapacity := context.config.maxInflight
  let sendPieces := pieceCountFor send.blockCount pieceElements
  let recvPieces := pieceCountFor recv.blockCount pieceElements
  let totalBatches := (max sendPieces recvPieces + batchCapacity - 1) / batchCapacity
  (List.range totalBatches).map fun batch =>
    { recvs := posted (batchPosts context phase step elementSize pieceElements recv batch)
      sends := posted (batchPosts context phase step elementSize pieceElements send batch) }

variable {context phase step elementSize pieceElements}

theorem mem_batchPosts {flow : Flow} {batch : Nat} {post : Post}
    (member : post ∈ posted (batchPosts context phase step elementSize pieceElements flow batch)) :
    ∃ piece, batch * context.config.maxInflight ≤ piece ∧
      piece < batch * context.config.maxInflight + context.config.maxInflight ∧
      piece < pieceCountFor flow.blockCount pieceElements ∧
      postFor context phase step elementSize pieceElements flow piece = .ok post := by
  simp only [mem_posted, batchPosts, List.mem_map, List.mem_range'_1] at member
  obtain ⟨piece, ⟨lower, upper⟩, made⟩ := member
  exact ⟨piece, lower, by omega, by omega, made⟩

theorem flatMap_batchPosts (inflight : 0 < context.config.maxInflight) {flow : Flow}
    {pieces : Nat} (enough : pieceCountFor flow.blockCount pieceElements ≤ pieces) :
    ((List.range ((pieces + context.config.maxInflight - 1) / context.config.maxInflight)).flatMap
        (batchPosts context phase step elementSize pieceElements flow)) =
      (List.range (pieceCountFor flow.blockCount pieceElements)).map
        (postFor context phase step elementSize pieceElements flow) := by
  unfold batchPosts
  rw [← List.map_flatMap, Tiling.flatMap_batches]
  have covered := Tiling.le_tiles_mul pieces inflight
  rw [Tiling.tiles] at covered
  rw [Nat.min_eq_right (by omega)]

theorem posted_flatMap {Index : Type} (indices : List Index)
    (posts : Index → List (Except Status Post)) :
    posted (indices.flatMap posts) = indices.flatMap fun index => posted (posts index) :=
  List.filterMap_flatMap

theorem allRecvs_stepBatches (inflight : 0 < context.config.maxInflight) (recv send : Flow) :
    allRecvs (stepBatches context phase step elementSize pieceElements recv send) =
      flowPosts context phase step elementSize pieceElements recv := by
  simp only [allRecvs, stepBatches, List.flatMap_map]
  rw [← posted_flatMap, flatMap_batchPosts inflight (Nat.le_max_right _ _)]
  rfl

theorem allSends_stepBatches (inflight : 0 < context.config.maxInflight) (recv send : Flow) :
    allSends (stepBatches context phase step elementSize pieceElements recv send) =
      flowPosts context phase step elementSize pieceElements send := by
  simp only [allSends, stepBatches, List.flatMap_map]
  rw [← posted_flatMap, flatMap_batchPosts inflight (Nat.le_max_left _ _)]
  rfl

theorem events_postAll_postRecv (posts : List (Except Status Post)) :
    events (postAll .postRecv posts) = (posted posts).map .postRecv := by
  induction posts with
  | nil => rfl
  | cons made posts ih =>
      rw [postAll] at ih ⊢
      cases made <;> simp [ih, Instr.event]

theorem events_postAll_postSend (posts : List (Except Status Post)) :
    events (postAll .postSend posts) = (posted posts).map .postSend := by
  induction posts with
  | nil => rfl
  | cons made posts ih =>
      rw [postAll] at ih ⊢
      cases made <;> simp [ih, Instr.event]

theorem events_map_waitSend (posts : List Post) :
    events (posts.map .waitSend) = posts.map .waitSend := by
  induction posts with
  | nil => rfl
  | cons post posts ih => simp [ih, Instr.event]

theorem events_stepBody (recv send : Flow) {afterWait : Post → List Instr}
    (waits : ∀ post, events (afterWait post) = [.waitRecv post]) :
    events (stepBody context phase step elementSize pieceElements recv send afterWait) =
      run (stepBatches context phase step elementSize pieceElements recv send) := by
  rw [stepBody, events_flatMap, run, stepBatches, List.flatMap_map]
  apply List.flatMap_congr
  intro batch _
  simp only [batchBody, events_append, events_postAll_postRecv, events_postAll_postSend,
    events_flatMap, waits, events_map_waitSend, Batch.events, List.append_assoc]
  congr 2
  rw [← List.map_eq_flatMap]

theorem mem_flowPosts {flow : Flow} {post : Post} :
    post ∈ flowPosts context phase step elementSize pieceElements flow ↔
      ∃ piece < pieceCountFor flow.blockCount pieceElements,
        postFor context phase step elementSize pieceElements flow piece = .ok post := by
  simp [flowPosts, mem_posted]

theorem mem_stepBody {recv send : Flow} {afterWait : Post → List Instr} {instr : Instr}
    (member : instr ∈ stepBody context phase step elementSize pieceElements recv send afterWait) :
    (∃ status, instr = .ret status) ∨
      (∃ post ∈ flowPosts context phase step elementSize pieceElements recv,
        instr = .postRecv post ∨ instr ∈ afterWait post) ∨
      ∃ post ∈ flowPosts context phase step elementSize pieceElements send,
        instr = .postSend post ∨ instr = .waitSend post := by
  have flowed : ∀ {flow : Flow} {batch : Nat} {post : Post},
      post ∈ posted (batchPosts context phase step elementSize pieceElements flow batch) →
        post ∈ flowPosts context phase step elementSize pieceElements flow := by
    intro flow batch post inBatch
    obtain ⟨piece, -, -, bound, made⟩ := mem_batchPosts inBatch
    exact mem_flowPosts.mpr ⟨piece, bound, made⟩
  have turn : ∀ {make : Post → Instr} {flow : Flow} {batch : Nat},
      instr ∈ postAll make (batchPosts context phase step elementSize pieceElements flow batch) →
        (∃ status, instr = .ret status) ∨
          ∃ post ∈ flowPosts context phase step elementSize pieceElements flow,
            instr = make post := by
    intro make flow batch inTurn
    obtain ⟨made, madeIn, rfl⟩ := List.mem_map.mp inTurn
    cases made with
    | error status => exact Or.inl ⟨status, rfl⟩
    | ok post => exact Or.inr ⟨post, flowed (mem_posted.mpr madeIn), rfl⟩
  obtain ⟨batch, -, inBatch⟩ := List.mem_flatMap.mp member
  simp only [batchBody, List.mem_append] at inBatch
  rcases inBatch with ((recvs | sends) | waits) | acks
  · rcases turn recvs with returned | ⟨post, postIn, rfl⟩
    · exact Or.inl returned
    · exact Or.inr (Or.inl ⟨post, postIn, Or.inl rfl⟩)
  · rcases turn sends with returned | ⟨post, postIn, rfl⟩
    · exact Or.inl returned
    · exact Or.inr (Or.inr ⟨post, postIn, Or.inl rfl⟩)
  · obtain ⟨post, postIn, inWait⟩ := List.mem_flatMap.mp waits
    exact Or.inr (Or.inl ⟨post, flowed postIn, Or.inr inWait⟩)
  · obtain ⟨post, postIn, rfl⟩ := List.mem_map.mp acks
    exact Or.inr (Or.inr ⟨post, flowed postIn, Or.inr rfl⟩)

theorem exists_batch (inflight : 0 < context.config.maxInflight) {flow : Flow} {piece pieces : Nat}
    (bound : piece < pieceCountFor flow.blockCount pieceElements)
    (enough : pieceCountFor flow.blockCount pieceElements ≤ pieces) :
    ∃ batch ∈ List.range ((pieces + context.config.maxInflight - 1) / context.config.maxInflight),
      postFor context phase step elementSize pieceElements flow piece ∈
        batchPosts context phase step elementSize pieceElements flow batch := by
  apply List.mem_flatMap.mp
  rw [flatMap_batchPosts inflight enough]
  exact List.mem_map.mpr ⟨piece, List.mem_range.mpr bound, rfl⟩

theorem afterWait_mem_stepBody (inflight : 0 < context.config.maxInflight) {recv send : Flow}
    {afterWait : Post → List Instr} {post : Post} {instr : Instr}
    (member : post ∈ flowPosts context phase step elementSize pieceElements recv)
    (after : instr ∈ afterWait post) :
    instr ∈ stepBody context phase step elementSize pieceElements recv send afterWait := by
  obtain ⟨piece, bound, made⟩ := mem_flowPosts.mp member
  obtain ⟨batch, inStep, inBatch⟩ := exists_batch inflight bound
    (Nat.le_max_right (pieceCountFor send.blockCount pieceElements) _)
  rw [made] at inBatch
  apply List.mem_flatMap.mpr ⟨batch, inStep, ?_⟩
  simp only [batchBody, List.mem_append]
  exact Or.inl (Or.inr (List.mem_flatMap.mpr ⟨post, mem_posted.mpr inBatch, after⟩))

theorem ret_mem_stepBody (inflight : 0 < context.config.maxInflight) {recv send : Flow}
    {afterWait : Post → List Instr} {flow : Flow} (isFlow : flow = recv ∨ flow = send) {piece : Nat}
    {status : Status} (bound : piece < pieceCountFor flow.blockCount pieceElements)
    (failed : postFor context phase step elementSize pieceElements flow piece = .error status) :
    .ret status ∈ stepBody context phase step elementSize pieceElements recv send afterWait := by
  have enough : pieceCountFor flow.blockCount pieceElements ≤
      max (pieceCountFor send.blockCount pieceElements)
        (pieceCountFor recv.blockCount pieceElements) := by
    rcases isFlow with rfl | rfl <;> omega
  obtain ⟨batch, inStep, inBatch⟩ := exists_batch inflight bound enough
  rw [failed] at inBatch
  apply List.mem_flatMap.mpr ⟨batch, inStep, ?_⟩
  simp only [batchBody, List.mem_append, postAll, List.mem_map]
  rcases isFlow with rfl | rfl
  · exact Or.inl (Or.inl (Or.inl ⟨_, inBatch, rfl⟩))
  · exact Or.inl (Or.inl (Or.inr ⟨_, inBatch, rfl⟩))

end Step

end RingAllReduce
