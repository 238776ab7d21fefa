import RingAllReduce.Links

/-! Along a schedule the pieces are strictly ordered: call by call, stage by stage, and within a
stage piece by piece. -/

namespace RingAllReduce

open Exchange Rotation

variable {Value : Type} {context : Context} {count stage : Nat} {datatype : Datatype}
  {batch : Batch Post} {post : Post}

/-- The batch with a given number of a stage. -/
def stageBatch (context : Context) (count : Nat) (datatype : Datatype) (stage index : Nat) :
    Batch Post :=
  let elementSize := datatypeSize datatype
  let posts (flow : Flow) := posted (batchPosts context (stagePhase context.worldSize stage)
    (stageStep context.worldSize stage) elementSize (pieceElementsFor context.config elementSize)
    flow index)
  { recvs := posts (receivedFlow count context.worldSize stage
      (blockAt context.worldSize context.rank (stage + 1)))
    sends := posts (sentFlow count context.worldSize
      (blockAt context.worldSize context.rank stage)) }

theorem mem_stageBatches (member : batch ∈ stageBatches context count datatype stage) :
    ∃ index, batch = stageBatch context count datatype stage index := by
  simp only [stageBatches, stepBatches, List.mem_map] at member
  obtain ⟨index, -, rfl⟩ := member
  exact ⟨index, rfl⟩

theorem mem_posted_fields {phase : CollectivePhase} {step elementSize pieceElements index : Nat}
    {flow : Flow}
    (member : post ∈ posted (batchPosts context phase step elementSize pieceElements flow index)) :
    post.call = context.call ∧ post.phase = phase ∧ post.step = step ∧ step ≤ 127 ∧
      post.pieceIndex ≤ 4095 ∧ index * context.config.maxInflight ≤ post.pieceIndex ∧
      post.pieceIndex < index * context.config.maxInflight + context.config.maxInflight := by
  obtain ⟨piece, lower, upper, -, made⟩ := mem_batchPosts member
  obtain ⟨tag, tagMade, rfl⟩ := postFor_ok made
  have range := (makeTag_ok_iff _ _ _ _).mp ⟨tag, tagMade⟩
  exact ⟨rfl, rfl, rfl, by omega, range.2.2, lower, upper⟩

theorem mem_stageBatch_items {index : Nat}
    (member : post ∈ (stageBatch context count datatype stage index).items) :
    post.call = context.call ∧ post.phase = stagePhase context.worldSize stage ∧
      post.step = stageStep context.worldSize stage ∧ stageStep context.worldSize stage ≤ 127 ∧
      post.pieceIndex ≤ 4095 ∧ index * context.config.maxInflight ≤ post.pieceIndex ∧
      post.pieceIndex < index * context.config.maxInflight + context.config.maxInflight := by
  rcases List.mem_append.mp member with recv | send
  · exact mem_posted_fields recv
  · exact mem_posted_fields send

theorem stageBatches_ordered (context : Context) (count : Nat) (datatype : Datatype) (stage : Nat) :
    Ordered (fun post => post.toPiece.key) (stageBatches context count datatype stage) := by
  rw [Ordered, stageBatches, stepBatches, List.pairwise_map]
  apply List.Pairwise.imp _ List.pairwise_lt_range
  intro first second less left leftIn right rightIn
  obtain ⟨leftCall, leftPhase, leftStep, stepBound, leftBound, -, leftUpper⟩ :=
    mem_stageBatch_items
      (show left ∈ (stageBatch context count datatype stage first).items from leftIn)
  obtain ⟨rightCall, rightPhase, rightStep, -, -, rightLower, -⟩ :=
    mem_stageBatch_items
      (show right ∈ (stageBatch context count datatype stage second).items from rightIn)
  have apart : first * context.config.maxInflight + context.config.maxInflight ≤
      second * context.config.maxInflight := by
    rw [← Nat.succ_mul]
    exact Nat.mul_le_mul_right _ less
  exact key_lt leftCall rightCall leftPhase rightPhase leftStep rightStep rfl rfl stepBound
    leftBound (Or.inr ⟨rfl, Or.inr ⟨rfl, Or.inr ⟨rfl, by omega⟩⟩⟩)

theorem stage_lt (worldSize : Nat) {first second : Nat} (less : first < second) :
    (stagePhase worldSize first).code.toNat < (stagePhase worldSize second).code.toNat ∨
      stagePhase worldSize first = stagePhase worldSize second ∧
        stageStep worldSize first < stageStep worldSize second := by
  unfold stagePhase stageStep
  split <;> split
  · exact Or.inr ⟨rfl, less⟩
  · exact Or.inl (by decide)
  · omega
  · exact Or.inr ⟨rfl, by omega⟩

theorem Kind.stages_sorted (kind : Kind) (worldSize : Nat) :
    (kind.stages worldSize).Pairwise (· < ·) := by
  rw [Kind.stages, Kind.scatterStages, Kind.gatherStages, List.pairwise_append]
  refine ⟨?_, ?_, ?_⟩
  · split
    · exact .nil
    · exact List.pairwise_lt_range
  · split
    · exact .nil
    · rw [List.pairwise_map]
      exact List.pairwise_lt_range.imp fun less => by omega
  · intro first firstIn second secondIn
    split at firstIn
    · simp at firstIn
    split at secondIn
    · simp at secondIn
    simp only [List.mem_range, List.mem_map] at firstIn secondIn
    obtain ⟨step, -, rfl⟩ := secondIn
    omega

theorem Kind.mem_stages {kind : Kind} {worldSize stage : Nat}
    (member : stage ∈ kind.stages worldSize) : stage < 2 * (worldSize - 1) := by
  rw [Kind.stages, Kind.scatterStages, Kind.gatherStages, List.mem_append] at member
  rcases member with scatter | gather
  · split at scatter
    · simp at scatter
    · rw [List.mem_range] at scatter
      omega
  · split at gather
    · simp at gather
    · simp only [List.mem_map, List.mem_range] at gather
      omega

theorem mem_stages_allReduce {kind : Kind} (isAllReduce : kind = .allReduce) {worldSize stage : Nat}
    (bound : stage < 2 * (worldSize - 1)) : stage ∈ kind.stages worldSize := by
  simp only [isAllReduce, Kind.stages, Kind.scatterStages, Kind.gatherStages, reduceCtorEq, if_false,
    List.mem_append, List.mem_range, List.mem_map]
  by_cases early : stage < worldSize - 1
  · exact Or.inl early
  · exact Or.inr ⟨stage - (worldSize - 1), by omega, by omega⟩

theorem Setup.stagesUpTo_sorted (setup : Setup Value) (calls : Nat) :
    (setup.stagesUpTo calls).Pairwise fun first second =>
      first.1 < second.1 ∨ first.1 = second.1 ∧ first.2 < second.2 := by
  rw [stagesUpTo, List.pairwise_flatMap]
  constructor
  · intro call _
    split
    · split
      · rw [List.pairwise_map]
        exact (Kind.stages_sorted _ _).imp fun less => Or.inr ⟨rfl, less⟩
      · exact .nil
    · exact .nil
  · apply List.pairwise_lt_range.imp
    intro first second less left leftIn right rightIn
    have leftCall : left.1 = first := by grind
    have rightCall : right.1 = second := by grind
    left
    rwa [leftCall, rightCall]

theorem Setup.mem_batchesAt {setup : Setup Value} {rank : Nat} {place : Nat × Nat}
    (member : batch ∈ setup.batchesAt rank place) :
    ∃ args index, setup.calls[place.1]? = some args ∧ batch = stageBatch
      (setup.context rank (setup.sequenceAt place.1) place.1) args.count args.datatype place.2
        index := by
  unfold batchesAt at member
  split at member
  · rename_i args found
    obtain ⟨index, batchEq⟩ := mem_stageBatches member
    exact ⟨args, index, found, batchEq⟩
  · simp at member

theorem Setup.planUpTo_ordered (setup : Setup Value) (rank calls : Nat) :
    Ordered (fun post => post.toPiece.key) (setup.planUpTo rank calls) := by
  rw [Ordered, planUpTo, List.pairwise_flatMap]
  constructor
  · rintro ⟨call, stage⟩ -
    unfold batchesAt
    split
    · exact stageBatches_ordered _ _ _ _
    · exact .nil
  · apply (setup.stagesUpTo_sorted calls).imp
    intro first second less batch batchIn batch' batchIn' left leftIn right rightIn
    obtain ⟨args, index, -, rfl⟩ := setup.mem_batchesAt batchIn
    obtain ⟨args', index', -, rfl⟩ := setup.mem_batchesAt batchIn'
    obtain ⟨leftCall, leftPhase, leftStep, stepBound, leftBound, -⟩ := mem_stageBatch_items leftIn
    obtain ⟨rightCall, rightPhase, rightStep, -⟩ := mem_stageBatch_items rightIn
    apply key_lt leftCall rightCall leftPhase rightPhase leftStep rightStep rfl rfl stepBound
      leftBound
    rcases less with earlier | ⟨same, earlier⟩
    · exact Or.inl earlier
    · rcases stage_lt setup.worldSize earlier with phases | ⟨phaseEq, steps⟩
      · exact Or.inr ⟨same, Or.inl phases⟩
      · exact Or.inr ⟨same, Or.inr ⟨phaseEq, Or.inl steps⟩⟩

theorem Setup.plan_ordered (setup : Setup Value) (rank : Nat) :
    Ordered (fun post => post.toPiece.key) (setup.plan rank) :=
  setup.planUpTo_ordered rank _

theorem posted_sorted (context : Context) (phase : CollectivePhase)
    (step elementSize pieceElements : Nat) (flow : Flow) {pieces : List Nat}
    (sorted : pieces.Pairwise (· < ·)) :
    (posted (pieces.map (postFor context phase step elementSize pieceElements flow))).Pairwise
      fun first second => first.pieceIndex < second.pieceIndex := by
  rw [posted_map, List.pairwise_filterMap]
  apply sorted.imp
  intro first second less left leftMade right rightMade
  have number : ∀ {piece : Nat} {post : Post}, post ∈ (postFor context phase step elementSize
      pieceElements flow piece).toOption → post.pieceIndex = piece := by
    intro piece post made
    cases result : postFor context phase step elementSize pieceElements flow piece with
    | error status => simp [result, Except.toOption] at made
    | ok found =>
        obtain rfl : found = post := by simpa [result, Except.toOption] using made
        obtain ⟨tag, -, rfl⟩ := postFor_ok result
        rfl
  rw [number leftMade, number rightMade]
  exact less

theorem nodup_of_sorted {posts : List Post}
    (sorted : posts.Pairwise fun first second => first.pieceIndex < second.pieceIndex) :
    posts.Nodup := sorted.imp fun less same => absurd less (by simp [same])

/-- Along a schedule the receives are strictly ordered, and so are the sends. -/
theorem Setup.plan_sorted (setup : Setup Value) (rank : Nat) :
    ((allRecvs (setup.plan rank)).Pairwise fun first second =>
      first.toPiece.key < second.toPiece.key) ∧
    (allSends (setup.plan rank)).Pairwise fun first second =>
      first.toPiece.key < second.toPiece.key := by
  have inside : ∀ {context : Context} {phase : CollectivePhase}
      {step elementSize pieceElements index : Nat} {flow : Flow},
      (posted (batchPosts context phase step elementSize pieceElements flow index)).Pairwise
        fun first second => first.toPiece.key < second.toPiece.key := by
    intro context phase step elementSize pieceElements index flow
    apply (posted_sorted _ _ _ _ _ _ List.pairwise_lt_range').imp_of_mem
    intro first second firstIn secondIn less
    obtain ⟨firstCall, firstPhase, firstStep, stepBound, firstBound, -⟩ := mem_posted_fields firstIn
    obtain ⟨secondCall, secondPhase, secondStep, -⟩ := mem_posted_fields secondIn
    exact key_lt firstCall secondCall firstPhase secondPhase firstStep secondStep rfl rfl stepBound
      firstBound (Or.inr ⟨rfl, Or.inr ⟨rfl, Or.inr ⟨rfl, less⟩⟩⟩)
  have fromStage : ∀ batch ∈ setup.plan rank, ∃ context count datatype stage index,
      batch = stageBatch context count datatype stage index := by
    intro batch member
    obtain ⟨place, -, batchIn⟩ := List.mem_flatMap.mp member
    obtain ⟨args, index, -, rfl⟩ := setup.mem_batchesAt batchIn
    exact ⟨_, _, _, _, _, rfl⟩
  have between := setup.plan_ordered rank
  rw [allRecvs, allSends, List.pairwise_flatMap, List.pairwise_flatMap]
  refine ⟨⟨?_, between.imp ?_⟩, ?_, between.imp ?_⟩
  · intro batch member
    obtain ⟨_, _, _, _, _, rfl⟩ := fromStage batch member
    exact inside
  · intro batch batch' less first firstIn second secondIn
    exact less first (by simp [Batch.items, firstIn]) second (by simp [Batch.items, secondIn])
  · intro batch member
    obtain ⟨_, _, _, _, _, rfl⟩ := fromStage batch member
    exact inside
  · intro batch batch' less first firstIn second secondIn
    exact less first (by simp [Batch.items, firstIn]) second (by simp [Batch.items, secondIn])

theorem Setup.plan_posts_nodup (setup : Setup Value) (rank : Nat) :
    (allRecvs (setup.plan rank)).Nodup ∧ (allSends (setup.plan rank)).Nodup := by
  obtain ⟨recvs, sends⟩ := setup.plan_sorted rank
  exact ⟨recvs.imp fun less same => absurd less (by simp [same]),
    sends.imp fun less same => absurd less (by simp [same])⟩

end RingAllReduce
