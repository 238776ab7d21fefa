import RingAllReduce.Contents

/-! A whole call of a rank that receives what it should: what it passes on, and what it leaves in
the work buffer. -/

namespace RingAllReduce

open Exchange Rotation

variable {Value : Type}

def Kind.firstStage (kind : Kind) (worldSize : Nat) : Nat :=
  if kind = .allGather then worldSize - 1 else 0

theorem Kind.stages_eq_range' (kind : Kind) (worldSize : Nat) :
    ∃ length, kind.stages worldSize = List.range' (kind.firstStage worldSize) length := by
  cases kind with
  | allReduce =>
      refine ⟨worldSize - 1 + (worldSize - 1), ?_⟩
      simp [Kind.stages, Kind.scatterStages, Kind.gatherStages, Kind.firstStage,
        ← List.range_eq_range', List.range_add]
  | reduceScatter =>
      exact ⟨worldSize - 1, by simp [Kind.stages, Kind.scatterStages, Kind.gatherStages,
        Kind.firstStage, List.range_eq_range']⟩
  | allGather =>
      exact ⟨worldSize - 1, by simp [Kind.stages, Kind.scatterStages, Kind.gatherStages,
        Kind.firstStage, List.range'_eq_map_range]⟩

theorem Kind.stages_split {kind : Kind} {worldSize stage : Nat} {done rest : List Nat}
    (split : kind.stages worldSize = done ++ stage :: rest) :
    (done = [] ∧ stage = kind.firstStage worldSize) ∨
      ∃ earlier previous, done = earlier ++ [previous] ∧ stage = previous + 1 := by
  obtain ⟨length, stagesEq⟩ := kind.stages_eq_range' worldSize
  rw [stagesEq] at split
  have placed : ∀ index value : Nat, (done ++ stage :: rest)[index]? = some value →
      value = kind.firstStage worldSize + index := by
    intro index value found
    rw [← split] at found
    obtain ⟨bound, valueEq⟩ := List.getElem?_eq_some_iff.mp found
    simpa using valueEq.symm
  have here := placed done.length stage (by simp)
  rcases List.eq_nil_or_concat done with rfl | ⟨earlier, previous, rfl⟩
  · exact Or.inl ⟨rfl, by simpa using here⟩
  · have before := placed earlier.length previous (by simp)
    have length := @List.length_concat _ earlier previous
    exact Or.inr ⟨earlier, previous, List.concat_eq_append, by omega⟩

theorem blockAt_injective {worldSize rank first second : Nat} (bound : rank < worldSize)
    (same : blockAt worldSize rank first = blockAt worldSize rank second) :
    first % worldSize = second % worldSize := by
  have blockBound := blockAt_lt (show 0 < worldSize by omega) rank second
  have reached := hop_blockAt bound first
  rw [same] at reached
  rw [(hop_eq_iff blockBound bound first).mp reached,
    (hop_eq_iff blockBound bound second).mp (hop_blockAt bound second)]

theorem blockAt_succ_ne {worldSize rank : Nat} (bound : rank < worldSize) (several : 1 < worldSize)
    (stage : Nat) : blockAt worldSize rank (stage + 1) ≠ blockAt worldSize rank stage := by
  intro same
  have equal := blockAt_injective bound same
  have small := Nat.mod_lt stage (show 0 < worldSize by omega)
  rw [Nat.add_mod, Nat.mod_eq_of_lt several] at equal
  rcases mod_cases (stage % worldSize + 1) (show _ < 2 * worldSize by omega) with
    ⟨-, eq⟩ | ⟨large, eq⟩
  · omega
  · omega

theorem outside_of_not_inBlock {args : Call Value} {worldSize block index : Nat}
    (apart : ¬ args.inBlock worldSize block index) :
    index < blockOffset args.count worldSize block ∨
      blockOffset args.count worldSize block + blockCount args.count worldSize block ≤ index := by
  simp only [Call.inBlock, not_and, Nat.not_lt] at apart
  omega

section Held

variable {setup : Setup Value} {args : Call Value} {rank stage : Nat} {done rest : List Nat}

theorem held_before_scatter (bound : rank < setup.worldSize)
    (split : args.kind.stages setup.worldSize = done ++ stage :: rest)
    (early : stage < setup.worldSize - 1) {index : Nat}
    (inside : args.inBlock setup.worldSize (blockAt setup.worldSize rank (stage + 1)) index) :
    setup.held args rank done index = args.input rank index := by
  apply Setup.held_fresh inside
  intro earlier member same
  have sorted := args.kind.stages_sorted setup.worldSize
  rw [split, List.pairwise_append] at sorted
  have less := sorted.2.2 earlier member stage (by simp)
  have congruent := blockAt_injective bound same
  rw [Nat.mod_eq_of_lt (by omega), Nat.mod_eq_of_lt (by omega)] at congruent
  omega

theorem held_before_send (bound : rank < setup.worldSize)
    (split : args.kind.stages setup.worldSize = done ++ stage :: rest) {index : Nat}
    (inside : args.inBlock setup.worldSize (blockAt setup.worldSize rank stage) index) :
    setup.held args rank done index =
      setup.carried args (blockAt setup.worldSize rank stage) stage index := by
  rcases Kind.stages_split split with ⟨rfl, first⟩ | ⟨earlier, previous, rfl, rfl⟩
  · have reached := hop_blockAt bound stage
    unfold Setup.held Setup.carried
    rw [List.foldl_nil]
    unfold Kind.firstStage at first
    by_cases gathers : args.kind = .allGather
    · rw [if_pos gathers] at first ⊢
      rw [← first, reached]
    · rw [if_neg gathers] at first ⊢
      rw [first, hop_zero (blockAt_lt setup.positive _ _)] at reached
      rw [first, Nat.zero_min, reached, ringFold]
  · rw [Setup.held_snoc, Setup.arrive]
    simp only [inside, if_true]

theorem held_final {stages : List Nat} (sorted : stages.Pairwise (· < ·)) {block index : Nat}
    (inside : args.inBlock setup.worldSize block index)
    (arrived : ∃ stage ∈ stages, blockAt setup.worldSize rank (stage + 1) = block ∧
      setup.worldSize - 1 ≤ stage + 1) :
    setup.held args rank stages index = setup.carried args block (setup.worldSize - 1) index := by
  induction stages using List.reverseRecOn with
  | nil => simp at arrived
  | append_singleton stages stage ih =>
      rw [List.pairwise_append] at sorted
      obtain ⟨late, member, here, final⟩ := arrived
      have ordered : late ≤ stage := by
        rcases List.mem_append.mp member with earlier | last
        · exact Nat.le_of_lt (sorted.2.2 late earlier stage (by simp))
        · exact Nat.le_of_eq (by simpa using last)
      rw [Setup.held_snoc, Setup.arrive]
      split
      · rename_i again
        rw [blocks_disjoint _ _ again inside]
        exact setup.carried_saturated _ _ (by omega) (Nat.le_refl _) _
      · rename_i elsewhere
        apply ih sorted.1
        refine ⟨late, ?_, here, final⟩
        rcases List.mem_append.mp member with earlier | last
        · exact earlier
        · rw [List.mem_singleton.mp last] at here
          exact absurd (here ▸ inside) elsewhere

/-- After all stages of an All-Reduce every block has been round the whole ring. -/
theorem held_allReduce (bound : rank < setup.worldSize) (kind : args.kind = .allReduce)
    {block index : Nat} (blockBound : block < setup.worldSize)
    (inside : args.inBlock setup.worldSize block index) :
    setup.held args rank (args.kind.stages setup.worldSize) index =
      setup.carried args block (setup.worldSize - 1) index := by
  obtain ⟨length, stagesEq⟩ := args.kind.stages_eq_range' setup.worldSize
  by_cases single : setup.worldSize = 1
  · have none : args.kind.stages setup.worldSize = [] := by
      simp [kind, single, Kind.stages, Kind.scatterStages, Kind.gatherStages]
    rw [none, Setup.held, List.foldl_nil, Setup.carried, if_neg (by simp [kind]), single]
    rw [show rank = 0 by omega, show block = 0 by omega]
    rfl
  · apply held_final (args.kind.stages_sorted _) inside
    have small := distance_lt setup.positive block rank
    have arrives : ∀ stage, (stage + 1) % setup.worldSize = distance setup.worldSize block rank →
        blockAt setup.worldSize rank (stage + 1) = block := by
      intro stage congruent
      exact blockAt_eq blockBound ((hop_eq_iff blockBound bound _).mpr congruent)
    have all : ∀ stage < 2 * (setup.worldSize - 1), stage ∈ args.kind.stages setup.worldSize := by
      intro stage less
      rw [kind, Kind.stages, Kind.scatterStages, Kind.gatherStages]
      simp only [reduceCtorEq, if_false, List.mem_append, List.mem_range, List.mem_map]
      by_cases early : stage < setup.worldSize - 1
      · exact Or.inl early
      · exact Or.inr ⟨stage - (setup.worldSize - 1), by omega, by omega⟩
    by_cases owner : distance setup.worldSize block rank = setup.worldSize - 1
    · refine ⟨setup.worldSize - 2, all _ (by omega), arrives _ ?_, by omega⟩
      rw [owner, show setup.worldSize - 2 + 1 = setup.worldSize - 1 by omega,
        Nat.mod_eq_of_lt (by omega)]
    · refine ⟨distance setup.worldSize block rank + setup.worldSize - 1, all _ (by omega),
        arrives _ ?_, by omega⟩
      rw [show distance setup.worldSize block rank + setup.worldSize - 1 + 1 =
        distance setup.worldSize block rank + setup.worldSize by omega, Nat.add_mod_right,
        Nat.mod_eq_of_lt small]

end Held

/-- The memory of a rank after some stages of a call. -/
def Holding (setup : Setup Value) (args : Call Value) (rank : Nat) (stages : List Nat)
    (memory : Memory Value) : Prop :=
  ∀ index < args.count, memory .workbuf index = setup.held args rank stages index

section Code

variable {setup : Setup Value} {args : Call Value} {rank call : Nat} {sequence : UInt32}

theorem holding_start (rank : Nat) (found : setup.calls[call]? = some args) (memory : Memory Value) :
    Holding setup args rank []
      (expectedMemory setup rank memory (.load call :: args.copies rank)) := by
  intro index bound
  unfold Setup.held Call.copies Call.input
  simp only [List.foldl_nil]
  split
  · simp only [expectedMemory_cons, expectedMemory_nil, expectedStep, performLocal, found,
      Memory.load, Memory.store_eq_ite]
    rw [if_pos ⟨trivial, by omega, by omega⟩, Nat.zero_add, Nat.sub_zero]
    rfl
  · simp only [expectedMemory_cons, expectedMemory_nil, expectedStep, performLocal, found]
    rfl

theorem holding_stage (found : setup.calls[call]? = some args)
    (typed : args.datatype.supported = true) (bound : rank < setup.worldSize) {stage : Nat}
    {done rest : List Nat} (split : args.kind.stages setup.worldSize = done ++ stage :: rest)
    (noError : ∀ status, .ret status ∈ stageCode (setup.context rank sequence call) args.count
      args.datatype args.operation stage → status = .success)
    {memory : Memory Value} (holding : Holding setup args rank done memory) :
    Holding setup args rank (done ++ [stage]) (expectedMemory setup rank memory
      (stageCode (setup.context rank sequence call) args.count args.datatype args.operation
        stage)) := by
  have positive := setup.positive
  have inRange : ∀ block < setup.worldSize, ∀ index, args.inBlock setup.worldSize block index →
      index < args.count := by
    intro block blockBound index inside
    have ends := block_end_le args.count blockBound
    exact Nat.lt_of_lt_of_le inside.2 ends
  have scatters : stage < setup.worldSize - 1 → args.kind ≠ .allGather := by
    intro early gathers
    have member : stage ∈ args.kind.stages setup.worldSize := by simp [split]
    simp only [gathers, Kind.stages, Kind.scatterStages, Kind.gatherStages, if_true, reduceCtorEq,
      if_false, List.nil_append, List.mem_map] at member
    omega
  intro index indexBound
  rw [expectedMemory_stage found typed bound noError scatters, Setup.held_snoc, Setup.arrive,
    Setup.arrive]
  · split
    · rfl
    · exact holding index indexBound
  · intro early other inside
    rw [holding other (inRange _ (blockAt_lt positive _ _) other inside)]
    exact held_before_scatter bound split early inside

theorem holding_stages (sequence : UInt32) (found : setup.calls[call]? = some args)
    (typed : args.datatype.supported = true) (bound : rank < setup.worldSize)
    {done stages rest : List Nat} (split : args.kind.stages setup.worldSize = done ++ stages ++ rest)
    {memory : Memory Value} (holding : Holding setup args rank done memory)
    (noError : ∀ status, .ret status ∈ stages.flatMap (stageCode (setup.context rank sequence call)
      args.count args.datatype args.operation) → status = .success) :
    Holding setup args rank (done ++ stages) (expectedMemory setup rank memory
      (stages.flatMap (stageCode (setup.context rank sequence call) args.count args.datatype
        args.operation))) := by
  induction stages generalizing done memory with
  | nil => simpa using holding
  | cons stage stages ih =>
      rw [List.flatMap_cons] at noError ⊢
      rw [expectedMemory_append, show done ++ stage :: stages = done ++ [stage] ++ stages by simp]
      refine ih (by rw [split]; simp) ?_ fun status member =>
        noError status (List.mem_append_right _ member)
      exact holding_stage found typed bound
        (show _ = done ++ stage :: (stages ++ rest) by rw [split]; simp)
        (fun status member => noError status (List.mem_append_left _ member)) holding

theorem holding_reports {stages : List Nat} {memory : Memory Value}
    (holding : Holding setup args rank stages memory) (context : Context) :
    Holding setup args rank stages
      (expectedMemory setup rank memory (args.reports context)) := by
  rwa [expectedMemory_silent]
  unfold Call.reports
  split <;> simp [Instr.silent]

theorem stageCode_writes {context : Context} {count stage : Nat} {datatype : Datatype}
    {operation : Operation} {instr : Instr}
    (member : instr ∈ stageCode context count datatype operation stage) :
    instr.writesIn
      (blockOffset count context.worldSize (blockAt context.worldSize context.rank (stage + 1)))
      (blockCount count context.worldSize
        (blockAt context.worldSize context.rank (stage + 1))) := by
  rcases mem_stepBody member with ⟨status, rfl⟩ | ⟨post, postIn, rfl | waits⟩ |
    ⟨post, postIn, rfl | rfl⟩
  · rfl
  · rfl
  · obtain ⟨piece, bound, made⟩ := mem_flowPosts.mp postIn
    have positive := pieceElementsFor_pos context.config (datatypeSize datatype)
    rw [receivedFlow_blockCount, pieceCountFor_eq positive, Tiling.lt_tiles_iff _ positive] at bound
    obtain ⟨tag, -, postEq⟩ := postFor_ok made
    have region : post.elementOffset + post.elementCount ≤ blockCount count context.worldSize
        (blockAt context.worldSize context.rank (stage + 1)) := by
      rw [postEq]
      simp only [receivedFlow_blockCount]
      omega
    by_cases early : stage < context.worldSize - 1
    · have flow : post.buffer = .temporary := by rw [postEq]; simp [receivedFlow, early]
      rw [if_pos early] at waits
      rcases List.mem_pair.mp waits with rfl | rfl
      · exact Or.inl flow
      · exact ⟨by omega, by omega⟩
    · have buffer : post.buffer = .workbuf := by rw [postEq]; simp [receivedFlow, early, sentFlow]
      have start : post.start = blockOffset count context.worldSize
          (blockAt context.worldSize context.rank (stage + 1)) + post.elementOffset := by
        rw [postEq]; simp [receivedFlow, early, sentFlow]
      rw [if_neg early] at waits
      rw [List.mem_singleton.mp waits]
      exact Or.inr ⟨buffer, by omega, by omega⟩
  · rfl
  · rfl

theorem payload_in_stage (found : setup.calls[call]? = some args)
    (bound : rank < setup.worldSize) {stage : Nat} {done rest : List Nat}
    (split : args.kind.stages setup.worldSize = done ++ stage :: rest) {memory : Memory Value}
    (holding : Holding setup args rank done memory) {lead after : List Instr} {post : Post}
    (code : stageCode (setup.context rank sequence call) args.count args.datatype args.operation
      stage = lead ++ .postSend post :: after) :
    (expectedMemory setup rank memory lead).load post.buffer post.start post.elementCount =
      setup.payload post.toPiece := by
  have stageBound : stage < 2 * (setup.worldSize - 1) := Kind.mem_stages (by rw [split]; simp)
  have sent : .postSend post ∈ stageCode (setup.context rank sequence call) args.count args.datatype
      args.operation stage := by rw [code]; simp
  obtain ⟨post', postIn, same⟩ : ∃ post' ∈ flowPosts (setup.context rank sequence call)
      (stagePhase setup.worldSize stage) (stageStep setup.worldSize stage)
      (datatypeSize args.datatype) (setup.pieceElements rank args.datatype)
      (sentFlow args.count setup.worldSize (blockAt setup.worldSize rank stage)),
      Instr.postSend post = .postSend post' := by
    rcases mem_stepBody sent with ⟨status, same⟩ | ⟨other, -, same | waits⟩ |
      ⟨other, otherIn, same | same⟩
    · simp at same
    · simp at same
    · split at waits <;> simp at waits
    · exact ⟨other, otherIn, same⟩
    · simp at same
  obtain rfl : post = post' := by simpa using same
  obtain ⟨piece, pieceBound, made⟩ := mem_flowPosts.mp postIn
  have positive : 0 < setup.pieceElements rank args.datatype := pieceElementsFor_pos _ _
  simp only [sentFlow, pieceCountFor_eq positive, Tiling.lt_tiles_iff _ positive] at pieceBound
  obtain ⟨tag, -, postEq⟩ := postFor_ok made
  have stageEq : post.toPiece.stage setup.worldSize = stage :=
    stage_of_phase (by rw [postEq]) (by rw [postEq])
  have payload : setup.payload post.toPiece = (List.range post.elementCount).map fun offset =>
      setup.carried args (blockAt setup.worldSize rank stage) stage (post.start + offset) := by
    unfold Setup.payload
    rw [stageEq, postEq]
    simp [Setup.context, found, sentFlow]
  have buffer : post.buffer = .workbuf := by rw [postEq]; rfl
  have start : post.start = blockOffset args.count setup.worldSize
      (blockAt setup.worldSize rank stage) + piece * setup.pieceElements rank args.datatype := by
    rw [postEq]; rfl
  have length : post.elementCount = min (setup.pieceElements rank args.datatype)
      (blockCount args.count setup.worldSize (blockAt setup.worldSize rank stage) -
        piece * setup.pieceElements rank args.datatype) := by
    rw [postEq]; rfl
  rw [payload, Memory.load, buffer]
  apply List.map_congr_left
  intro offset member
  rw [List.mem_range] at member
  have inside : args.inBlock setup.worldSize (blockAt setup.worldSize rank stage)
      (post.start + offset) := ⟨by omega, by omega⟩
  have inRange : post.start + offset < args.count :=
    Nat.lt_of_lt_of_le inside.2 (block_end_le args.count (blockAt_lt setup.positive _ _))
  have apart : ¬ args.inBlock setup.worldSize (blockAt setup.worldSize rank (stage + 1))
      (post.start + offset) := fun overlap =>
    blockAt_succ_ne bound (by omega) stage (blocks_disjoint _ _ overlap inside)
  have written : ∀ instr ∈ lead, instr.writesIn
      (blockOffset args.count setup.worldSize (blockAt setup.worldSize rank (stage + 1)))
      (blockCount args.count setup.worldSize (blockAt setup.worldSize rank (stage + 1))) := by
    intro instr inLead
    have member : instr ∈ stageCode (setup.context rank sequence call) args.count args.datatype
        args.operation stage := by
      rw [code]
      exact List.mem_append_left _ inLead
    exact stageCode_writes member
  have untouched := expectedMemory_outside setup rank written (outside_of_not_inBlock apart) memory
  rw [untouched, holding _ inRange, held_before_send bound split inside]

def Instr.staged : Instr → Bool
  | .postRecv _ | .postSend _ | .waitRecv _ | .waitSend _ => true
  | .reduce _ _ _ _ _ => true
  | _ => false

theorem accepted_of_performed {done rest : List Instr} {instr : Instr}
    (code : callCode (setup.context rank sequence call) args = done ++ instr :: rest)
    (proceeds : instr ≠ .load call ∧ ∀ status, instr ≠ .ret status)
    (noError : ∀ status, .ret status ∈ done → status = .success) :
    args.accepted setup.worldSize rank := by
  by_contra rejected
  obtain ⟨status, after, error, -, shape⟩ :=
    callCode_rejected (setup.context rank sequence call) rejected
  rw [code] at shape
  rcases done with - | ⟨first, - | ⟨second, others⟩⟩
  · simp only [List.nil_append, List.cons.injEq] at shape
    exact proceeds.1 shape.1
  · simp only [List.cons_append, List.nil_append, List.cons.injEq] at shape
    exact proceeds.2 status shape.2.1
  · simp only [List.cons_append, List.cons.injEq] at shape
    exact error (noError status (by simp [shape.2.1]))

theorem accepted_of_noError {context : Context}
    (noError : ∀ status, .ret status ∈ callCode context args → status = .success) :
    args.accepted context.worldSize context.rank := by
  by_contra rejected
  obtain ⟨error, after, isError, -, shape⟩ := callCode_rejected context rejected
  exact isError (noError error (by simp [shape]))

/-- What a rank has in its work buffer where a stage begins, found from any operation of the stage. -/
theorem holding_in_call (found : setup.calls[call]? = some args) (bound : rank < setup.worldSize)
    {done rest : List Instr} {instr : Instr}
    (code : callCode (setup.context rank sequence call) args = done ++ instr :: rest)
    (staged : instr.staged = true)
    (noError : ∀ status, .ret status ∈ done → status = .success) (memory : Memory Value) :
    ∃ earlier stage later front lead after,
      args.kind.stages setup.worldSize = earlier ++ stage :: later ∧ done = front ++ lead ∧
      stageCode (setup.context rank sequence call) args.count args.datatype args.operation stage =
        lead ++ instr :: after ∧
      Holding setup args rank earlier (expectedMemory setup rank memory front) := by
  have proceeds : instr ≠ .load call ∧ ∀ status, instr ≠ .ret status := by
    constructor
    · rintro rfl
      simp [Instr.staged] at staged
    · rintro status rfl
      simp [Instr.staged] at staged
  have accepted := accepted_of_performed code proceeds noError
  have typed := accepted.1
  have whole := callCode_accepted (setup.context rank sequence call) bound accepted
  rw [code, ← List.cons_append] at whole
  rcases Splits.append_split whole.symm with ⟨_, start, -⟩ | ⟨_, rfl, inSteps⟩
  · exfalso
    have member : instr ∈ (Instr.load (setup.context rank sequence call).call ::
        args.copies (setup.context rank sequence call).rank) := by
      rw [start]
      simp
    rcases List.mem_cons.mp member with same | copied
    · exact proceeds.1 same
    · unfold Call.copies at copied
      split at copied
      · rw [List.mem_singleton.mp copied] at staged
        simp [Instr.staged] at staged
      · simp at copied
  have begun := holding_start rank found memory
  rcases Splits.append_split inSteps with ⟨_, scatter, -⟩ | ⟨_, rfl, afterScatter⟩
  · obtain ⟨earlier, stage, later, lead, after, stagesEq, rfl, inStage, -⟩ :=
      Splits.flatMap_split scatter
    have split : args.kind.stages setup.worldSize =
        earlier ++ stage :: (later ++ args.kind.gatherStages setup.worldSize) := by
      rw [Kind.stages, show args.kind.scatterStages setup.worldSize = _ from stagesEq]
      simp
    refine ⟨earlier, stage, _, _, lead, after, split, (List.append_assoc _ _ _).symm, inStage, ?_⟩
    rw [expectedMemory_append]
    exact holding_stages sequence found typed bound
      (show _ = [] ++ earlier ++ _ by simpa using split) begun
      fun status member => noError status (by simp only [List.mem_append]; tauto)
  have scattered := holding_stages sequence found typed bound
    (show _ = [] ++ _ ++ args.kind.gatherStages setup.worldSize from rfl) begun
    fun status member => noError status (by simp only [List.mem_append]; tauto)
  have reported := holding_reports scattered (setup.context rank sequence call)
  rcases Splits.append_split afterScatter with ⟨_, reports, -⟩ | ⟨_, rfl, afterReports⟩
  · exfalso
    have member : instr ∈ args.reports (setup.context rank sequence call) := by
      simp [reports]
    unfold Call.reports at member
    split at member
    · simp at member
    · rw [List.mem_singleton.mp member] at staged
      simp [Instr.staged] at staged
  rcases Splits.append_split afterReports with ⟨_, gather, -⟩ | ⟨_, rfl, ending⟩
  · obtain ⟨earlier, stage, later, lead, after, stagesEq, rfl, inStage, -⟩ :=
      Splits.flatMap_split gather
    have split : args.kind.stages setup.worldSize =
        (args.kind.scatterStages setup.worldSize ++ earlier) ++ stage :: later := by
      rw [Kind.stages, show args.kind.gatherStages setup.worldSize = _ from stagesEq]
      simp
    refine ⟨_, stage, later, (Instr.load (setup.context rank sequence call).call ::
        args.copies (setup.context rank sequence call).rank) ++
      ((args.kind.scatterStages (setup.context rank sequence call).worldSize).flatMap
          (stageCode (setup.context rank sequence call) args.count args.datatype args.operation) ++
        (args.reports (setup.context rank sequence call) ++ earlier.flatMap
          (stageCode (setup.context rank sequence call) args.count args.datatype args.operation))),
      lead, after, split, by simp only [List.append_assoc], inStage, ?_⟩
    rw [expectedMemory_append, expectedMemory_append, expectedMemory_append]
    exact holding_stages sequence found typed bound split reported
      fun status member => noError status (by simp only [List.mem_append]; tauto)
  · exfalso
    have member : instr ∈ args.kind.ending := by simp [ending]
    cases kind : args.kind <;> rw [kind, Kind.ending] at member <;> simp at member
    · rcases member with rfl | rfl <;> simp [Instr.staged] at staged
    · rw [member] at staged
      simp [Instr.staged] at staged
    · rw [member] at staged
      simp [Instr.staged] at staged

/-- What a rank passes on is what the piece should carry, wherever in a call it posts it. -/
theorem payload_in_call (found : setup.calls[call]? = some args) (bound : rank < setup.worldSize)
    {done rest : List Instr} {post : Post}
    (code : callCode (setup.context rank sequence call) args = done ++ .postSend post :: rest)
    (noError : ∀ status, .ret status ∈ done → status = .success) (memory : Memory Value) :
    (expectedMemory setup rank memory done).load post.buffer post.start post.elementCount =
      setup.payload post.toPiece := by
  obtain ⟨earlier, stage, later, front, lead, after, split, rfl, inStage, holding⟩ :=
    holding_in_call found bound code rfl noError memory
  rw [expectedMemory_append]
  exact payload_in_stage found bound split holding inStage

theorem holding_call (found : setup.calls[call]? = some args) (bound : rank < setup.worldSize)
    (noError : ∀ status, .ret status ∈ callCode (setup.context rank sequence call) args →
      status = .success) (memory : Memory Value) :
    Holding setup args rank (args.kind.stages setup.worldSize)
      (expectedMemory setup rank memory (callCode (setup.context rank sequence call) args)) := by
  obtain ⟨front, status, ends⟩ := callCode_ends (setup.context rank sequence call) args
  have accepted := accepted_of_noError noError
  have typed := accepted.1
  have whole := callCode_accepted (setup.context rank sequence call) bound accepted
  rw [whole] at noError ⊢
  have begun := holding_start rank found memory
  have scattered := holding_stages sequence found typed bound
    (show _ = [] ++ _ ++ args.kind.gatherStages setup.worldSize from rfl) begun
    fun status member => noError status (by simp only [List.mem_cons, List.mem_append]; tauto)
  have reported := holding_reports scattered (setup.context rank sequence call)
  have gathered := holding_stages sequence found typed bound
    (show _ = _ ++ args.kind.gatherStages setup.worldSize ++ [] by rw [List.append_nil]; rfl)
    reported
    fun status member => noError status (by simp only [List.mem_cons, List.mem_append]; tauto)
  have quiet : ∀ instr ∈ args.kind.ending, instr.silent = true := by
    cases args.kind <;> simp [Kind.ending, Instr.silent]
  rw [← List.cons_append, expectedMemory_append, expectedMemory_append, expectedMemory_append,
    expectedMemory_append, expectedMemory_silent setup rank _ quiet]
  exact gathered

end Code

end RingAllReduce
