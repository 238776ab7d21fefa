import RingAllReduce.CallValues

/-!
No rank touches memory it has handed to the transport: whatever the transport does, an operation
reads and writes nothing an open receive covers, writes nothing an open send covers, and the
receives that are open together lie apart from each other and from the open sends.
-/

namespace RingAllReduce

open Exchange Rotation

variable {Value Net Request : Type}

/-- Whether an element lies in the range a post hands to the transport. -/
def Post.covers (post : Post) (buffer : Buffer) (index : Nat) : Prop :=
  buffer = post.buffer ∧ post.start ≤ index ∧ index < post.start + post.elementCount

/-- The elements an operation of the rank itself reads. -/
def Instr.reads (instr : Instr) (buffer : Buffer) (index : Nat) : Prop :=
  match instr with
  | .copyInput count => buffer = .sendbuf ∧ index < count
  | .reduce destination source count _ _ =>
      (buffer = .workbuf ∧ destination ≤ index ∧ index < destination + count) ∨
        (buffer = .temporary ∧ source ≤ index ∧ index < source + count)
  | _ => False

/-- The elements an operation of the rank itself writes; the caller of a collective hands over
buffers with any contents. -/
def Instr.writes (instr : Instr) (buffer : Buffer) (index : Nat) : Prop :=
  match instr with
  | .load _ => buffer ≠ .temporary
  | .copyInput count => buffer = .workbuf ∧ index < count
  | .reduce destination _ count _ _ =>
      buffer = .workbuf ∧ destination ≤ index ∧ index < destination + count
  | _ => False

/-- The receives of a batch lie apart from each other and from its sends. -/
structure Apart (recvs sends : List Post) : Prop where
  unique : ∀ first ∈ recvs, ∀ second ∈ recvs, ∀ buffer index, first.covers buffer index →
    second.covers buffer index → first = second
  separate : ∀ recv ∈ recvs, ∀ send ∈ sends, ∀ buffer index, recv.covers buffer index →
    ¬ send.covers buffer index

theorem Apart.subset {recvs sends fewRecvs fewSends : List Post} (apart : Apart recvs sends)
    (inRecvs : fewRecvs ⊆ recvs) (inSends : fewSends ⊆ sends) : Apart fewRecvs fewSends :=
  ⟨fun first firstIn second secondIn =>
    apart.unique first (inRecvs firstIn) second (inRecvs secondIn),
   fun recv recvIn send sendIn => apart.separate recv (inRecvs recvIn) send (inSends sendIn)⟩

section Flow

variable {context : Context} {phase : CollectivePhase} {step elementSize pieceElements : Nat}

theorem flowPost_range (positive : 0 < pieceElements) {flow : Flow} {post : Post}
    (member : post ∈ flowPosts context phase step elementSize pieceElements flow) :
    post.buffer = flow.buffer ∧ post.start = flow.start + post.elementOffset ∧
      post.elementOffset = post.pieceIndex * pieceElements ∧
      post.elementCount ≤ pieceElements ∧
      post.elementOffset + post.elementCount ≤ flow.blockCount ∧
      postFor context phase step elementSize pieceElements flow post.pieceIndex = .ok post := by
  obtain ⟨piece, bound, made⟩ := mem_flowPosts.mp member
  rw [pieceCountFor_eq positive, Tiling.lt_tiles_iff _ positive] at bound
  obtain ⟨tag, -, postEq⟩ := postFor_ok made
  have index : post.pieceIndex = piece := by rw [postEq]
  refine ⟨by rw [postEq], by rw [postEq], by rw [postEq], ?_, ?_, by rw [index]; exact made⟩
  · rw [postEq]
    simp only
    omega
  · rw [postEq]
    simp only
    omega

theorem flowPosts_apart (positive : 0 < pieceElements) {flow : Flow} {first second : Post}
    (firstIn : first ∈ flowPosts context phase step elementSize pieceElements flow)
    (secondIn : second ∈ flowPosts context phase step elementSize pieceElements flow)
    (index : Nat) (inFirst : first.elementOffset ≤ index ∧
      index < first.elementOffset + first.elementCount)
    (inSecond : second.elementOffset ≤ index ∧
      index < second.elementOffset + second.elementCount) : first = second := by
  obtain ⟨-, -, firstOffset, firstCount, -, firstMade⟩ := flowPost_range positive firstIn
  obtain ⟨-, -, secondOffset, secondCount, -, secondMade⟩ := flowPost_range positive secondIn
  have same : first.pieceIndex = second.pieceIndex := by
    rcases Nat.lt_trichotomy first.pieceIndex second.pieceIndex with less | equal | greater
    · have apart := Nat.mul_le_mul_right pieceElements (Nat.succ_le_of_lt less)
      rw [Nat.succ_mul] at apart
      omega
    · exact equal
    · have apart := Nat.mul_le_mul_right pieceElements (Nat.succ_le_of_lt greater)
      rw [Nat.succ_mul] at apart
      omega
  rw [same, secondMade] at firstMade
  exact (Except.ok.inj firstMade).symm

end Flow

section Stage

variable (context : Context) (count : Nat) (datatype : Datatype) (stage : Nat)

def stageRecvs : List Post :=
  flowPosts context (stagePhase context.worldSize stage) (stageStep context.worldSize stage)
    (datatypeSize datatype) (pieceElementsFor context.config (datatypeSize datatype))
    (receivedFlow count context.worldSize stage
      (blockAt context.worldSize context.rank (stage + 1)))

def stageSends : List Post :=
  flowPosts context (stagePhase context.worldSize stage) (stageStep context.worldSize stage)
    (datatypeSize datatype) (pieceElementsFor context.config (datatypeSize datatype))
    (sentFlow count context.worldSize (blockAt context.worldSize context.rank stage))

/-- No element lies in both the block a stage sends and the block it receives. -/
theorem stage_blocks_apart (bound : context.rank < context.worldSize)
    (several : 1 < context.worldSize) (index : Nat)
    (inRecv : blockOffset count context.worldSize
        (blockAt context.worldSize context.rank (stage + 1)) ≤ index ∧
      index < blockOffset count context.worldSize
          (blockAt context.worldSize context.rank (stage + 1)) +
        blockCount count context.worldSize
          (blockAt context.worldSize context.rank (stage + 1)))
    (inSend : blockOffset count context.worldSize
        (blockAt context.worldSize context.rank stage) ≤ index ∧
      index < blockOffset count context.worldSize (blockAt context.worldSize context.rank stage) +
        blockCount count context.worldSize (blockAt context.worldSize context.rank stage)) :
    False :=
  blockAt_succ_ne bound several stage (blocks_disjoint _ _ inRecv inSend)

theorem stage_apart (bound : context.rank < context.worldSize) (several : 1 < context.worldSize) :
    Apart (stageRecvs context count datatype stage) (stageSends context count datatype stage) := by
  have positive := pieceElementsFor_pos context.config (datatypeSize datatype)
  constructor
  · rintro first firstIn second secondIn buffer index ⟨-, firstLower, firstUpper⟩
      ⟨-, secondLower, secondUpper⟩
    obtain ⟨-, firstStart, -⟩ := flowPost_range positive firstIn
    obtain ⟨-, secondStart, -⟩ := flowPost_range positive secondIn
    generalize (receivedFlow count context.worldSize stage
      (blockAt context.worldSize context.rank (stage + 1))).start = start
      at firstStart secondStart
    exact flowPosts_apart positive firstIn secondIn (index - start)
      ⟨by omega, by omega⟩ ⟨by omega, by omega⟩
  · rintro recv recvIn send sendIn buffer index ⟨recvBuffer, recvLower, recvUpper⟩
      ⟨sendBuffer, sendLower, sendUpper⟩
    obtain ⟨recvIs, recvStart, -, -, recvEnd, -⟩ := flowPost_range positive recvIn
    obtain ⟨sendIs, sendStart, -, -, sendEnd, -⟩ := flowPost_range positive sendIn
    rw [receivedFlow_blockCount] at recvEnd
    simp only [sentFlow] at sendIs sendStart sendEnd
    by_cases early : stage < context.worldSize - 1
    · simp only [receivedFlow, early, if_true] at recvIs
      rw [recvBuffer, recvIs, sendIs] at sendBuffer
      simp at sendBuffer
    · simp only [receivedFlow, early, if_false, sentFlow] at recvStart
      exact stage_blocks_apart context count stage bound several index
        ⟨by omega, by omega⟩ ⟨by omega, by omega⟩

theorem stageBatch_subset (index : Nat) :
    (stageBatch context count datatype stage index).recvs ⊆
        stageRecvs context count datatype stage ∧
      (stageBatch context count datatype stage index).sends ⊆
        stageSends context count datatype stage := by
  constructor
  · intro post member
    obtain ⟨piece, -, -, bound, made⟩ := mem_batchPosts member
    exact mem_flowPosts.mpr ⟨piece, bound, made⟩
  · intro post member
    obtain ⟨piece, -, -, bound, made⟩ := mem_batchPosts member
    exact mem_flowPosts.mpr ⟨piece, bound, made⟩

end Stage

section Plan

variable {setup : Setup Value} {rank : Nat} {done : List (Event Post)}

/-- A batch of a schedule belongs to a stage, and there are two ranks at least. -/
theorem Setup.mem_planUpTo {calls : Nat} {batch : Batch Post}
    (member : batch ∈ setup.planUpTo rank calls) :
    ∃ call < calls, ∃ args stage index, setup.calls[call]? = some args ∧
      args.datatype.supported = true ∧ stage ∈ args.kind.stages setup.worldSize ∧
      batch = stageBatch (setup.context rank (setup.sequenceAt call) call) args.count args.datatype
        stage index := by
  obtain ⟨place, placeIn, batchIn⟩ := List.mem_flatMap.mp member
  obtain ⟨args, index, found, batchEq⟩ := setup.mem_batchesAt batchIn
  obtain ⟨call, callIn, inCall⟩ := List.mem_flatMap.mp placeIn
  split at inCall
  · rename_i args' found'
    split at inCall
    · rename_i typed
      obtain ⟨stage, stageIn, rfl⟩ := List.mem_map.mp inCall
      obtain rfl : args' = args := by simpa [found'] using found
      exact ⟨call, List.mem_range.mp callIn, args', stage, index, found', typed, stageIn, batchEq⟩
    · simp at inCall
  · simp at inCall

theorem Setup.mem_plan {batch : Batch Post} (member : batch ∈ setup.plan rank) :
    ∃ call args stage index, setup.calls[call]? = some args ∧ args.datatype.supported = true ∧
      stage ∈ args.kind.stages setup.worldSize ∧ batch = stageBatch
        (setup.context rank (setup.sequenceAt call) call) args.count args.datatype stage index := by
  obtain ⟨call, -, args, stage, index, found, typed, stageIn, batchEq⟩ := setup.mem_planUpTo member
  exact ⟨call, args, stage, index, found, typed, stageIn, batchEq⟩

theorem plan_call {batch : Batch Post} (member : batch ∈ setup.plan rank) {post : Post}
    (postIn : post ∈ batch.items) :
    ∃ args, setup.calls[post.call]? = some args ∧ args.datatype.supported = true := by
  obtain ⟨call, args, stage, index, found, typed, -, rfl⟩ := setup.mem_plan member
  obtain ⟨callEq, -⟩ := mem_stageBatch_items postIn
  exact ⟨args, by rw [callEq]; exact found, typed⟩

theorem plan_apart (bound : rank < setup.worldSize) {batch : Batch Post}
    (member : batch ∈ setup.plan rank) : Apart batch.recvs batch.sends := by
  obtain ⟨call, args, stage, index, found, typed, stageIn, rfl⟩ := setup.mem_plan member
  have several := Kind.mem_stages stageIn
  have subset := stageBatch_subset (setup.context rank (setup.sequenceAt call) call) args.count
    args.datatype stage index
  have apart := stage_apart (setup.context rank (setup.sequenceAt call) call) args.count
    args.datatype stage bound (show 1 < setup.worldSize by omega)
  exact apart.subset subset.1 subset.2

theorem plan_nodup {batch : Batch Post} (member : batch ∈ setup.plan rank) :
    batch.recvs.Nodup ∧ batch.sends.Nodup := by
  obtain ⟨call, args, stage, index, found, typed, stageIn, rfl⟩ := setup.mem_plan member
  constructor <;> exact nodup_of_sorted (posted_sorted _ _ _ _ _ _ List.pairwise_lt_range')

/-- Within a batch, tags and piece numbers tell the posts of either direction apart. -/
theorem posted_distinct {context : Context} {phase : CollectivePhase}
    {step elementSize pieceElements index : Nat} {flow : Flow} {first second : Post}
    (firstIn : first ∈ posted (batchPosts context phase step elementSize pieceElements flow index))
    (secondIn : second ∈
      posted (batchPosts context phase step elementSize pieceElements flow index))
    (same : first.tag = second.tag ∨ first.pieceIndex = second.pieceIndex) : first = second := by
  obtain ⟨piece, -, -, -, made⟩ := mem_batchPosts firstIn
  obtain ⟨piece', -, -, -, made'⟩ := mem_batchPosts secondIn
  obtain ⟨tag, tagMade, firstEq⟩ := postFor_ok made
  obtain ⟨tag', tagMade', secondEq⟩ := postFor_ok made'
  have equal : piece = piece' := by
    rcases same with tags | numbers
    · rw [firstEq, secondEq] at tags
      exact ((makeTag_eq_iff tagMade tagMade').mp tags).2.2.2
    · rw [firstEq, secondEq] at numbers
      exact numbers
  rw [equal, made'] at made
  exact (Except.ok.inj made).symm

theorem plan_distinct {batch : Batch Post} (member : batch ∈ setup.plan rank) :
    (∀ first ∈ batch.recvs, ∀ second ∈ batch.recvs,
      first.tag = second.tag ∨ first.pieceIndex = second.pieceIndex → first = second) ∧
    ∀ first ∈ batch.sends, ∀ second ∈ batch.sends,
      first.tag = second.tag ∨ first.pieceIndex = second.pieceIndex → first = second := by
  obtain ⟨call, args, stage, index, -, -, -, rfl⟩ := setup.mem_plan member
  exact ⟨fun _ firstIn _ secondIn same => posted_distinct firstIn secondIn same,
    fun _ firstIn _ secondIn same => posted_distinct firstIn secondIn same⟩

theorem open_distinct (ahead : done <+: run (setup.plan rank)) :
    (∀ first ∈ openRecvs done, ∀ second ∈ openRecvs done,
      first.tag = second.tag ∨ first.pieceIndex = second.pieceIndex → first = second) ∧
    ∀ first ∈ openSends done, ∀ second ∈ openSends done,
      first.tag = second.tag ∨ first.pieceIndex = second.pieceIndex → first = second := by
  rcases open_within ahead with ⟨noRecvs, noSends⟩ | ⟨batch, member, recvs, sends⟩
  · rw [noRecvs, noSends]
    simp
  · obtain ⟨inRecvs, inSends⟩ := plan_distinct member
    exact ⟨fun first firstIn second secondIn =>
        inRecvs first (recvs.subset firstIn) second (recvs.subset secondIn),
      fun first firstIn second secondIn =>
        inSends first (sends.subset firstIn) second (sends.subset secondIn)⟩

theorem open_apart (bound : rank < setup.worldSize) (ahead : done <+: run (setup.plan rank)) :
    Apart (openRecvs done) (openSends done) := by
  rcases open_within ahead with ⟨noRecvs, noSends⟩ | ⟨batch, member, recvs, sends⟩
  · rw [noRecvs, noSends]
    exact ⟨by simp, by simp⟩
  · exact (plan_apart bound member).subset recvs.subset sends.subset

theorem open_nodup (ahead : done <+: run (setup.plan rank)) :
    (openRecvs done).Nodup ∧ (openSends done).Nodup := by
  rcases open_within ahead with ⟨noRecvs, noSends⟩ | ⟨batch, member, recvs, sends⟩
  · simp [noRecvs, noSends]
  · obtain ⟨recvsNodup, sendsNodup⟩ := plan_nodup member
    exact ⟨recvs.sublist.nodup recvsNodup, sends.sublist.nodup sendsNodup⟩

end Plan

/-- Where in a call an operation stands. -/
inductive Spot (setup : Setup Value) (args : Call Value) (rank call : Nat) (sequence : UInt32)
    (done : List Instr) (instr : Instr) : Prop
  | start (same : instr = .load call) (first : done = [])
  | copy (count : Nat) (same : instr = .copyInput count) (first : events done = [])
  | stage (stage : Nat) (member : stage ∈ args.kind.stages setup.worldSize)
      (lead after : List Instr) (batches : List (Batch Post))
      (code : stageCode (setup.context rank sequence call) args.count args.datatype args.operation
        stage = lead ++ instr :: after)
      (earlier : events done = run batches ++ events lead)
  | between (silent : instr.silent = true) (noEvent : instr.event = none)

section Code

variable {setup : Setup Value} {args : Call Value} {rank call : Nat} {sequence : UInt32}

theorem spot_of_code (bound : rank < setup.worldSize) {done rest : List Instr} {instr : Instr}
    (code : callCode (setup.context rank sequence call) args = done ++ instr :: rest)
    (noError : ∀ status, .ret status ∈ done → status = .success) :
    Spot setup args rank call sequence done instr := by
  by_cases first : instr = .load call ∨ ∃ status, instr = .ret status
  · rcases first with rfl | ⟨status, rfl⟩
    · rcases done with - | ⟨head, done⟩
      · exact .start rfl rfl
      · exfalso
        obtain ⟨body, inner, shape⟩ := callCode_shape (setup.context rank sequence call) args
        have inBody : .load call ∈ body ++ args.kind.ending := by
          rcases shape with shape | ⟨-, -, shape⟩
          · rw [shape] at code
            simp only [List.cons_append, List.cons.injEq] at code
            rw [code.2]
            simp
          · rw [shape] at code
            simp only [List.cons_append, List.cons.injEq] at code
            rw [code.2]
            simp
        rcases List.mem_append.mp inBody with early | ending
        · exact inner _ early
        · cases kind : args.kind <;> simp [kind, Kind.ending] at ending
    · exact .between rfl rfl
  simp only [not_or, not_exists] at first
  have accepted := accepted_of_performed code first noError
  have whole := callCode_accepted (setup.context rank sequence call) bound accepted
  have staged : ∀ stages : List Nat, events (stages.flatMap (stageCode (setup.context rank sequence
      call) args.count args.datatype args.operation)) = run (stages.flatMap (stageBatches
        (setup.context rank sequence call) args.count args.datatype)) := by
    intro stages
    rw [events_flatMap, run, List.flatMap_assoc]
    exact List.flatMap_congr fun stage _ => events_stageCode _ _ _ _ _
  have copies : events (args.copies rank) = [] := by
    unfold Call.copies
    split <;> simp [Instr.event]
  rw [code, ← List.singleton_append (x := Instr.load _)] at whole
  rcases Splits.append_split whole.symm with ⟨_, start, -⟩ | ⟨_, rfl, afterLoad⟩
  · exfalso
    have member : instr ∈ [Instr.load (setup.context rank sequence call).call] := by simp [start]
    exact first.1 (List.mem_singleton.mp member)
  rcases Splits.append_split afterLoad with ⟨_, copy, -⟩ | ⟨_, rfl, afterCopy⟩
  · have member : instr ∈ args.copies rank := by
      rw [show args.copies rank = _ from copy]
      simp
    unfold Call.copies at member copy
    split at member
    · rename_i copied
      change (if args.kind = .allReduce ∧ args.inPlace rank = false then _ else _) = _ at copy
      rw [if_pos copied, List.singleton_eq_append_iff] at copy
      rcases copy with ⟨rfl, -⟩ | ⟨-, absurdity⟩
      · exact .copy args.count (List.mem_singleton.mp member) (by simp [Instr.event])
      · simp at absurdity
    · simp at member
  rcases Splits.append_split afterCopy with ⟨_, scatter, -⟩ | ⟨_, rfl, afterScatter⟩
  · obtain ⟨earlier, stage, later, lead, after, stagesEq, rfl, inStage, -⟩ :=
      Splits.flatMap_split scatter
    refine .stage stage ?_ lead after (earlier.flatMap (stageBatches
      (setup.context rank sequence call) args.count args.datatype)) inStage ?_
    · rw [Kind.stages, show args.kind.scatterStages setup.worldSize = _ from stagesEq]
      simp
    · simp only [events_append, events_cons, events_nil, Instr.event, Option.toList_none,
        List.nil_append]
      rw [show events (args.copies (setup.context rank sequence call).rank) = [] from copies, staged]
      rfl
  rcases Splits.append_split afterScatter with ⟨_, reports, -⟩ | ⟨_, rfl, afterReports⟩
  · have member : instr ∈ args.reports (setup.context rank sequence call) := by simp [reports]
    unfold Call.reports at member
    split at member
    · simp at member
    · rw [List.mem_singleton.mp member]
      exact .between rfl rfl
  rcases Splits.append_split afterReports with ⟨_, gather, -⟩ | ⟨_, rfl, ending⟩
  · obtain ⟨earlier, stage, later, lead, after, stagesEq, rfl, inStage, -⟩ :=
      Splits.flatMap_split gather
    refine .stage stage ?_ lead after ((args.kind.scatterStages setup.worldSize).flatMap
      (stageBatches (setup.context rank sequence call) args.count args.datatype) ++
        earlier.flatMap (stageBatches (setup.context rank sequence call) args.count args.datatype))
      inStage ?_
    · rw [Kind.stages, show args.kind.gatherStages setup.worldSize = _ from stagesEq]
      simp
    · have reports : events (args.reports (setup.context rank sequence call)) = [] := by
        unfold Call.reports
        split <;> simp [Instr.event]
      simp only [events_append, events_cons, events_nil, Instr.event, Option.toList_none,
        List.nil_append, reports]
      rw [show events (args.copies (setup.context rank sequence call).rank) = [] from copies, staged,
        staged, List.nil_append, ← List.append_assoc, run_append]
      rfl
  · have member : instr ∈ args.kind.ending := by simp [ending]
    cases kind : args.kind with
    | allReduce =>
        simp only [kind, Kind.ending] at member
        rcases List.mem_pair.mp member with rfl | rfl <;> exact .between rfl rfl
    | reduceScatter | allGather =>
        simp only [kind, Kind.ending] at member
        rw [List.mem_singleton.mp member]
        exact .between rfl rfl

theorem reduce_after_wait {context : Context} {count stage : Nat} {datatype : Datatype}
    {operation : Operation} {lead after : List Instr} {destination source elements : Nat}
    {datatype' : Datatype} {operation' : Operation}
    (code : stageCode context count datatype operation stage =
      lead ++ .reduce destination source elements datatype' operation' :: after) :
    ∃ before post, lead = before ++ [.waitRecv post] ∧
      post ∈ stageRecvs context count datatype stage ∧ stage < context.worldSize - 1 ∧
      destination = blockOffset count context.worldSize
        (blockAt context.worldSize context.rank (stage + 1)) + post.elementOffset ∧
      source = post.elementOffset ∧ elements = post.elementCount := by
  obtain ⟨batches, batch, -, inner, tail, -, rfl, inBatch, -⟩ := Splits.flatMap_split code
  have quiet : ∀ {make : Post → Instr} {posts : List (Except Status Post)} {left right : List Instr},
      (∀ post, ∀ d s c dt op, make post ≠ .reduce d s c dt op) →
      postAll make posts = left ++ .reduce destination source elements datatype' operation' :: right →
        False := by
    intro make posts left right never here
    have member : .reduce destination source elements datatype' operation' ∈ postAll make posts := by
      simp [here]
    obtain ⟨made, -, same⟩ := List.mem_map.mp member
    cases made with
    | ok post => exact never post _ _ _ _ _ same
    | error status => simp at same
  rw [batchBody, List.append_assoc, List.append_assoc] at inBatch
  rcases Splits.append_split inBatch with ⟨_, here, -⟩ | ⟨_, rfl, inSends⟩
  · exact (quiet (by simp) here).elim
  rcases Splits.append_split inSends with ⟨_, here, -⟩ | ⟨_, rfl, inWaits⟩
  · exact (quiet (by simp) here).elim
  rcases Splits.append_split inWaits with ⟨_, here, -⟩ | ⟨_, rfl, here⟩
  · obtain ⟨earlier, post, later, front, back, postsEq, rfl, inWait, -⟩ := Splits.flatMap_split here
    have postIn : post ∈ stageRecvs context count datatype stage := by
      apply (stageBatch_subset context count datatype stage batch).1
      rw [show (stageBatch context count datatype stage batch).recvs = _ from postsEq]
      simp
    split at inWait
    · rename_i early
      rcases front with - | ⟨head, front⟩
      · simp at inWait
      · simp only [List.cons_append, List.cons.injEq] at inWait
        obtain ⟨rfl, inWait⟩ := inWait
        rcases front with - | ⟨head, front⟩
        · simp only [List.nil_append, List.cons.injEq, Instr.reduce.injEq] at inWait
          obtain ⟨⟨rfl, rfl, rfl, -, -⟩, -⟩ := inWait
          exact ⟨_, post, by simp only [← List.append_assoc]; rfl, postIn, early, rfl, rfl, rfl⟩
        · simp at inWait
    · rcases front with - | ⟨head, front⟩ <;> simp at inWait
  · exfalso
    have member : Instr.reduce destination source elements datatype' operation' ∈
        (posted (batchPosts context (stagePhase context.worldSize stage)
          (stageStep context.worldSize stage) (datatypeSize datatype) (pieceElementsFor context.config
            (datatypeSize datatype)) (sentFlow count context.worldSize
            (blockAt context.worldSize context.rank stage)) batch)).map Instr.waitSend := by
      rw [here]
      simp
    simp at member

end Code

/-- What an operation may not touch while requests are open. -/
structure RaceFree (done : List (Event Post)) (instr : Instr) : Prop where
  recvs : ∀ request ∈ openRecvs done, ∀ buffer index, request.covers buffer index →
    ¬ instr.reads buffer index ∧ ¬ instr.writes buffer index
  sends : ∀ request ∈ openSends done, ∀ buffer index, request.covers buffer index →
    ¬ instr.writes buffer index

theorem RaceFree.nothing_open {done : List (Event Post)} {instr : Instr}
    (noRecvs : openRecvs done = []) (noSends : openSends done = []) : RaceFree done instr :=
  ⟨by simp [noRecvs], by simp [noSends]⟩

theorem RaceFree.untouched {done : List (Event Post)} {instr : Instr}
    (reads : ∀ buffer index, ¬ instr.reads buffer index)
    (writes : ∀ buffer index, ¬ instr.writes buffer index) : RaceFree done instr :=
  ⟨fun _ _ buffer index _ => ⟨reads buffer index, writes buffer index⟩,
   fun _ _ buffer index _ => writes buffer index⟩

theorem raceFree_in_stage (context : Context) {count stage : Nat} {datatype : Datatype}
    {operation : Operation} (bound : context.rank < context.worldSize)
    (several : 1 < context.worldSize) (inflight : 0 < context.config.maxInflight)
    {lead after : List Instr} {instr : Instr}
    (code : stageCode context count datatype operation stage = lead ++ instr :: after) :
    RaceFree (events lead) instr := by
  have apart := stage_apart context count datatype stage bound several
  have sizePos := pieceElementsFor_pos context.config (datatypeSize datatype)
  have ahead : events lead <+: run (stageBatches context count datatype stage) := by
    rw [← events_stageCode context count datatype operation stage, code, events_append]
    exact List.prefix_append _ _
  have recvPosts_eq := recvPosts_eq_append_open ahead
  have inRecvs : recvPosts (events lead) <+: stageRecvs context count datatype stage := by
    obtain ⟨tail, split⟩ := ahead
    have whole := congrArg recvPosts split
    rw [recvPosts_append, recvPosts_run, stageBatches, allRecvs_stepBatches inflight] at whole
    exact ⟨_, whole⟩
  have inSends : sendPosts (events lead) <+: stageSends context count datatype stage := by
    obtain ⟨tail, split⟩ := ahead
    have whole := congrArg sendPosts split
    rw [sendPosts_append, sendPosts_run, stageBatches, allSends_stepBatches inflight] at whole
    exact ⟨_, whole⟩
  have isRecv : openRecvs (events lead) ⊆ stageRecvs context count datatype stage := fun post member =>
    inRecvs.subset (List.mem_of_mem_drop member)
  have isSend : openSends (events lead) ⊆ stageSends context count datatype stage := fun post member =>
    inSends.subset (List.mem_of_mem_drop member)
  have here : instr ∈ stageCode context count datatype operation stage := by simp [code]
  cases instr with
  | reduce destination source elements datatype' operation' =>
      obtain ⟨before, post, leadEq, postIn, early, rfl, rfl, rfl⟩ := reduce_after_wait code
      obtain ⟨-, -, -, -, postEnd, -⟩ := flowPost_range sizePos postIn
      rw [receivedFlow_blockCount] at postEnd
      have waited : post ∈ recvWaits (events lead) := by simp [leadEq, Instr.event]
      have nodup : (recvPosts (events lead)).Nodup := inRecvs.sublist.nodup
        (nodup_of_sorted (posted_sorted _ _ _ _ _ _ List.pairwise_lt_range))
      constructor
      · rintro request requestIn buffer index ⟨bufferEq, lower, upper⟩
        obtain ⟨requestIs, requestStart, -⟩ := flowPost_range sizePos (isRecv requestIn)
        simp only [receivedFlow, early, if_true] at requestIs requestStart
        have different : post ≠ request := by
          rintro rfl
          rw [recvPosts_eq] at nodup
          exact List.disjoint_of_nodup_append nodup waited requestIn
        rw [requestIs] at bufferEq
        subst bufferEq
        constructor
        · rintro (⟨wrong, -⟩ | ⟨-, inside⟩)
          · simp at wrong
          · exact different (flowPosts_apart sizePos postIn (isRecv requestIn) _ inside
              ⟨by omega, by omega⟩)
        · rintro ⟨wrong, -⟩
          simp at wrong
      · rintro request requestIn buffer index ⟨bufferEq, lower, upper⟩ ⟨-, inside⟩
        obtain ⟨-, requestStart, -, -, requestEnd, -⟩ := flowPost_range sizePos (isSend requestIn)
        simp only [sentFlow] at requestStart requestEnd
        exact stage_blocks_apart context count stage bound several index
          ⟨by omega, by omega⟩ ⟨by omega, by omega⟩
  | copyInput elements =>
      exfalso
      have writes := stageCode_writes here
      simp [Instr.writesIn, Instr.silent] at writes
  | load number =>
      exfalso
      have writes := stageCode_writes here
      simp [Instr.writesIn, Instr.silent] at writes
  | _ => exact .untouched (fun _ _ => id) (fun _ _ => id)

theorem OnSchedule.underway {setup : Setup Value} {rank : Nat} {state : RankState Request}
    (onSchedule : OnSchedule setup rank state) (bound : rank < setup.worldSize) {instr : Instr}
    {rest : List Instr} (todo : state.todo = instr :: rest) :
    ∃ call args done, setup.calls[call]? = some args ∧
      callCode (setup.context rank (setup.sequenceAt call) call) args = done ++ instr :: rest ∧
      state.log = setup.codeUpTo rank call ++ done ∧
      state.results = List.replicate call .success ∧
      (∀ status, .ret status ∈ done → status = .success) ∧
      events state.log = run (setup.planUpTo rank call) ++ events done := by
  obtain ⟨control, noError⟩ := onSchedule
  cases control with
  | inside call args found done code busy results sequence log =>
      rw [todo, Setup.code, found] at code
      rw [log] at noError
      refine ⟨call, args, done, found, code, log, results, fun status member =>
        noError status (List.mem_append_right _ member), ?_⟩
      have callBound := (List.getElem?_eq_some_iff.mp found).1
      rw [log, events_append, events_codeUpTo bound (by omega) fun status member =>
        noError status (List.mem_append_left _ member)]
  | between calls callsBound idle results sequence log => simp [idle] at todo
  | failed call args found done other rest code idle status error results log =>
      simp [idle] at todo

section Next

variable {setup : Setup Value} {rank : Nat} {state : RankState Request} {post : Post}
  {rest : List Instr}

/-- A receive that is about to be posted is told from the open ones by its tag and its number,
and lies apart from them. -/
theorem OnSchedule.postRecv_new (onSchedule : OnSchedule setup rank state)
    (bound : rank < setup.worldSize) (todo : state.todo = .postRecv post :: rest) :
    openRecvs (events state.log ++ [.postRecv post]) = openRecvs (events state.log) ++ [post] ∧
      ∀ other ∈ openRecvs (events state.log), other.tag ≠ post.tag ∧
        other.pieceIndex ≠ post.pieceIndex ∧
          ∀ buffer index, other.covers buffer index → ¬ post.covers buffer index := by
  obtain ⟨after, split⟩ := onSchedule.events_next bound todo rfl
  have ahead : events state.log <+: run (setup.plan rank) := ⟨_, split.symm⟩
  have aheadNext : events state.log ++ [.postRecv post] <+: run (setup.plan rank) :=
    ⟨after, by rw [split]; simp⟩
  have snoc := openRecvs_snoc_postRecv ahead post
  have apart := open_apart bound aheadNext
  have nodup := (open_nodup aheadNext).1
  have distinct := (open_distinct aheadNext).1
  rw [snoc] at apart nodup distinct
  refine ⟨snoc, ?_⟩
  intro other member
  have different : other ≠ post := by
    rintro rfl
    exact List.disjoint_of_nodup_append nodup member (by simp)
  refine ⟨?_, ?_, ?_⟩
  · intro same
    exact different (distinct other (by simp [member]) post (by simp) (Or.inl same))
  · intro same
    exact different (distinct other (by simp [member]) post (by simp) (Or.inr same))
  · intro buffer index inOther inPost
    exact different (apart.unique other (by simp [member]) post (by simp) buffer index inOther
      inPost)

theorem OnSchedule.alive_of_todo (onSchedule : OnSchedule setup rank state)
    (bound : rank < setup.worldSize) {instr : Instr} (todo : state.todo = instr :: rest) :
    ∀ status ∈ state.results, status = .success := by
  obtain ⟨call, args, done, -, -, -, results, -⟩ := onSchedule.underway bound todo
  rw [results]
  exact fun status member => List.eq_of_mem_replicate member

theorem OnSchedule.payload_length (onSchedule : OnSchedule setup rank state)
    (bound : rank < setup.worldSize) (todo : state.todo = .waitRecv post :: rest) :
    (setup.payload post.toPiece).length = post.elementCount := by
  obtain ⟨after, split⟩ := onSchedule.events_next bound todo rfl
  obtain ⟨earlier, batch, lead, rest, itemsEq, place⟩ := at_waitRecv split
  obtain ⟨later, batchesEq⟩ := place.inside
  obtain ⟨args, found, -⟩ := plan_call (show batch ∈ setup.plan rank by rw [batchesEq]; simp)
    (show post ∈ batch.items by simp [Batch.items, itemsEq])
  simp [Setup.payload, found]

theorem OnSchedule.waitRecv_oldest (onSchedule : OnSchedule setup rank state)
    (bound : rank < setup.worldSize) (todo : state.todo = .waitRecv post :: rest) :
    ∃ later, openRecvs (events state.log) = post :: later ∧
      openRecvs (events state.log ++ [.waitRecv post]) = later ∧
      ∀ other ∈ later, other.tag ≠ post.tag ∧ other.pieceIndex ≠ post.pieceIndex ∧
        ∀ buffer index, other.covers buffer index → ¬ post.covers buffer index := by
  obtain ⟨after, split⟩ := onSchedule.events_next bound todo rfl
  have ahead : events state.log <+: run (setup.plan rank) := ⟨_, split.symm⟩
  obtain ⟨later, opens⟩ := openRecvs_at_waitRecv split
  have apart := open_apart bound ahead
  have nodup := (open_nodup ahead).1
  have distinct := (open_distinct ahead).1
  rw [opens] at apart nodup distinct
  refine ⟨later, opens, by rw [openRecvs_snoc_waitRecv, opens]; rfl, ?_⟩
  intro other member
  have different : other ≠ post := by
    rintro rfl
    exact (List.nodup_cons.mp nodup).1 member
  refine ⟨?_, ?_, ?_⟩
  · intro same
    exact different (distinct other (by simp [member]) post (by simp) (Or.inl same))
  · intro same
    exact different (distinct other (by simp [member]) post (by simp) (Or.inr same))
  · intro buffer index inOther inPost
    exact different (apart.unique other (by simp [member]) post (by simp) buffer index inOther
      inPost)

theorem OnSchedule.waitSend_oldest (onSchedule : OnSchedule setup rank state)
    (bound : rank < setup.worldSize) (todo : state.todo = .waitSend post :: rest) :
    ∃ later, openSends (events state.log) = post :: later ∧
      openSends (events state.log ++ [.waitSend post]) = later ∧
      ∀ other ∈ later, other.pieceIndex ≠ post.pieceIndex := by
  obtain ⟨after, split⟩ := onSchedule.events_next bound todo rfl
  have ahead : events state.log <+: run (setup.plan rank) := ⟨_, split.symm⟩
  obtain ⟨later, opens⟩ := openSends_at_waitSend split
  have nodup := (open_nodup ahead).2
  have distinct := (open_distinct ahead).2
  rw [opens] at nodup distinct
  refine ⟨later, opens, by rw [openSends_snoc_waitSend, opens]; rfl, ?_⟩
  intro other member same
  have equal := distinct other (by simp [member]) post (by simp) (Or.inr same)
  exact (List.nodup_cons.mp nodup).1 (equal ▸ member)

theorem OnSchedule.postSend_new (onSchedule : OnSchedule setup rank state)
    (bound : rank < setup.worldSize) (todo : state.todo = .postSend post :: rest) :
    openSends (events state.log ++ [.postSend post]) = openSends (events state.log) ++ [post] := by
  obtain ⟨after, split⟩ := onSchedule.events_next bound todo rfl
  exact openSends_snoc_postSend (sendWaits_isPrefix ⟨_, split.symm⟩).length_le

theorem OnSchedule.postSend_apart (onSchedule : OnSchedule setup rank state)
    (bound : rank < setup.worldSize) (todo : state.todo = .postSend post :: rest) :
    ∀ other ∈ openSends (events state.log), other.pieceIndex ≠ post.pieceIndex := by
  obtain ⟨after, split⟩ := onSchedule.events_next bound todo rfl
  have aheadNext : events state.log ++ [.postSend post] <+: run (setup.plan rank) :=
    ⟨after, by rw [split]; simp⟩
  have nodup := (open_nodup aheadNext).2
  have distinct := (open_distinct aheadNext).2
  rw [onSchedule.postSend_new bound todo] at nodup distinct
  intro other member same
  have equal := distinct other (by simp [member]) post (by simp) (Or.inr same)
  exact List.disjoint_of_nodup_append nodup member (by simp [equal])

end Next

theorem OnSchedule.raceFree {setup : Setup Value} {rank : Nat} {state : RankState Request}
    (onSchedule : OnSchedule setup rank state) (bound : rank < setup.worldSize) {instr : Instr}
    {rest : List Instr} (todo : state.todo = instr :: rest) :
    RaceFree (events state.log) instr := by
  obtain ⟨call, args, done, found, code, -, -, noError, eventsEq⟩ := onSchedule.underway bound todo
  rw [eventsEq]
  cases spot_of_code bound code noError with
  | start same first =>
      rw [first]
      exact .nothing_open (by rw [openRecvs_run_append]; rfl) (by rw [openSends_run_append]; rfl)
  | copy count same first =>
      rw [first]
      exact .nothing_open (by rw [openRecvs_run_append]; rfl) (by rw [openSends_run_append]; rfl)
  | stage stage member lead after batches stageEq earlier =>
      have several := Kind.mem_stages member
      have free := raceFree_in_stage (setup.context rank (setup.sequenceAt call) call)
        bound (show 1 < setup.worldSize by omega) (effectiveConfig_maxInflight _).1 stageEq
      rw [earlier]
      constructor
      · rw [openRecvs_run_append, openRecvs_run_append]
        exact free.recvs
      · rw [openSends_run_append, openSends_run_append]
        exact free.sends
  | between silent noEvent =>
      cases instr <;> simp [Instr.silent, Instr.event] at silent noEvent <;>
        exact .untouched (fun _ _ => id) (fun _ _ => id)

end RingAllReduce
