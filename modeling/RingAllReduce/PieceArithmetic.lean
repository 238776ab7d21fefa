import Mathlib.Data.List.TakeWhile
import RingAllReduce.Batches
import RingAllReduce.Library.Checked

/-!
The batch loop in the arithmetic of `size_t`. Every sum, difference and product of the source is
taken by an operation that has no result where it would wrap; that the loop has a result then means
that nothing in it wraps.
-/

namespace RingAllReduce

open Exchange

def sizeLimit : Nat := 2 ^ 64

def checkedPieceCountFor (elementCount pieceElements : Nat) : Option Nat :=
  if elementCount = 0 then some 0
  else do
    let sum ← Checked.add sizeLimit elementCount pieceElements
    let last ← Checked.sub sum 1
    return last / pieceElements

/-- `byte_offset` of an element: the number of bytes in front of it. -/
def checkedByteOffset (start elementOffset elementSize : Nat) : Option Nat := do
  let element ← Checked.add sizeLimit start elementOffset
  Checked.mul sizeLimit element elementSize

section Step

variable (context : Context) (phase : CollectivePhase) (step elementSize pieceElements : Nat)

def checkedPostFor (flow : Flow) (piece : Nat) : Option (Except Status Post) := do
  let elementOffset ← Checked.mul sizeLimit piece pieceElements
  let remaining ← Checked.sub flow.blockCount elementOffset
  let elements := min pieceElements remaining
  let bytes ← Checked.mul sizeLimit elements elementSize
  let _ ← checkedByteOffset flow.start elementOffset elementSize
  return match makeTag context.sequence phase step piece with
    | .error status => .error status
    | .ok tag => .ok
        { call := context.call, phase := phase, step := step, block := flow.block,
          pieceIndex := piece, elementOffset := elementOffset, elementCount := elements,
          bytes := bytes, tag := tag, mode := context.config.transferMode,
          buffer := flow.buffer, start := flow.start + elementOffset }

def checkedBatchPosts (flow : Flow) (batch : Nat) : Option (List (Except Status Post)) := do
  let batchCapacity := context.config.maxInflight
  let beginPiece ← Checked.mul sizeLimit batch batchCapacity
  let endPiece ← Checked.add sizeLimit beginPiece batchCapacity
  let pieces ← checkedPieceCountFor flow.blockCount pieceElements
  Checked.forRange sizeLimit (checkedPostFor context phase step elementSize pieceElements flow)
    beginPiece (min endPiece pieces)

def checkedBatchBody (recv send : Flow) (afterWait : Post → Option (List Instr)) (batch : Nat) :
    Option (List Instr) := do
  let recvs ← checkedBatchPosts context phase step elementSize pieceElements recv batch
  let sends ← checkedBatchPosts context phase step elementSize pieceElements send batch
  let waits ← (posted recvs).mapM afterWait
  return postAll .postRecv recvs ++ postAll .postSend sends ++ waits.flatten ++
    (posted sends).map .waitSend

def checkedStepBody (recv send : Flow) (afterWait : Post → Option (List Instr)) :
    Option (List Instr) := do
  let batchCapacity := context.config.maxInflight
  let sendPieces ← checkedPieceCountFor send.blockCount pieceElements
  let recvPieces ← checkedPieceCountFor recv.blockCount pieceElements
  let sum ← Checked.add sizeLimit (max sendPieces recvPieces) batchCapacity
  let last ← Checked.sub sum 1
  let batches ← Checked.forRange sizeLimit
    (checkedBatchBody context phase step elementSize pieceElements recv send afterWait) 0
    (last / batchCapacity)
  return batches.flatten

end Step

/-- What a Reduce-Scatter does with a received piece of the block at `offset`. -/
def reduceAfter (offset : Nat) (datatype : Datatype) (operation : Operation) (post : Post) :
    List Instr :=
  [.waitRecv post, .reduce (offset + post.elementOffset) post.elementOffset post.elementCount datatype
    operation]

def checkedReduceAfter (elementSize offset : Nat) (datatype : Datatype) (operation : Operation)
    (post : Post) : Option (List Instr) := do
  let destinationElementOffset ← Checked.add sizeLimit offset post.elementOffset
  let _ ← Checked.mul sizeLimit destinationElementOffset elementSize
  let _ ← Checked.mul sizeLimit post.elementOffset elementSize
  return [.waitRecv post, .reduce destinationElementOffset post.elementOffset post.elementCount
    datatype operation]

/-- The end of a block is within the bytes that can be addressed. -/
def Flow.Fits (flow : Flow) (elementSize : Nat) : Prop :=
  (flow.start + flow.blockCount) * elementSize < sizeLimit

section Checked

variable {context : Context} {phase : CollectivePhase} {step elementSize pieceElements : Nat}

theorem pieceElementsFor_le (size : 4 ≤ elementSize)
    (pieceBytes : context.config.pipelinePieceBytes < sizeLimit) :
    pieceElementsFor context.config elementSize ≤ 2 ^ 62 := by
  have requested : (if context.config.pipelinePieceBytes = 0 then kDefaultPieceBytes
      else context.config.pipelinePieceBytes) < 2 ^ 64 := by
    split
    · decide
    · exact pieceBytes
  have quotient : (if context.config.pipelinePieceBytes = 0 then kDefaultPieceBytes
      else context.config.pipelinePieceBytes) / elementSize < 2 ^ 62 := by
    rw [Nat.div_lt_iff_lt_mul (by omega)]
    omega
  simp only [pieceElementsFor]
  omega

theorem Flow.Fits.blockCount_lt {flow : Flow} (fits : flow.Fits elementSize)
    (size : 4 ≤ elementSize) : flow.start + flow.blockCount < 2 ^ 62 := by
  have bytes : (flow.start + flow.blockCount) * 4 ≤ (flow.start + flow.blockCount) * elementSize :=
    Nat.mul_le_mul_left _ size
  simp only [Flow.Fits, sizeLimit] at fits
  omega

theorem checkedPieceCountFor_eq {elementCount : Nat} (positive : 0 < pieceElements)
    (fits : elementCount + pieceElements < sizeLimit) :
    checkedPieceCountFor elementCount pieceElements =
      some (pieceCountFor elementCount pieceElements) := by
  unfold checkedPieceCountFor pieceCountFor
  split
  · rfl
  · rw [Checked.add_eq fits]
    simp only [Option.bind_eq_bind, Option.bind_some]
    rw [Checked.sub_eq (by omega)]
    rfl

theorem checkedPostFor_eq {flow : Flow} (fits : flow.Fits elementSize) (size : 4 ≤ elementSize)
    (positive : 0 < pieceElements) {piece : Nat}
    (bound : piece < pieceCountFor flow.blockCount pieceElements) :
    checkedPostFor context phase step elementSize pieceElements flow piece =
      some (postFor context phase step elementSize pieceElements flow piece) := by
  have small := fits.blockCount_lt size
  have inside : piece * pieceElements < flow.blockCount := by
    rwa [pieceCountFor_eq positive, Tiling.lt_tiles_iff _ positive] at bound
  have bytes : min pieceElements (flow.blockCount - piece * pieceElements) * elementSize ≤
      (flow.start + flow.blockCount) * elementSize := Nat.mul_le_mul_right _ (by omega)
  have address : (flow.start + piece * pieceElements) * elementSize ≤
      (flow.start + flow.blockCount) * elementSize := Nat.mul_le_mul_right _ (by omega)
  simp only [Flow.Fits] at fits
  have limit : sizeLimit = 2 ^ 64 := rfl
  rw [checkedPostFor, Checked.mul_eq (by omega)]
  simp only [Option.bind_eq_bind, Option.bind_some]
  rw [Checked.sub_eq inside.le]
  simp only [Option.bind_some]
  rw [Checked.mul_eq (by omega), checkedByteOffset, Checked.add_eq (by omega)]
  simp only [Option.bind_eq_bind, Option.bind_some]
  rw [Checked.mul_eq (by omega)]
  rfl

theorem checkedBatchPosts_eq {flow : Flow} (fits : flow.Fits elementSize) (size : 4 ≤ elementSize)
    (positive : 0 < pieceElements) (pieceSize : pieceElements ≤ 2 ^ 62) {batch : Nat}
    (inRange : batch * context.config.maxInflight + context.config.maxInflight < sizeLimit) :
    checkedBatchPosts context phase step elementSize pieceElements flow batch =
      some (batchPosts context phase step elementSize pieceElements flow batch) := by
  have small := fits.blockCount_lt size
  have limit : sizeLimit = 2 ^ 64 := rfl
  rw [checkedBatchPosts]
  simp only [Option.bind_eq_bind]
  rw [Checked.mul_eq (by omega), Option.bind_some, Checked.add_eq inRange, Option.bind_some,
    checkedPieceCountFor_eq positive (by omega), Option.bind_some]
  exact Checked.forRange_eq (by omega) fun piece _ below =>
    checkedPostFor_eq fits size positive (by omega)

theorem pieceCountFor_le (elementCount : Nat) (positive : 0 < pieceElements) :
    pieceCountFor elementCount pieceElements ≤ elementCount := by
  rw [pieceCountFor_eq positive]
  by_contra more
  have last := (Tiling.lt_tiles_iff elementCount positive elementCount).mp (by omega)
  exact absurd (Nat.le_mul_of_pos_right elementCount positive) (by omega)

theorem checkedStepBody_eq {recv send : Flow} {afterWait : Post → List Instr}
    {checkedAfterWait : Post → Option (List Instr)}
    (recvFits : recv.Fits elementSize) (sendFits : send.Fits elementSize) (size : 4 ≤ elementSize)
    (positive : 0 < pieceElements) (pieceSize : pieceElements ≤ 2 ^ 62)
    (inflight : 0 < context.config.maxInflight)
    (limited : context.config.maxInflight ≤ kMaxInflightLimit)
    (after : ∀ post ∈ flowPosts context phase step elementSize pieceElements recv,
      checkedAfterWait post = some (afterWait post)) :
    checkedStepBody context phase step elementSize pieceElements recv send checkedAfterWait =
      some (stepBody context phase step elementSize pieceElements recv send afterWait) := by
  have recvSmall := recvFits.blockCount_lt size
  have sendSmall := sendFits.blockCount_lt size
  have limit : sizeLimit = 2 ^ 64 := rfl
  have inflightLimit : kMaxInflightLimit = 1024 := rfl
  have recvPieces := pieceCountFor_le recv.blockCount positive
  have sendPieces := pieceCountFor_le send.blockCount positive
  rw [checkedStepBody]
  simp only [Option.bind_eq_bind]
  rw [checkedPieceCountFor_eq positive (by omega), Option.bind_some,
    checkedPieceCountFor_eq positive (by omega), Option.bind_some, Checked.add_eq (by omega),
    Option.bind_some, Checked.sub_eq (by omega), Option.bind_some]
  generalize most : max (pieceCountFor send.blockCount pieceElements)
    (pieceCountFor recv.blockCount pieceElements) + context.config.maxInflight - 1 = last
  have below := Nat.div_le_self last context.config.maxInflight
  have body : ∀ batch < last / context.config.maxInflight,
      checkedBatchBody context phase step elementSize pieceElements recv send checkedAfterWait
          batch =
        some (batchBody context phase step elementSize pieceElements recv send afterWait batch) := by
    intro batch inside
    have waits : (posted (batchPosts context phase step elementSize pieceElements recv batch)).mapM
        checkedAfterWait = some ((posted (batchPosts context phase step elementSize pieceElements recv
          batch)).map afterWait) := by
      apply Checked.mapM_eq
      intro post member
      obtain ⟨piece, -, -, bound, made⟩ := mem_batchPosts member
      exact after post (mem_flowPosts.mpr ⟨piece, bound, made⟩)
    have product := (Nat.le_div_iff_mul_le inflight).mp (Nat.succ_le_of_lt inside)
    rw [Nat.succ_mul] at product
    rw [checkedBatchBody, checkedBatchPosts_eq recvFits size positive pieceSize (by omega),
      checkedBatchPosts_eq sendFits size positive pieceSize (by omega)]
    simp only [Option.bind_eq_bind, Option.bind_some, waits, batchBody, List.flatMap_def]
    rfl
  rw [Checked.forRange_eq (by omega) fun batch _ inside => body batch inside, Option.bind_some,
    stepBody, most, Nat.sub_zero, ← List.range_eq_range', ← List.flatMap_def]
  rfl

theorem checkedReduceAfter_eq {flow : Flow} {offset : Nat} (datatype : Datatype)
    (operation : Operation) (size : 4 ≤ elementSize) (positive : 0 < pieceElements)
    (fits : (offset + flow.blockCount) * elementSize < sizeLimit) {post : Post}
    (member : post ∈ flowPosts context phase step elementSize pieceElements flow) :
    checkedReduceAfter elementSize offset datatype operation post =
      some (reduceAfter offset datatype operation post) := by
  obtain ⟨piece, bound, made⟩ := mem_flowPosts.mp member
  obtain ⟨tag, -, rfl⟩ := postFor_ok made
  rw [pieceCountFor_eq positive, Tiling.lt_tiles_iff _ positive] at bound
  have destination : (offset + piece * pieceElements) * elementSize ≤
      (offset + flow.blockCount) * elementSize := Nat.mul_le_mul_right _ (by omega)
  have source : piece * pieceElements * elementSize ≤
      (offset + piece * pieceElements) * elementSize := Nat.mul_le_mul_right _ (by omega)
  have small : offset + piece * pieceElements ≤
      (offset + piece * pieceElements) * elementSize := Nat.le_mul_of_pos_right _ (by omega)
  simp only [checkedReduceAfter, Option.bind_eq_bind]
  rw [Checked.add_eq (by omega), Option.bind_some, Checked.mul_eq (by omega), Option.bind_some,
    Checked.mul_eq (by omega)]
  rfl

end Checked

/-- The operations that are performed: those in front of the first `return`. -/
def performed (code : List Instr) : List Instr :=
  code.takeWhile fun
    | .ret _ => false
    | _ => true

/-- The elements of its block that a posted request is for. -/
def Post.range (post : Post) : Nat × Nat := (post.elementOffset, post.elementCount)

def recvRanges (code : List Instr) : List (Nat × Nat) :=
  (recvPosts (events (performed code))).map Post.range

def sendRanges (code : List Instr) : List (Nat × Nat) :=
  (sendPosts (events (performed code))).map Post.range

section Ranges

variable {context : Context} {phase : CollectivePhase} {step elementSize pieceElements : Nat}

theorem postFor_cases (flow : Flow) (piece : Nat) :
    (step ≤ 127 ∧ piece ≤ 4095 ∧
      ∃ post, postFor context phase step elementSize pieceElements flow piece = .ok post ∧
        post.range = Tiling.tile pieceElements flow.blockCount piece) ∨
      ¬ (step ≤ 127 ∧ piece ≤ 4095) ∧
        postFor context phase step elementSize pieceElements flow piece = .error .tagRange := by
  have inRange := makeTag_ok_iff context.sequence phase step piece
  cases made : makeTag context.sequence phase step piece with
  | ok tag =>
      have bounds := inRange.mp ⟨tag, made⟩
      exact Or.inl ⟨by omega, bounds.2.2, _, by rw [postFor, made], rfl⟩
  | error status =>
      obtain rfl := makeTag_error made
      rw [made] at inRange
      refine Or.inr ⟨fun bounds => ?_, by rw [postFor, made]⟩
      obtain ⟨tag, isOk⟩ := inRange.mpr ⟨by omega, by omega, bounds.2⟩
      simp at isOk

/-- So many pieces of a block have a tag. -/
def taggedPieces (step pieces : Nat) : Nat := if step ≤ 127 then min pieces 4096 else 0

theorem posted_ranges (flow : Flow) (pieces : Nat) :
    (posted ((List.range pieces).map
        (postFor context phase step elementSize pieceElements flow))).map Post.range =
      (List.range (taggedPieces step pieces)).map (Tiling.tile pieceElements flow.blockCount) := by
  induction pieces with
  | zero => simp [taggedPieces]
  | succ pieces ih =>
      rw [List.range_succ, List.map_append, posted, List.filterMap_append, List.map_append, ← posted,
        ih, List.map_singleton]
      rcases @postFor_cases context phase step elementSize pieceElements flow pieces with
        ⟨stepBound, pieceBound, post, made, range⟩ | ⟨outside, failed⟩
      · have more : taggedPieces step (pieces + 1) = taggedPieces step pieces + 1 := by
          simp only [taggedPieces, if_pos stepBound]
          omega
        have here : taggedPieces step pieces = pieces := by
          simp only [taggedPieces, if_pos stepBound]
          omega
        rw [more, List.range_succ, List.map_append, made, here]
        simp [Except.toOption, range]
      · have same : taggedPieces step (pieces + 1) = taggedPieces step pieces := by
          simp only [taggedPieces]
          split <;> omega
        rw [same, failed]
        simp [Except.toOption]

theorem flowPosts_ranges (flow : Flow) :
    (flowPosts context phase step elementSize pieceElements flow).map Post.range =
      (List.range (taggedPieces step (pieceCountFor flow.blockCount pieceElements))).map
        (Tiling.tile pieceElements flow.blockCount) :=
  posted_ranges flow _

theorem tiled_of_prefix {flow : Flow} {posts : List Post} (positive : 0 < pieceElements)
    (front : posts <+: flowPosts context phase step elementSize pieceElements flow) :
    ∃ stop ≤ flow.blockCount, Tiling.Tiled pieceElements stop (posts.map Post.range) := by
  have ranges := front.map Post.range
  rw [flowPosts_ranges, List.prefix_iff_eq_take, ← List.map_take, List.take_range] at ranges
  rw [ranges]
  refine ⟨_, Nat.min_le_right _ _, Tiling.tiled_tiles positive ?_⟩
  rw [← pieceCountFor_eq positive]
  simp only [taggedPieces]
  split <;> omega

/-- What the loop over `recv_requests` does with a request, in either collective. -/
def WaitsFor (afterWait : Post → List Instr) : Prop :=
  ∀ post, afterWait post = [.waitRecv post] ∨
    ∃ destination source count datatype operation,
      afterWait post = [.waitRecv post, .reduce destination source count datatype operation]

theorem WaitsFor.events {afterWait : Post → List Instr} (waits : WaitsFor afterWait) (post : Post) :
    events (afterWait post) = [.waitRecv post] := by
  rcases waits post with only | ⟨destination, source, count, datatype, operation, both⟩
  · simp [only, Instr.event]
  · simp [both, Instr.event]

theorem WaitsFor.no_return {afterWait : Post → List Instr} (waits : WaitsFor afterWait) (post : Post)
    (status : Status) : .ret status ∉ afterWait post := by
  rcases waits post with only | ⟨destination, source, count, datatype, operation, both⟩
  · simp [only]
  · simp [both]

theorem ret_of_mem_stepBody {recv send : Flow} {afterWait : Post → List Instr} {status : Status}
    (waits : WaitsFor afterWait)
    (member : .ret status ∈
      stepBody context phase step elementSize pieceElements recv send afterWait) :
    ∃ piece < max (pieceCountFor send.blockCount pieceElements)
      (pieceCountFor recv.blockCount pieceElements), ¬ (step ≤ 127 ∧ piece ≤ 4095) := by
  have turn : ∀ {flow : Flow} {batch : Nat} {make : Post → Instr},
      (∀ post, make post ≠ .ret status) → .ret status ∈
        postAll make (batchPosts context phase step elementSize pieceElements flow batch) →
      ∃ piece < pieceCountFor flow.blockCount pieceElements, ¬ (step ≤ 127 ∧ piece ≤ 4095) := by
    intro flow batch make posts inTurn
    obtain ⟨made, madeIn, isReturn⟩ := List.mem_map.mp inTurn
    simp only [batchPosts, List.mem_map, List.mem_range'_1] at madeIn
    obtain ⟨piece, bounds, rfl⟩ := madeIn
    rcases @postFor_cases context phase step elementSize pieceElements flow piece with
      ⟨-, -, post, isPost, -⟩ | ⟨outside, -⟩
    · rw [isPost] at isReturn
      exact absurd isReturn (posts post)
    · exact ⟨piece, by omega, outside⟩
  simp only [stepBody, batchBody, List.mem_flatMap, List.mem_append, List.mem_map] at member
  obtain ⟨batch, -, ((recvs | sends) | ⟨post, -, after⟩) | ⟨post, -, same⟩⟩ := member
  · obtain ⟨piece, bound, outside⟩ := turn (by simp) recvs
    exact ⟨piece, by omega, outside⟩
  · obtain ⟨piece, bound, outside⟩ := turn (by simp) sends
    exact ⟨piece, by omega, outside⟩
  · exact absurd after (waits.no_return post status)
  · simp at same

theorem performed_eq {code : List Instr} (noReturn : ∀ status, .ret status ∉ code) :
    performed code = code := by
  apply List.takeWhile_eq_self_iff.mpr
  intro instr member
  cases instr with
  | ret status => exact absurd member (noReturn status)
  | _ => rfl

theorem tagRange_mem_stepBody {recv send : Flow} {afterWait : Post → List Instr}
    (inflight : 0 < context.config.maxInflight) {piece : Nat}
    (bound : piece < max (pieceCountFor send.blockCount pieceElements)
      (pieceCountFor recv.blockCount pieceElements))
    (outside : ¬ (step ≤ 127 ∧ piece ≤ 4095)) :
    .ret .tagRange ∈ stepBody context phase step elementSize pieceElements recv send afterWait := by
  have fails : ∀ flow : Flow,
      postFor context phase step elementSize pieceElements flow piece = .error .tagRange := by
    intro flow
    rcases @postFor_cases context phase step elementSize pieceElements flow piece with
      ⟨stepBound, pieceBound, -⟩ | ⟨-, failed⟩
    · exact absurd ⟨stepBound, pieceBound⟩ outside
    · exact failed
  rcases Nat.lt_or_ge piece (pieceCountFor recv.blockCount pieceElements) with inside | beyond
  · exact ret_mem_stepBody inflight (Or.inl rfl) inside (fails recv)
  · exact ret_mem_stepBody inflight (Or.inr rfl) (by omega) (fails send)

theorem performed_posts {recv send : Flow} {afterWait : Post → List Instr}
    (inflight : 0 < context.config.maxInflight) (waits : WaitsFor afterWait) :
    recvPosts (events (performed
        (stepBody context phase step elementSize pieceElements recv send afterWait))) <+:
      flowPosts context phase step elementSize pieceElements recv ∧
    sendPosts (events (performed
        (stepBody context phase step elementSize pieceElements recv send afterWait))) <+:
      flowPosts context phase step elementSize pieceElements send := by
  have front : events (performed
      (stepBody context phase step elementSize pieceElements recv send afterWait)) <+:
        run (stepBatches context phase step elementSize pieceElements recv send) := by
    rw [← events_stepBody recv send waits.events]
    exact (List.takeWhile_prefix _).filterMap _
  rw [← allRecvs_stepBatches inflight recv send, ← allSends_stepBatches inflight recv send,
    ← recvPosts_run, ← sendPosts_run]
  exact ⟨front.filterMap _, front.filterMap _⟩

theorem tiled_of_no_return {recv send : Flow} {afterWait : Post → List Instr}
    (inflight : 0 < context.config.maxInflight) (positive : 0 < pieceElements)
    (waits : WaitsFor afterWait) (stepBound : step ≤ 127)
    (pieceBound : max (pieceCountFor send.blockCount pieceElements)
      (pieceCountFor recv.blockCount pieceElements) ≤ 4096) :
    Tiling.Tiled pieceElements recv.blockCount (recvRanges
        (stepBody context phase step elementSize pieceElements recv send afterWait)) ∧
      Tiling.Tiled pieceElements send.blockCount (sendRanges
        (stepBody context phase step elementSize pieceElements recv send afterWait)) := by
  have noReturn : ∀ status, .ret status ∉
      stepBody context phase step elementSize pieceElements recv send afterWait := by
    intro status member
    obtain ⟨piece, bound, outside⟩ := ret_of_mem_stepBody waits member
    exact outside ⟨stepBound, by omega⟩
  have whole : ∀ flow : Flow, pieceCountFor flow.blockCount pieceElements ≤ 4096 →
      Tiling.Tiled pieceElements flow.blockCount
        ((flowPosts context phase step elementSize pieceElements flow).map Post.range) := by
    intro flow few
    rw [flowPosts_ranges, taggedPieces, if_pos stepBound, Nat.min_eq_left few,
      pieceCountFor_eq positive]
    exact Tiling.tiled_all positive flow.blockCount
  rw [recvRanges, sendRanges, performed_eq noReturn, events_stepBody recv send waits.events,
    recvPosts_run, sendPosts_run, allRecvs_stepBatches inflight, allSends_stepBatches inflight]
  exact ⟨whole recv (by omega), whole send (by omega)⟩

theorem not_tiled_of_many {recv send : Flow} {afterWait : Post → List Instr}
    (inflight : 0 < context.config.maxInflight) (waits : WaitsFor afterWait)
    (many : 4096 * pieceElements < recv.blockCount) :
    ¬ Tiling.Tiled pieceElements recv.blockCount (recvRanges
      (stepBody context phase step elementSize pieceElements recv send afterWait)) := by
  intro tiled
  obtain ⟨range, member, -, beyond⟩ := (tiled.covers (4096 * pieceElements)).mp many
  have front := (@performed_posts context phase step elementSize pieceElements recv send afterWait
    inflight waits).1.map Post.range
  rw [flowPosts_ranges] at front
  obtain ⟨piece, isPiece, rfl⟩ := List.mem_map.mp (front.subset member)
  have tagged : piece < 4096 := by
    have bound := List.mem_range.mp isPiece
    simp only [taggedPieces] at bound
    split at bound <;> omega
  have next : (piece + 1) * pieceElements ≤ 4096 * pieceElements :=
    Nat.mul_le_mul_right _ tagged
  rw [Nat.succ_mul] at next
  simp only [Tiling.tile] at beyond
  omega

end Ranges

/-- The pieces of all batches of a step tile both blocks, and nothing on the way wraps. Where a
block has more pieces than there are tags, the step returns and has posted a front part. -/
theorem batches_tile {context : Context} {phase : CollectivePhase} {step elementSize : Nat}
    {recv send : Flow} {afterWait : Post → List Instr} (size : elementSize = 4 ∨ elementSize = 8)
    (pieceBytes : context.config.pipelinePieceBytes < 2 ^ 64)
    (inflight : 1 ≤ context.config.maxInflight) (limited : context.config.maxInflight ≤ 1024)
    (recvFits : (recv.start + recv.blockCount) * elementSize < 2 ^ 64)
    (sendFits : (send.start + send.blockCount) * elementSize < 2 ^ 64)
    (waits : WaitsFor afterWait) :
    let pieceElements := pieceElementsFor context.config elementSize
    let code := stepBody context phase step elementSize pieceElements recv send afterWait
    let pieces := max (pieceCountFor send.blockCount pieceElements)
      (pieceCountFor recv.blockCount pieceElements)
    checkedStepBody context phase step elementSize pieceElements recv send
        (fun post => some (afterWait post)) = some code ∧
      (∀ offset datatype operation, (offset + recv.blockCount) * elementSize < 2 ^ 64 →
        afterWait = reduceAfter offset datatype operation →
        checkedStepBody context phase step elementSize pieceElements recv send
          (checkedReduceAfter elementSize offset datatype operation) = some code) ∧
      (step ≤ 127 ∧ pieces ≤ 4096 → Tiling.Tiled pieceElements recv.blockCount (recvRanges code) ∧
        Tiling.Tiled pieceElements send.blockCount (sendRanges code)) ∧
      (0 < pieces → ¬ (step ≤ 127 ∧ pieces ≤ 4096) → .ret .tagRange ∈ code) ∧
      (∃ stop ≤ recv.blockCount, Tiling.Tiled pieceElements stop (recvRanges code)) ∧
      (∃ stop ≤ send.blockCount, Tiling.Tiled pieceElements stop (sendRanges code)) ∧
      ∀ maxBlockCount, recv.blockCount ≤ maxBlockCount → ∀ range ∈ recvRanges code,
        range.1 + range.2 ≤ maxBlockCount := by
  intro pieceElements code pieces
  have positive : 0 < pieceElements := pieceElementsFor_pos _ _
  have large : 4 ≤ elementSize := by omega
  obtain ⟨recvFront, sendFront⟩ := @performed_posts context phase step elementSize pieceElements
    recv send afterWait inflight waits
  have recvTiled := tiled_of_prefix positive recvFront
  have pieceSize := pieceElementsFor_le large pieceBytes
  refine ⟨checkedStepBody_eq recvFits sendFits large positive pieceSize inflight limited
    (fun _ _ => rfl), ?_, ?_, ?_, recvTiled, tiled_of_prefix positive sendFront, ?_⟩
  · rintro offset datatype operation fits rfl
    exact checkedStepBody_eq recvFits sendFits large positive pieceSize inflight limited
      fun post member => checkedReduceAfter_eq datatype operation large positive fits member
  · rintro ⟨stepBound, few⟩
    exact tiled_of_no_return inflight positive waits stepBound few
  · intro some outside
    by_cases stepBound : step ≤ 127
    · exact tagRange_mem_stepBody inflight (show 4096 < pieces by omega) (by omega)
    · exact tagRange_mem_stepBody inflight some (by omega)
  · intro maxBlockCount le range member
    obtain ⟨stop, stopLe, tiled⟩ := recvTiled
    have inside := tiled.within member
    omega

/-! The collectives as a whole. -/

def checkedLayoutLoop (base remainder : Nat) :
    (blocks block runningOffset : Nat) → Option BlockLayout
  | 0, _, _ => some { counts := [], offsets := [] }
  | blocks + 1, block, runningOffset => do
      let blockCount ← Checked.add sizeLimit base (if block < remainder then 1 else 0)
      let nextOffset ← Checked.add sizeLimit runningOffset blockCount
      let rest ← checkedLayoutLoop base remainder blocks (block + 1) nextOffset
      return { counts := blockCount :: rest.counts, offsets := runningOffset :: rest.offsets }

def checkedBlockLayout (count : Nat) (worldSize : Int) : Option (Except Status BlockLayout) :=
  if worldSize ≤ 0 then some (.error .invalidArgument)
  else do
    let layout ← checkedLayoutLoop (count / worldSize.toNat) (count % worldSize.toNat)
      worldSize.toNat 0 0
    return .ok layout

def checkedReduceScatterStep (context : Context) (layout : BlockLayout) (datatype : Datatype)
    (operation : Operation) (step : Nat) : Option (List Instr) :=
  let elementSize := datatypeSize datatype
  let sendBlock := (positiveMod (context.rank - step) context.worldSize).toNat
  let recvBlock := (positiveMod (context.rank - step - 1) context.worldSize).toNat
  checkedStepBody context .reduceScatter step elementSize
    (pieceElementsFor context.config elementSize)
    { block := recvBlock, blockCount := layout.counts.getD recvBlock 0, buffer := .temporary,
      start := 0 }
    (Flow.ofBlock layout sendBlock)
    (checkedReduceAfter elementSize (layout.offsets.getD recvBlock 0) datatype operation)

def checkedAllGatherStep (context : Context) (layout : BlockLayout) (datatype : Datatype)
    (step : Nat) : Option (List Instr) :=
  let elementSize := datatypeSize datatype
  let sendBlock := (positiveMod (context.rank - step + 1) context.worldSize).toNat
  let recvBlock := (positiveMod (context.rank - step) context.worldSize).toNat
  checkedStepBody context .allGather step elementSize (pieceElementsFor context.config elementSize)
    (Flow.ofBlock layout recvBlock) (Flow.ofBlock layout sendBlock)
    fun post => some [.waitRecv post]

/-- `ring_reduce_scatter_inplace`, with the size of its temporary buffer. -/
def checkedReduceScatter (context : Context) (count : Nat) (datatype : Datatype)
    (operation : Operation) : Option (List Instr) :=
  if datatypeSize datatype = 0 then some [.ret .unsupportedDatatype]
  else do
    match ← checkedBlockLayout count context.worldSize with
    | .error status => return [.ret status]
    | .ok layout =>
        let maxBlockCount := layout.counts.foldl max 0
        let _ ← Checked.mul sizeLimit maxBlockCount (datatypeSize datatype)
        let steps ← (List.range (context.worldSize - 1)).mapM
          (checkedReduceScatterStep context layout datatype operation)
        return steps.flatten ++ [.storeOwned (ownedBlock context)]

def checkedAllGather (context : Context) (count : Nat) (datatype : Datatype) (owned : Int) :
    Option (List Instr) :=
  if owned < 0 ∨ (context.worldSize : Int) ≤ owned then some [.ret .invalidArgument]
  else if owned ≠ positiveMod (context.rank + 1) context.worldSize then
    some [.ret .invalidArgument]
  else if datatypeSize datatype = 0 then some [.ret .unsupportedDatatype]
  else do
    match ← checkedBlockLayout count context.worldSize with
    | .error status => return [.ret status]
    | .ok layout =>
        let steps ← (List.range (context.worldSize - 1)).mapM
          (checkedAllGatherStep context layout datatype)
        return steps.flatten

/-- `ring_all_reduce`, with the size of its `memcpy`. -/
def checkedAllReduce (context : Context) (inPlace : Bool) (count : Nat) (datatype : Datatype)
    (operation : Operation) : Option (List Instr) :=
  if count = 0 then some [.ret .invalidArgument]
  else if datatypeSize datatype = 0 then some [.ret .unsupportedDatatype]
  else do
    let _ ← Checked.mul sizeLimit count (datatypeSize datatype)
    let reduceScatter ← checkedReduceScatter context count datatype operation
    let allGather ← checkedAllGather context count datatype (ownedBlock context)
    return (if inPlace then [] else [.copyInput count]) ++ reduceScatter ++ allGather ++
      [.advanceSequence, .ret .success]

section Calls

variable {context : Context} {layout : BlockLayout} {count : Nat} {datatype : Datatype}

theorem checkedLayoutLoop_eq {base remainder blocks block runningOffset : Nat}
    (fits : runningOffset + blocks * base + (min (block + blocks) remainder - min block remainder) <
      sizeLimit) :
    checkedLayoutLoop base remainder blocks block runningOffset =
      some (layoutLoop base remainder blocks block runningOffset) := by
  induction blocks generalizing block runningOffset with
  | zero => rfl
  | succ blocks ih =>
      rw [Nat.succ_mul] at fits
      have more : min (block + 1) remainder =
          min block remainder + if block < remainder then 1 else 0 := by
        split <;> omega
      have rest := @ih (block + 1) (runningOffset + (base + if block < remainder then 1 else 0))
        (by rw [more, show block + 1 + blocks = block + (blocks + 1) by omega]; omega)
      rw [checkedLayoutLoop, Checked.add_eq (by split <;> omega)]
      simp only [Option.bind_eq_bind, Option.bind_some]
      rw [Checked.add_eq (by split <;> omega), Option.bind_some, rest]
      rfl

theorem checkedBlockLayout_eq {worldSize : Nat} (fits : count < sizeLimit) :
    checkedBlockLayout count worldSize = some (computeBlockLayout count worldSize) := by
  unfold checkedBlockLayout computeBlockLayout
  split
  · rfl
  · have whole := Nat.div_add_mod count worldSize
    rw [checkedLayoutLoop_eq]
    · rfl
    · rw [Int.toNat_natCast]
      omega

theorem ofBlock_end (block : Nat) (made : computeBlockLayout count context.worldSize = .ok layout) :
    (Flow.ofBlock layout block).start + (Flow.ofBlock layout block).blockCount ≤ count := by
  have several : 0 < context.worldSize := by
    by_contra none
    rw [computeBlockLayout, if_pos (by omega)] at made
    simp at made
  obtain ⟨found, isFound, entries⟩ := computeBlockLayout_get count several
  obtain rfl := Except.ok.inj (made.symm.trans isFound)
  change layout.offsets.getD block 0 + layout.counts.getD block 0 ≤ count
  rcases Nat.lt_or_ge block context.worldSize with isBlock | beyond
  · obtain ⟨counts, offsets⟩ := entries block isBlock
    rw [counts, offsets]
    exact block_end_le count isBlock
  · have lengths := layoutLoop_length (count / context.worldSize) (count % context.worldSize)
      context.worldSize 0 0
    have isLoop : layout = layoutLoop (count / context.worldSize) (count % context.worldSize)
        context.worldSize 0 0 := by
      rw [computeBlockLayout, if_neg (by omega)] at made
      exact (Except.ok.inj made).symm
    rw [isLoop, List.getD_eq_getElem?_getD, List.getD_eq_getElem?_getD,
      List.getElem?_eq_none (by omega), List.getElem?_eq_none (by omega)]
    exact Nat.zero_le _

theorem ofBlock_fits {elementSize : Nat} (block : Nat)
    (made : computeBlockLayout count context.worldSize = .ok layout)
    (bytes : count * elementSize < sizeLimit) : (Flow.ofBlock layout block).Fits elementSize :=
  (Nat.mul_le_mul_right elementSize (ofBlock_end block made)).trans_lt bytes

theorem four_le_datatypeSize (typed : datatypeSize datatype ≠ 0) : 4 ≤ datatypeSize datatype := by
  cases datatype <;> simp_all [datatypeSize]

theorem ofBlock_counts (made : computeBlockLayout count context.worldSize = .ok layout) :
    ∀ blockCount ∈ layout.counts, blockCount ≤ count := by
  intro blockCount member
  obtain ⟨block, inside, rfl⟩ := List.mem_iff_getElem.mp member
  have within := ofBlock_end block made
  simp only [Flow.ofBlock, List.getD_eq_getElem?_getD, List.getElem?_eq_getElem inside, Option.getD_some] at within
  omega

theorem foldl_max_le {items : List Nat} {start most : Nat} (first : start ≤ most)
    (others : ∀ item ∈ items, item ≤ most) : items.foldl max start ≤ most := by
  induction items generalizing start with
  | nil => exact first
  | cons head items ih =>
      exact ih (Nat.max_le.mpr ⟨first, others head List.mem_cons_self⟩)
        fun item member => others item (List.mem_cons_of_mem _ member)

section Steps

variable (typed : datatypeSize datatype ≠ 0)
  (made : computeBlockLayout count context.worldSize = .ok layout)
  (bytes : count * datatypeSize datatype < sizeLimit)
  (pieceBytes : context.config.pipelinePieceBytes < sizeLimit)
  (inflight : 0 < context.config.maxInflight)
  (limited : context.config.maxInflight ≤ kMaxInflightLimit)

include typed made bytes pieceBytes inflight limited

theorem checkedReduceScatterStep_eq (operation : Operation) (step : Nat) :
    checkedReduceScatterStep context layout datatype operation step =
      some (reduceScatterStep context layout datatype operation step) := by
  have size := four_le_datatypeSize typed
  have inWorkbuf := ofBlock_fits (positiveMod (context.rank - step - 1) context.worldSize).toNat made
    bytes
  simp only [Flow.Fits, Flow.ofBlock] at inWorkbuf
  apply checkedStepBody_eq _ (ofBlock_fits _ made bytes) size (pieceElementsFor_pos _ _)
    (pieceElementsFor_le size pieceBytes) inflight limited
  · intro post member
    exact checkedReduceAfter_eq datatype operation size (pieceElementsFor_pos _ _) inWorkbuf member
  · simp only [Flow.Fits]
    exact (Nat.mul_le_mul_right _ (by omega)).trans_lt inWorkbuf

theorem checkedAllGatherStep_eq (step : Nat) : checkedAllGatherStep context layout datatype step =
    some (allGatherStep context layout datatype step) :=
  have size := four_le_datatypeSize typed
  checkedStepBody_eq (ofBlock_fits _ made bytes) (ofBlock_fits _ made bytes) size
    (pieceElementsFor_pos _ _) (pieceElementsFor_le size pieceBytes) inflight limited
    fun _ _ => rfl

end Steps

theorem checkedReduceScatter_eq (operation : Operation)
    (bytes : count * datatypeSize datatype < sizeLimit)
    (pieceBytes : context.config.pipelinePieceBytes < sizeLimit)
    (inflight : 0 < context.config.maxInflight)
    (limited : context.config.maxInflight ≤ kMaxInflightLimit) :
    checkedReduceScatter context count datatype operation =
      some (ringReduceScatterInplace context count datatype operation) := by
  unfold checkedReduceScatter ringReduceScatterInplace
  split
  · rfl
  rename_i typed
  have size := four_le_datatypeSize typed
  have few : count ≤ count * datatypeSize datatype := Nat.le_mul_of_pos_right _ (by omega)
  rw [checkedBlockLayout_eq (by omega)]
  simp only [Option.bind_eq_bind, Option.bind_some]
  cases made : computeBlockLayout count context.worldSize with
  | error status => rfl
  | ok layout =>
      have largest : layout.counts.foldl max 0 * datatypeSize datatype < sizeLimit :=
        (Nat.mul_le_mul_right _ (foldl_max_le (Nat.zero_le _) (ofBlock_counts made))).trans_lt bytes
      simp only
      rw [Checked.mul_eq largest, Option.bind_some, Checked.mapM_eq fun step _ =>
        checkedReduceScatterStep_eq typed made bytes pieceBytes inflight limited operation step]
      rfl

theorem checkedAllGather_eq (owned : Int) (bytes : count * datatypeSize datatype < sizeLimit)
    (pieceBytes : context.config.pipelinePieceBytes < sizeLimit)
    (inflight : 0 < context.config.maxInflight)
    (limited : context.config.maxInflight ≤ kMaxInflightLimit) :
    checkedAllGather context count datatype owned =
      some (ringAllGatherInplace context count datatype owned) := by
  unfold checkedAllGather ringAllGatherInplace
  split
  · rfl
  split
  · rfl
  split
  · rfl
  rename_i typed
  have size := four_le_datatypeSize typed
  have few : count ≤ count * datatypeSize datatype := Nat.le_mul_of_pos_right _ (by omega)
  rw [checkedBlockLayout_eq (by omega)]
  simp only [Option.bind_eq_bind, Option.bind_some]
  cases made : computeBlockLayout count context.worldSize with
  | error status => rfl
  | ok layout =>
      simp only
      rw [Checked.mapM_eq fun step _ =>
        checkedAllGatherStep_eq typed made bytes pieceBytes inflight limited step]
      rfl

/-- In no call of a collective on buffers that can be addressed does a sum, a difference or a product
of sizes wrap. -/
theorem collectives_checked (inPlace : Bool) (operation : Operation) (owned : Int)
    (bytes : count * datatypeSize datatype < 2 ^ 64)
    (pieceBytes : context.config.pipelinePieceBytes < 2 ^ 64)
    (inflight : 1 ≤ context.config.maxInflight) (limited : context.config.maxInflight ≤ 1024) :
    checkedAllReduce context inPlace count datatype operation =
        some (ringAllReduce context inPlace count datatype operation) ∧
      checkedReduceScatter context count datatype operation =
        some (ringReduceScatterInplace context count datatype operation) ∧
      checkedAllGather context count datatype owned =
        some (ringAllGatherInplace context count datatype owned) := by
  have reduceScatter := checkedReduceScatter_eq operation bytes pieceBytes inflight limited
  have allGather := fun owned => checkedAllGather_eq owned bytes pieceBytes inflight limited
  refine ⟨?_, reduceScatter, allGather owned⟩
  unfold checkedAllReduce ringAllReduce
  split
  · rfl
  split
  · rfl
  rw [show Checked.mul sizeLimit count _ = _ from Checked.mul_eq bytes, reduceScatter, allGather]
  rfl

end Calls

def sampleContext (pieceBytes inflight : Nat) : Context :=
  { config := { pipelinePieceBytes := pieceBytes, maxInflight := inflight, transferMode := .auto },
    rank := 0, worldSize := 2, sequence := 0, call := 0 }

def sampleRecv (count : Nat) : Flow :=
  { block := 1, blockCount := count, buffer := .temporary, start := 0 }

def sampleSend (count : Nat) : Flow :=
  { block := 0, blockCount := count, buffer := .workbuf, start := 0 }

/-- The largest buffer of eight-byte elements, the largest piece size and the most requests in flight. -/
theorem collectives_checked_largest :
    checkedAllReduce (sampleContext (2 ^ 64 - 1) 1024) false (2 ^ 61 - 1) .float64 .max =
      some (ringAllReduce (sampleContext (2 ^ 64 - 1) 1024) false (2 ^ 61 - 1) .float64 .max) :=
  (@collectives_checked (sampleContext (2 ^ 64 - 1) 1024) (2 ^ 61 - 1) .float64 false .max 0
    (by decide) (by decide) (by decide) (by decide)).1

/-- Blocks of five and seven elements, two elements a piece and two pieces a batch. -/
theorem batches_tile_uneven :
    Tiling.Tiled 2 7 (recvRanges (stepBody (sampleContext 11 2) .reduceScatter 0 4 2 (sampleRecv 7)
      (sampleSend 5) fun post => [.waitRecv post])) :=
  ((@batches_tile (sampleContext 11 2) .reduceScatter 0 4 (sampleRecv 7) (sampleSend 5)
    (fun post => [.waitRecv post]) (by decide) (by decide) (by decide) (by decide) (by decide)
    (by decide) fun _ => Or.inl rfl).2.2.1 ⟨by decide, by decide⟩).1

/-- Both blocks have 4097 pieces of one element; the last one has no tag. -/
theorem batches_untiled :
    pieceElementsFor (sampleContext 4 1024).config 4 = 1 ∧
      ¬ Tiling.Tiled 1 4097 (recvRanges (stepBody (sampleContext 4 1024) .reduceScatter 0 4 1
        (sampleRecv 4097) (sampleSend 4097) fun post => [.waitRecv post])) := by
  have waits : WaitsFor fun post => [.waitRecv post] := fun _ => Or.inl rfl
  exact ⟨by decide, @not_tiled_of_many (sampleContext 4 1024) .reduceScatter 0 4 1
    (sampleRecv 4097) (sampleSend 4097) _ (by decide) waits (by decide)⟩

end RingAllReduce
