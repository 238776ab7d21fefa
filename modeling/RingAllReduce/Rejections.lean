import RingAllReduce.Progress

/-!
Where the collectives check the tags and the operation: inside their loops, at operations that make
the call return an error whatever the transport does. A stage is a loop of turns, one per batch.
-/

namespace RingAllReduce

open Exchange Rotation

variable {Value Net Request : Type}

def Instr.rejection : Instr → Option Status
  | .ret status => if status = .success then none else some status
  | .reduce _ _ count datatype operation =>
      if count = 0 then none
      else if datatype.supported = false then some .unsupportedDatatype
      else if operation.supported = false then some .unsupportedOperation
      else none
  | _ => none

def Clear (code : List Instr) : Prop := ∀ instr ∈ code, instr.rejection = none

theorem Clear.append {left right : List Instr} (clearLeft : Clear left) (clearRight : Clear right) :
    Clear (left ++ right) := by
  intro instr member
  rcases List.mem_append.mp member with inLeft | inRight
  · exact clearLeft instr inLeft
  · exact clearRight instr inRight

section Perform

variable {setup : Setup Value} {transport : Transport Value Net Request} {rank : Nat}
  {vars : Variables Request} {net net' : Net} {memory memory' : Memory Value} {instr : Instr}
  {status : Status}

theorem perform_rejected (rejected : instr.rejection = some status) :
    perform setup transport rank vars net memory instr = .done (net, memory) (.stop status) := by
  cases instr with
  | ret result =>
      simp only [Instr.rejection] at rejected
      split at rejected
      · simp at rejected
      · rw [← Option.some.inj rejected]
        rfl
  | reduce destination source count datatype operation =>
      simp only [Instr.rejection] at rejected
      split at rejected
      · simp at rejected
      rename_i nonzero
      have failed : reduceInPlace setup.element (memory.load .workbuf destination count)
          (memory.load .temporary source count) count datatype operation = .error status := by
        split at rejected
        · rename_i untyped
          rw [← Option.some.inj rejected]
          cases datatype <;> simp_all [reduceInPlace, Datatype.supported]
        · rename_i typed
          split at rejected
          · rename_i unknown
            rw [← Option.some.inj rejected]
            exact reduceInPlace_unknown _ (by omega) (by simpa using typed) unknown
          · simp at rejected
      simp [perform, performLocal, failed]
  | _ => simp [Instr.rejection] at rejected

theorem performLocal_clear (clear : instr.rejection = none)
    (stopped : performLocal setup rank memory instr = .error status) : status = .success := by
  cases instr with
  | load call =>
      simp only [performLocal] at stopped
      split at stopped <;> simp at stopped
  | reduce destination source count datatype operation =>
      simp only [performLocal] at stopped
      split at stopped
      · simp at stopped
      rename_i error failed
      rcases Nat.eq_zero_or_pos count with rfl | positive
      · simp [reduceInPlace] at failed
      · have nonzero : count ≠ 0 := by omega
        have passes : datatype.supported = true ∧ operation.supported = true := by
          simp only [Instr.rejection, nonzero, if_false] at clear
          split at clear
          · simp at clear
          · split at clear
            · simp at clear
            · rename_i typed known
              exact ⟨by simpa using typed, by simpa using known⟩
        rw [reduceInPlace_ok _ positive passes.1 passes.2] at failed
        simp at failed
  | ret result =>
      simp only [performLocal, Except.error.injEq] at stopped
      simpa [Instr.rejection, stopped] using clear
  | _ => simp [performLocal] at stopped

/-- Where neither the operations of a rank nor the transport fail, its call goes on. -/
theorem perform_clear (clear : instr.rejection = none) (noEvent : instr.event = none)
    (outcome : perform setup transport rank vars net memory instr =
      .done (net', memory') (.stop status)) : status = .success := by
  cases instr with
  | postRecv post | postSend post | waitRecv post | waitSend post => simp [Instr.event] at noEvent
  | storeOwned block | advanceSequence => simp [perform] at outcome
  | load call | copyInput count | reduce _ _ _ _ _ | ret result =>
      simp only [perform] at outcome
      split at outcome
      · simp at outcome
      · rename_i failed
        simp only [Outcome.done.injEq, Verdict.stop.injEq] at outcome
        exact outcome.2 ▸ performLocal_clear clear failed

theorem clear_of_next {vars' : Variables Request}
    (outcome : perform setup transport rank vars net memory instr =
      .done (net', memory') (.next vars')) : instr.rejection = none := by
  cases rejected : instr.rejection with
  | none => rfl
  | some status => simp [perform_rejected rejected] at outcome

theorem log_clear {world : World Value Net Request} (reachable : Reachable setup transport net world)
    (rank : Nat) : Clear (world.rank rank).log := by
  apply Runs.Reachable.invariant (fun world => Clear (world.rank rank).log) reachable
  · simp [Clear, initialWorld, initialRank]
  · intro before after clear step
    cases step with
    | background done => exact clear
    | rank mover bound taken =>
        by_cases same : rank = mover
        · subst same
          cases rankStep_cases taken with
          | enter call idle succeeded next => simpa [RankState.enter] using clear
          | busy instr rest net memory todo outcome => simpa using clear
          | next instr rest net memory vars todo outcome =>
              rw [World.put_rank_same, RankState.advance]
              exact clear.append fun other member => by
                rw [List.mem_singleton.mp member]
                exact clear_of_next outcome
          | stop instr rest net memory status todo outcome =>
              rw [World.put_rank_same, RankState.leave]
              simp only
              split
              · rename_i success
                rw [success] at outcome
                rw [perform_stop_success outcome]
                exact clear.append fun other member => by
                  rw [List.mem_singleton.mp member]
                  rfl
              · exact clear
        · have kept : after.rank rank = before.rank rank := by
            cases rankStep_cases taken <;> exact World.put_rank_other _ _ _ _ _ same
          rwa [kept]

end Perform

section Turns

variable (context : Context) (count : Nat) (datatype : Datatype) (operation : Operation)
  (stage turn : Nat)

def Context.pieces (block : Nat) : Nat :=
  pieceCountFor (blockCount count context.worldSize block)
    (pieceElementsFor context.config (datatypeSize datatype))

def Context.received : Nat := blockAt context.worldSize context.rank (stage + 1)

def Context.passedOn : Nat := blockAt context.worldSize context.rank stage

def turnRecvs : List (Except Status Post) :=
  batchPosts context (stagePhase context.worldSize stage) (stageStep context.worldSize stage)
    (datatypeSize datatype) (pieceElementsFor context.config (datatypeSize datatype))
    (receivedFlow count context.worldSize stage (context.received stage)) turn

def turnSends : List (Except Status Post) :=
  batchPosts context (stagePhase context.worldSize stage) (stageStep context.worldSize stage)
    (datatypeSize datatype) (pieceElementsFor context.config (datatypeSize datatype))
    (sentFlow count context.worldSize (context.passedOn stage)) turn

def turnPosting : List Instr :=
  postAll .postRecv (turnRecvs context count datatype stage turn) ++
    postAll .postSend (turnSends context count datatype stage turn)

def afterRecv (post : Post) : List Instr :=
  if stage < context.worldSize - 1 then
    [.waitRecv post,
     .reduce (blockOffset count context.worldSize (context.received stage) + post.elementOffset)
       post.elementOffset post.elementCount datatype operation]
  else [.waitRecv post]

def stageTurn : List Instr :=
  turnPosting context count datatype stage turn ++
    (posted (turnRecvs context count datatype stage turn)).flatMap
      (afterRecv context count datatype operation stage) ++
    (posted (turnSends context count datatype stage turn)).map .waitSend

def stageTurns : Nat :=
  (max (context.pieces count datatype (context.passedOn stage))
    (context.pieces count datatype (context.received stage)) + context.config.maxInflight - 1) /
      context.config.maxInflight

theorem stageCode_turns : stageCode context count datatype operation stage =
    (List.range (stageTurns context count datatype stage)).flatMap
      (stageTurn context count datatype operation stage) := by
  simp only [stageCode, stepBody, receivedFlow_blockCount]
  rfl

variable {context count datatype operation stage turn}

theorem makeTag_failed {sequence : UInt32} {phase : CollectivePhase} {step piece : Nat}
    (untagged : ¬ (step ≤ 127 ∧ piece ≤ 4095)) :
    makeTag sequence phase step piece = .error .tagRange := by
  cases made : makeTag sequence phase step piece with
  | error status => rw [makeTag_error made]
  | ok tag =>
      have range := (makeTag_ok_iff sequence phase step piece).mp ⟨tag, made⟩
      omega

theorem postFor_failed {phase : CollectivePhase} {step elementSize pieceElements piece : Nat}
    {flow : Flow} (untagged : ¬ (step ≤ 127 ∧ piece ≤ 4095)) :
    postFor context phase step elementSize pieceElements flow piece = .error .tagRange := by
  unfold postFor
  simp only [makeTag_failed untagged]

theorem stageCode_split (inside : turn < stageTurns context count datatype stage) :
    stageCode context count datatype operation stage =
      (List.range turn).flatMap (stageTurn context count datatype operation stage) ++
        (stageTurn context count datatype operation stage turn ++
          (List.range' (turn + 1) (stageTurns context count datatype stage - (turn + 1))).flatMap
            (stageTurn context count datatype operation stage)) := by
  have joined := @List.range'_append 0 turn (stageTurns context count datatype stage - turn) 1
  simp only [Nat.zero_add, Nat.one_mul] at joined
  rw [stageCode_turns, List.range_eq_range',
    show stageTurns context count datatype stage = turn + (stageTurns context count datatype stage -
      turn) by omega, ← joined, List.flatMap_append, ← List.range_eq_range',
    show stageTurns context count datatype stage - turn =
      stageTurns context count datatype stage - (turn + 1) + 1 by omega, List.range'_succ,
    List.flatMap_cons]
  simp only [show turn + (stageTurns context count datatype stage - (turn + 1) + 1) - (turn + 1) =
    stageTurns context count datatype stage - (turn + 1) by omega]

/-- Whether a posting loop of a turn comes to a piece. -/
def Posts (context : Context) (count : Nat) (datatype : Datatype) (stage turn piece : Nat) : Prop :=
  turn * context.config.maxInflight ≤ piece ∧
    piece < turn * context.config.maxInflight + context.config.maxInflight ∧
    (piece < context.pieces count datatype (context.received stage) ∨
      piece < context.pieces count datatype (context.passedOn stage))

theorem mem_turnPosting {instr : Instr}
    (member : instr ∈ turnPosting context count datatype stage turn) :
    (∃ post, instr = .postRecv post ∨ instr = .postSend post) ∨
      instr = .ret .tagRange ∧ ∃ piece, Posts context count datatype stage turn piece ∧
        ¬ (stageStep context.worldSize stage ≤ 127 ∧ piece ≤ 4095) := by
  have fails : ∀ {flow : Flow} {status : Status}, (.error status : Except Status Post) ∈ batchPosts
      context (stagePhase context.worldSize stage) (stageStep context.worldSize stage)
      (datatypeSize datatype) (pieceElementsFor context.config (datatypeSize datatype)) flow turn →
      status = .tagRange ∧ ∃ piece, turn * context.config.maxInflight ≤ piece ∧
        piece < turn * context.config.maxInflight + context.config.maxInflight ∧
        piece < pieceCountFor flow.blockCount
          (pieceElementsFor context.config (datatypeSize datatype)) ∧
        ¬ (stageStep context.worldSize stage ≤ 127 ∧ piece ≤ 4095) := by
    intro flow status failed
    have range := batchPosts_error failed
    simp only [batchPosts, List.mem_map, List.mem_range'_1] at failed
    obtain ⟨piece, ⟨lower, upper⟩, error⟩ := failed
    refine ⟨range, piece, lower, by omega, by omega, fun tagged => ?_⟩
    obtain ⟨tag, made⟩ := (makeTag_ok_iff context.sequence (stagePhase context.worldSize stage)
      (stageStep context.worldSize stage) piece).mpr ⟨by omega, by omega, tagged.2⟩
    simp [postFor, made] at error
  rcases List.mem_append.mp member with recvs | sends
  · obtain ⟨made, madeIn, rfl⟩ := List.mem_map.mp recvs
    cases made with
    | ok post => exact Or.inl ⟨post, Or.inl rfl⟩
    | error status =>
        obtain ⟨rfl, piece, lower, upper, inFlow, untagged⟩ := fails madeIn
        rw [receivedFlow_blockCount] at inFlow
        exact Or.inr ⟨rfl, piece, ⟨lower, upper, Or.inl inFlow⟩, untagged⟩
  · obtain ⟨made, madeIn, rfl⟩ := List.mem_map.mp sends
    cases made with
    | ok post => exact Or.inl ⟨post, Or.inr rfl⟩
    | error status =>
        obtain ⟨rfl, piece, lower, upper, inFlow, untagged⟩ := fails madeIn
        exact Or.inr ⟨rfl, piece, ⟨lower, upper, Or.inr inFlow⟩, untagged⟩

theorem turnPosting_clear (tagged : ∀ piece, Posts context count datatype stage turn piece →
      stageStep context.worldSize stage ≤ 127 ∧ piece ≤ 4095) :
    Clear (turnPosting context count datatype stage turn) := by
  intro instr member
  rcases mem_turnPosting member with ⟨post, rfl | rfl⟩ | ⟨-, piece, inTurn, untagged⟩
  · rfl
  · rfl
  · exact absurd (tagged piece inTurn) untagged

theorem posting_no_wait (post : Post) :
    .waitRecv post ∉ turnPosting context count datatype stage turn := by
  intro member
  rcases mem_turnPosting member with ⟨other, same | same⟩ | ⟨same, -⟩ <;> simp at same

theorem posting_temporary (early : stage < context.worldSize - 1) {post : Post}
    (member : .postRecv post ∈ turnPosting context count datatype stage turn) :
    post.buffer = .temporary := by
  rcases List.mem_append.mp member with recvs | sends
  · obtain ⟨made, madeIn, isPost⟩ := List.mem_map.mp recvs
    cases made with
    | ok other =>
        obtain rfl := Instr.postRecv.inj isPost
        obtain ⟨piece, -, -, -, made⟩ := mem_batchPosts (mem_posted.mpr madeIn)
        obtain ⟨tag, -, rfl⟩ := postFor_ok made
        simp [receivedFlow, early]
    | error status => simp at isPost
  · obtain ⟨made, -, isPost⟩ := List.mem_map.mp sends
    cases made <;> simp at isPost

theorem turn_temporary (early : stage < context.worldSize - 1) {post : Post}
    (member : .postRecv post ∈ stageTurn context count datatype operation stage turn) :
    post.buffer = .temporary := by
  simp only [stageTurn, List.mem_append] at member
  rcases member with (posting | waits) | acks
  · exact posting_temporary early posting
  · obtain ⟨other, -, inWait⟩ := List.mem_flatMap.mp waits
    simp [afterRecv, early] at inWait
  · simp at acks

theorem stage_temporary (early : stage < context.worldSize - 1) {post : Post}
    (member : .postRecv post ∈ stageCode context count datatype operation stage) :
    post.buffer = .temporary := by
  rw [stageCode_turns] at member
  obtain ⟨turn, -, inTurn⟩ := List.mem_flatMap.mp member
  exact turn_temporary early inTurn

theorem turnRecvs_nonempty {post : Post}
    (member : post ∈ posted (turnRecvs context count datatype stage turn)) :
    ∃ piece, Posts context count datatype stage turn piece ∧
      piece < context.pieces count datatype (context.received stage) := by
  obtain ⟨piece, lower, upper, inFlow, -⟩ := mem_batchPosts member
  rw [receivedFlow_blockCount] at inFlow
  exact ⟨piece, ⟨lower, upper, Or.inl inFlow⟩, inFlow⟩

theorem afterRecv_clear (post : Post) (typed : datatype.supported = true)
    (reduces : stage < context.worldSize - 1 → operation.supported = true) :
    Clear (afterRecv context count datatype operation stage post) := by
  intro instr member
  unfold afterRecv at member
  split at member
  · rename_i early
    rcases List.mem_pair.mp member with rfl | rfl
    · rfl
    · simp [Instr.rejection, typed, reduces early]
  · rw [List.mem_singleton.mp member]
    rfl

theorem stageTurn_clear (typed : datatype.supported = true)
    (tagged : ∀ piece, Posts context count datatype stage turn piece →
      stageStep context.worldSize stage ≤ 127 ∧ piece ≤ 4095)
    (reduces : stage < context.worldSize - 1 →
      0 < context.pieces count datatype (context.received stage) → operation.supported = true) :
    Clear (stageTurn context count datatype operation stage turn) := by
  apply Clear.append (Clear.append (turnPosting_clear tagged) ?_)
  · intro instr member
    obtain ⟨post, -, rfl⟩ := List.mem_map.mp member
    rfl
  · intro instr member
    obtain ⟨post, postIn, inWait⟩ := List.mem_flatMap.mp member
    obtain ⟨piece, -, inBlock⟩ := turnRecvs_nonempty postIn
    exact afterRecv_clear post typed (fun early => reduces early (by omega)) instr inWait

theorem stageCode_clear (typed : datatype.supported = true)
    (tagged : ∀ piece, piece < context.pieces count datatype (context.received stage) ∨
        piece < context.pieces count datatype (context.passedOn stage) →
      stageStep context.worldSize stage ≤ 127 ∧ piece ≤ 4095)
    (reduces : stage < context.worldSize - 1 →
      0 < context.pieces count datatype (context.received stage) → operation.supported = true) :
    Clear (stageCode context count datatype operation stage) := by
  rw [stageCode_turns]
  intro instr member
  obtain ⟨turn, -, inTurn⟩ := List.mem_flatMap.mp member
  exact stageTurn_clear typed (fun piece inTurn => tagged piece inTurn.2.2) reduces instr inTurn

theorem exists_turn (inflight : 0 < context.config.maxInflight) {piece : Nat}
    (inBlock : piece < context.pieces count datatype (context.received stage) ∨
      piece < context.pieces count datatype (context.passedOn stage)) :
    ∃ turn < stageTurns context count datatype stage,
      Posts context count datatype stage turn piece := by
  have below : piece < max (context.pieces count datatype (context.passedOn stage))
      (context.pieces count datatype (context.received stage)) := by omega
  obtain ⟨inside, lower, upper⟩ := Tiling.exists_tile inflight below
  exact ⟨piece / context.config.maxInflight, inside, lower, by omega, inBlock⟩

theorem turn_lt_of_posts (inflight : 0 < context.config.maxInflight) {piece : Nat}
    (inTurn : Posts context count datatype stage turn piece) :
    turn < stageTurns context count datatype stage := by
  obtain ⟨lower, -, inBlock⟩ := inTurn
  rw [show stageTurns context count datatype stage = Tiling.tiles _ _ from rfl,
    Tiling.lt_tiles_iff _ inflight]
  omega

theorem posting_rejects {piece : Nat} (inTurn : Posts context count datatype stage turn piece)
    (untagged : ¬ (stageStep context.worldSize stage ≤ 127 ∧ piece ≤ 4095)) :
    .ret .tagRange ∈ turnPosting context count datatype stage turn := by
  obtain ⟨lower, upper, inBlock⟩ := inTurn
  have fails : ∀ {make : Post → Instr} {flow : Flow}, piece < pieceCountFor flow.blockCount
      (pieceElementsFor context.config (datatypeSize datatype)) →
      .ret .tagRange ∈ postAll make (batchPosts context (stagePhase context.worldSize stage)
        (stageStep context.worldSize stage) (datatypeSize datatype)
        (pieceElementsFor context.config (datatypeSize datatype)) flow turn) := by
    intro make flow inFlow
    refine List.mem_map.mpr ⟨.error .tagRange, List.mem_map.mpr ⟨piece, ?_, ?_⟩, rfl⟩
    · rw [List.mem_range'_1]
      omega
    · exact postFor_failed untagged
  rcases inBlock with received | passedOn
  · exact List.mem_append_left _ (fails (by rw [receivedFlow_blockCount]; exact received))
  · exact List.mem_append_right _ (fails passedOn)

theorem stage_rejects_tag (inflight : 0 < context.config.maxInflight) {piece : Nat}
    (inBlock : piece < context.pieces count datatype (context.received stage) ∨
      piece < context.pieces count datatype (context.passedOn stage))
    (untagged : ¬ (stageStep context.worldSize stage ≤ 127 ∧ piece ≤ 4095)) :
    .ret .tagRange ∈ stageCode context count datatype operation stage := by
  obtain ⟨turn, inside, inTurn⟩ := exists_turn inflight inBlock
  rw [stageCode_turns]
  refine List.mem_flatMap.mpr ⟨turn, List.mem_range.mpr inside, ?_⟩
  exact List.mem_append_left _ (List.mem_append_left _ (posting_rejects inTurn untagged))

theorem late_stage {instr : Instr} (late : 127 < stageStep context.worldSize stage)
    (member : instr ∈ stageCode context count datatype operation stage) : instr = .ret .tagRange := by
  rw [stageCode_turns] at member
  obtain ⟨turn, -, inTurn⟩ := List.mem_flatMap.mp member
  have none : ∀ {flow : Flow} {post : Post}, post ∉ posted (batchPosts context
      (stagePhase context.worldSize stage) (stageStep context.worldSize stage)
      (datatypeSize datatype) (pieceElementsFor context.config (datatypeSize datatype)) flow turn) := by
    intro flow post postIn
    obtain ⟨piece, -, -, -, made⟩ := mem_batchPosts postIn
    rw [postFor_failed (by omega)] at made
    simp at made
  simp only [stageTurn, List.mem_append] at inTurn
  rcases inTurn with (posting | waits) | acks
  · rcases List.mem_append.mp posting with recvs | sends
    · obtain ⟨made, madeIn, rfl⟩ := List.mem_map.mp recvs
      cases made with
      | ok post => exact absurd (mem_posted.mpr madeIn) none
      | error status => rw [batchPosts_error madeIn]
    · obtain ⟨made, madeIn, rfl⟩ := List.mem_map.mp sends
      cases made with
      | ok post => exact absurd (mem_posted.mpr madeIn) none
      | error status => rw [batchPosts_error madeIn]
  · obtain ⟨post, postIn, -⟩ := List.mem_flatMap.mp waits
    exact absurd postIn none
  · obtain ⟨post, postIn, -⟩ := List.mem_map.mp acks
    exact absurd postIn none

theorem pieces_pos_iff (context : Context) (count : Nat) (datatype : Datatype) (block : Nat) :
    0 < context.pieces count datatype block ↔ 0 < blockCount count context.worldSize block := by
  have positive := pieceElementsFor_pos context.config (datatypeSize datatype)
  rw [Context.pieces, pieceCountFor_eq positive, Tiling.lt_tiles_iff _ positive, Nat.zero_mul]

theorem pieces_pos_iff_lt (context : Context) (count : Nat) (datatype : Datatype) {block : Nat}
    (bound : block < context.worldSize) : 0 < context.pieces count datatype block ↔ block < count := by
  rw [pieces_pos_iff, blockCount]
  by_cases few : count < context.worldSize
  · rw [Nat.div_eq_of_lt few, Nat.mod_eq_of_lt few]
    split <;> omega
  · have whole := Nat.div_pos (show context.worldSize ≤ count by omega)
      (show 0 < context.worldSize by omega)
    omega

theorem pieces_antitone (context : Context) (count : Nat) (datatype : Datatype) {first second : Nat}
    (le : first ≤ second) :
    context.pieces count datatype second ≤ context.pieces count datatype first := by
  have counts := (blockCount_balanced count context.worldSize le).1
  have positive := pieceElementsFor_pos context.config (datatypeSize datatype)
  simp only [Context.pieces, pieceCountFor_eq positive, Tiling.tiles]
  exact Nat.div_le_div_right (by omega)

theorem pieces_le_one (context : Context) {count : Nat} (datatype : Datatype)
    (few : count < context.worldSize) (block : Nat) : context.pieces count datatype block ≤ 1 := by
  have positive := pieceElementsFor_pos context.config (datatypeSize datatype)
  have single : blockCount count context.worldSize block ≤ 1 := by
    rw [blockCount, Nat.div_eq_of_lt few]
    split <;> omega
  have none := (Tiling.lt_tiles_iff (blockCount count context.worldSize block) positive 1).not.mpr
    (by omega)
  rw [Context.pieces, pieceCountFor_eq positive]
  omega

/-- A Reduce-Scatter step that receives anything rejects an unknown operation, or an earlier check
does. -/
theorem stage_rejects_operation (inflight : 0 < context.config.maxInflight)
    (early : stage < context.worldSize - 1)
    (some : 0 < context.pieces count datatype (context.received stage))
    (typed : datatype.supported = true) (unknown : operation.supported = false) :
    ∃ instr ∈ stageCode context count datatype operation stage, instr.rejection ≠ none := by
  by_cases noError : ∀ status, .ret status ∈ stageCode context count datatype operation stage →
      status = .success
  · obtain ⟨post, -, -, -, nonempty, reduces⟩ := waitRecv_of_stage context inflight count stage
      datatype operation ((pieces_pos_iff _ _ _ _).mp some) noError
    obtain ⟨destination, source, inStage⟩ := reduces early
    refine ⟨_, inStage, ?_⟩
    simp [Instr.rejection, typed, unknown, show post.elementCount ≠ 0 by omega]
  · simp only [not_forall] at noError
    obtain ⟨status, member, error⟩ := noError
    exact ⟨_, member, by simp [Instr.rejection, error]⟩

def recvPost (context : Context) (count : Nat) (datatype : Datatype) (stage piece : Nat) :
    Except Status Post :=
  postFor context (stagePhase context.worldSize stage) (stageStep context.worldSize stage)
    (datatypeSize datatype) (pieceElementsFor context.config (datatypeSize datatype))
    (receivedFlow count context.worldSize stage (context.received stage)) piece

def sendPost (context : Context) (count : Nat) (datatype : Datatype) (stage piece : Nat) :
    Except Status Post :=
  postFor context (stagePhase context.worldSize stage) (stageStep context.worldSize stage)
    (datatypeSize datatype) (pieceElementsFor context.config (datatypeSize datatype))
    (sentFlow count context.worldSize (context.passedOn stage)) piece

theorem first_reduce_rejects (some : 0 < context.pieces count datatype (context.received stage))
    (typed : datatype.supported = true) (unknown : operation.supported = false) {post : Post}
    (made : recvPost context count datatype stage 0 = .ok post) (destination source : Nat) :
    (Instr.reduce destination source post.elementCount datatype operation).rejection =
      .some .unsupportedOperation := by
  obtain ⟨tag, -, rfl⟩ := postFor_ok made
  have nonempty := (pieces_pos_iff context count datatype _).mp some
  have positive := pieceElementsFor_pos context.config (datatypeSize datatype)
  simp only [Instr.rejection, receivedFlow_blockCount, Nat.zero_mul, Nat.sub_zero, typed, unknown,
    Bool.true_eq_false, if_false, if_true]
  rw [if_neg (by omega)]

theorem postSend_mem {piece : Nat} {post : Post}
    (lower : turn * context.config.maxInflight ≤ piece)
    (upper : piece < turn * context.config.maxInflight + context.config.maxInflight)
    (inBlock : piece < context.pieces count datatype (context.passedOn stage))
    (made : sendPost context count datatype stage piece = .ok post) :
    .postSend post ∈ turnPosting context count datatype stage turn := by
  refine List.mem_append_right _ (List.mem_map.mpr ⟨.ok post, List.mem_map.mpr ⟨piece, ?_, made⟩,
    rfl⟩)
  rw [List.mem_range'_1]
  change piece < pieceCountFor (sentFlow count context.worldSize (context.passedOn stage)).blockCount
    (pieceElementsFor context.config (datatypeSize datatype)) at inBlock
  omega

theorem waitRecv_mem {post : Post}
    (member : .waitRecv post ∈ stageTurn context count datatype operation stage turn) :
    ∃ piece, turn * context.config.maxInflight ≤ piece ∧
      piece < turn * context.config.maxInflight + context.config.maxInflight ∧
      piece < context.pieces count datatype (context.received stage) ∧
      recvPost context count datatype stage piece = .ok post := by
  simp only [stageTurn, List.mem_append] at member
  rcases member with (posting | waits) | acks
  · exact absurd posting (posting_no_wait post)
  · obtain ⟨posted, postedIn, inWait⟩ := List.mem_flatMap.mp waits
    obtain rfl : post = posted := by
      unfold afterRecv at inWait
      split at inWait
      · simpa using inWait
      · simpa using inWait
    obtain ⟨piece, lower, upper, inFlow, made⟩ := mem_batchPosts postedIn
    rw [receivedFlow_blockCount] at inFlow
    exact ⟨piece, lower, upper, inFlow, made⟩
  · simp at acks

theorem mem_stageTurn {instr : Instr}
    (member : instr ∈ stageTurn context count datatype operation stage turn) :
    instr.silent = true ∨ ∃ piece post, turn * context.config.maxInflight ≤ piece ∧
      recvPost context count datatype stage piece = .ok post ∧
      instr ∈ afterRecv context count datatype operation stage post := by
  simp only [stageTurn, List.mem_append] at member
  rcases member with (posting | waits) | acks
  · left
    rcases mem_turnPosting posting with ⟨post, rfl | rfl⟩ | ⟨rfl, -⟩ <;> rfl
  · obtain ⟨post, postIn, inWait⟩ := List.mem_flatMap.mp waits
    obtain ⟨piece, lower, -, -, made⟩ := mem_batchPosts postIn
    exact Or.inr ⟨piece, post, lower, made, inWait⟩
  · left
    obtain ⟨post, -, rfl⟩ := List.mem_map.mp acks
    rfl

/-- A stage that receives anything begins with the first piece; what follows is about others. -/
theorem stageCode_first (inflight : 0 < context.config.maxInflight)
    (step : stageStep context.worldSize stage ≤ 127)
    (some : 0 < context.pieces count datatype (context.received stage)) :
    ∃ post later, recvPost context count datatype stage 0 = .ok post ∧
      stageTurn context count datatype operation stage 0 =
        turnPosting context count datatype stage 0 ++
          (afterRecv context count datatype operation stage post ++ later) ∧
      ∀ instr ∈ later, instr.silent = true ∨ ∃ piece post, 1 ≤ piece ∧
        recvPost context count datatype stage piece = .ok post ∧
        instr ∈ afterRecv context count datatype operation stage post := by
  cases made : recvPost context count datatype stage 0 with
  | error status =>
      obtain ⟨tag, tagMade⟩ := (makeTag_ok_iff context.sequence (stagePhase context.worldSize stage)
        (stageStep context.worldSize stage) 0).mpr ⟨by omega, by omega, by omega⟩
      simp [recvPost, postFor, tagMade] at made
  | ok post =>
      have first : turnRecvs context count datatype stage 0 = .ok post ::
          (List.range' 1 (min context.config.maxInflight
            (context.pieces count datatype (context.received stage)) - 1)).map
              (recvPost context count datatype stage) := by
        obtain ⟨rest, length⟩ := Nat.exists_eq_succ_of_ne_zero
          (show min context.config.maxInflight
            (context.pieces count datatype (context.received stage)) ≠ 0 by omega)
        rw [length, Nat.succ_sub_one, ← made]
        rw [Context.pieces, ← receivedFlow_blockCount count context.worldSize stage] at length
        simp only [turnRecvs, batchPosts, Nat.zero_mul, Nat.zero_add, Nat.sub_zero]
        rw [length, List.range'_succ]
        rfl
      refine ⟨post, (posted ((List.range' 1 (min context.config.maxInflight
          (context.pieces count datatype (context.received stage)) - 1)).map
            (recvPost context count datatype stage))).flatMap
          (afterRecv context count datatype operation stage) ++
        (posted (turnSends context count datatype stage 0)).map .waitSend, rfl, ?_, ?_⟩
      · rw [stageTurn, first, posted_ok, List.flatMap_cons]
        simp only [List.append_assoc]
      · intro instr member
        rcases List.mem_append.mp member with waits | acks
        · obtain ⟨other, otherIn, inWait⟩ := List.mem_flatMap.mp waits
          obtain ⟨piece, inRange, otherMade⟩ := List.mem_map.mp (mem_posted.mp otherIn)
          exact Or.inr ⟨piece, other, (List.mem_range'_1.mp inRange).1, otherMade, inWait⟩
        · obtain ⟨other, -, rfl⟩ := List.mem_map.mp acks
          exact Or.inl rfl

end Turns

end RingAllReduce
