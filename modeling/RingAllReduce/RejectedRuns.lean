import RingAllReduce.Drift
import RingAllReduce.StatusAgreement

/-!
What a rank leaves behind in any run in which it rejects an in-place All-Reduce for its operation or
its tags, whatever the configurations of the ranks: the second rank has a send it has not waited for,
or its first element is reduced.
-/

namespace RingAllReduce

open Exchange Rotation

variable {Value Net Request : Type} {setup : Setup Value} {rank call : Nat} {status : Status}
  {args : Call Value}

section Place

theorem event_stop {transport : Transport Value Net Request} {vars : Variables Request}
    {net net' : Net} {memory memory' : Memory Value} {instr : Instr} {event : Event Post}
    (isEvent : instr.event = some event)
    (outcome : perform setup transport rank vars net memory instr =
      .done (net', memory') (.stop status)) : status = .transport := by
  cases instr with
  | postRecv post | postSend post =>
      obtain ⟨answer, -, answered⟩ := Outcome.map_eq_done outcome
      cases answer with
      | none => exact (Verdict.stop.inj answered).symm
      | some request => simp at answered
  | waitRecv post | waitSend post =>
      simp only [perform] at outcome
      split at outcome
      · exact (Verdict.stop.inj (Outcome.done.inj outcome).2).symm
      · obtain ⟨answer, -, answered⟩ := Outcome.map_eq_done outcome
        cases answer with
        | true => simp at answered
        | false =>
            rw [if_neg (by simp)] at answered
            exact (Verdict.stop.inj answered).symm
  | _ => simp [Instr.event] at isEvent

/-- An error that the transport did not return is that of an operation of the rank itself. -/
theorem rejected_of_returned {transport : Transport Value Net Request} {net : Net}
    {world : World Value Net Request} (reachable : Reachable setup transport net world)
    (returned : (world.rank rank).Returned call status) (error : status ≠ .success)
    (own : status ≠ .transport) : Rejected setup rank (world.rank rank) call status := by
  revert returned
  apply Runs.Reachable.strengthen (fun world : World Value Net Request =>
    (world.rank rank).Returned call status → Rejected setup rank (world.rank rank) call status)
    reachable
  · intro returned
    exact absurd returned.last (by simp [initialWorld, initialRank])
  · intro before after earlier held step
    cases step with
    | background done => exact held
    | rank mover bound taken =>
        by_cases here : rank = mover
        · subst here
          have control := (onSchedule_of_reachable earlier rank).control
          cases rankStep_cases taken with
          | enter args idle succeeded next =>
              rw [World.put_rank_same]
              intro returned
              exact absurd returned.idle (by simp [RankState.enter, callCode])
          | busy instr rest net memory todo outcome =>
              rw [World.put_rank_same]
              exact held
          | next instr rest net memory vars todo outcome =>
              rw [World.put_rank_same]
              intro returned
              have answered := returned.status
              cases control with
              | between calls callsBound idle results sequence log => simp [idle] at todo
              | failed call args found done other rest code idle status error results log =>
                  simp [idle] at todo
              | inside current args found done code busy results sequence log =>
                  have success := List.mem_of_getElem? answered
                  rw [RankState.advance, results] at success
                  exact absurd (List.eq_of_mem_replicate success) error
          | stop instr rest net memory result todo outcome =>
              rw [World.put_rank_same]
              intro returned
              cases control with
              | between calls callsBound idle results sequence log => simp [idle] at todo
              | failed call args found done other rest code idle status error results log =>
                  simp [idle] at todo
              | inside current args found done code busy results sequence log =>
                  have last := returned.last
                  have answered := returned.status
                  rw [RankState.leave, results] at last answered
                  obtain rfl : current = call := by simpa using last
                  obtain rfl : result = status := by simpa using answered
                  have noEvent : instr.event = none := by
                    cases isEvent : instr.event with
                    | none => rfl
                    | some event => exact absurd (event_stop isEvent outcome) own
                  have rejects : instr.rejection = some result := by
                    cases rejection : instr.rejection with
                    | none => exact absurd (perform_clear rejection noEvent outcome) error
                    | some other =>
                        rw [perform_rejected rejection] at outcome
                        rw [Verdict.stop.inj (Outcome.done.inj outcome).2]
                  refine ⟨rfl, by rw [RankState.leave, results], error,
                    (List.getElem?_eq_some_iff.mp found).1, done, instr, rest, by rw [code, todo],
                    rejects, ?_⟩
                  simp [RankState.leave, error, log]
        · have kept : after.rank rank = before.rank rank := by
            cases rankStep_cases taken <;> exact World.put_rank_other _ _ _ _ _ here
          rw [kept]
          exact held

theorem Clear.ahead {front tail done rest : List Instr} {instr : Instr} (clear : Clear front)
    (rejects : instr.rejection = some status) (split : front ++ tail = done ++ instr :: rest) :
    ∃ more, done = front ++ more ∧ tail = more ++ instr :: rest := by
  rcases Splits.append_split split with ⟨later, frontEq, -⟩ | split
  · have passed := clear instr (by simp [frontEq])
    simp [rejects] at passed
  · exact split

/-- A call that is rejected for its operation or its tags has passed the checks at the start. -/
theorem Rejected.entered {state : RankState Request} (rejected : Rejected setup rank state call status)
    (found : setup.calls[call]? = some args) (kind : args.kind = .allReduce)
    (cause : status = .unsupportedOperation ∨ status = .tagRange) :
    args.count ≠ 0 ∧ args.datatype.supported = true := by
  obtain ⟨done, instr, rest, code, rejects, -⟩ := rejected.place
  by_contra entered
  obtain ⟨other, differs, codeEq⟩ := code_at_entry found kind entered
  have clear : Clear [.load call] := fun instr member => by rw [List.mem_singleton.mp member]; rfl
  obtain ⟨more, -, tail⟩ := clear.ahead rejects ((codeEq rank).symm.trans code)
  rcases more with - | ⟨first, more⟩
  · obtain ⟨rfl, -⟩ := List.cons.inj tail
    simp only [Instr.rejection] at rejects
    split at rejects
    · simp at rejects
    · obtain rfl := Option.some.inj rejects
      rcases differs with rfl | rfl <;> simp at cause
  · simp at tail

end Place

section Second

variable {context : Context} (several : 2 ≤ context.worldSize)

include several

/-- Where the first rank has the only element, nothing makes it return an error: it reduces
nothing. -/
theorem code_clear_single (first : context.rank = 0) (kind : args.kind = .allReduce)
    (typed : args.datatype.supported = true) (single : args.count = 1) :
    Clear (callCode context args) := by
  have positive : 0 < context.worldSize := by omega
  apply callCode_clear_of_stages (by omega) ⟨typed, by rw [kind]; simp only; omega⟩
  intro stage stageIn
  have bound := Kind.mem_stages stageIn
  -- only the block of the first rank holds anything
  have held : ∀ stage, stage ≤ 2 * (context.worldSize - 1) →
      0 < context.pieces args.count args.datatype (blockAt context.worldSize context.rank stage) →
        stage = 0 ∨ stage = context.worldSize := by
    intro stage le filled
    have here := hop_blockAt (show context.rank < context.worldSize by omega) stage
    have inside := (pieces_pos_iff_lt context args.count args.datatype
      (blockAt_lt positive context.rank stage)).mp filled
    rw [hop, show blockAt context.worldSize context.rank stage = 0 by omega, first, Nat.zero_add]
      at here
    by_contra others
    simp only [not_or] at others
    rcases Nat.lt_or_gt_of_ne others.2 with less | more
    · rw [Nat.mod_eq_of_lt less] at here
      exact others.1 here
    · rw [Nat.mod_eq_sub_mod (by omega), Nat.mod_eq_of_lt (by omega)] at here
      omega
  have least := pieces_le_one context args.datatype (show args.count < context.worldSize by omega)
  apply stageCode_clear typed
  · intro piece inBlock
    have receivedLe := least (context.received stage)
    have passedOnLe := least (context.passedOn stage)
    refine ⟨?_, by omega⟩
    rcases inBlock with received | passedOn
    · have place := held (stage + 1) (by omega) (Nat.zero_lt_of_lt received)
      rw [stageStep]
      split <;> omega
    · have place := held stage (by omega) (Nat.zero_lt_of_lt passedOn)
      rw [stageStep]
      split <;> omega
  · intro early filled
    have place := held (stage + 1) (by omega) filled
    omega

/-- Where the second rank gets through the Reduce-Scatter, it gets through the All-Gather. -/
theorem code_clear_of_scatter (second : context.rank = 1)
    (inflight : 0 < context.config.maxInflight) (kind : args.kind = .allReduce)
    (nonempty : args.count ≠ 0) (typed : args.datatype.supported = true)
    (scatter : ∀ stage < context.worldSize - 1,
      Clear (stageCode context args.count args.datatype args.operation stage)) :
    Clear (callCode context args) := by
  have positive : 0 < context.worldSize := by omega
  have inside : context.rank < context.worldSize := by omega
  -- a piece without a tag would have been met
  have tagged : ∀ stage < context.worldSize - 1, ∀ piece,
      piece < context.pieces args.count args.datatype (context.received stage) →
        stageStep context.worldSize stage ≤ 127 ∧ piece ≤ 4095 := by
    intro stage early piece filled
    by_contra untagged
    have clear := scatter stage early _ (stage_rejects_tag inflight (Or.inl filled) untagged)
    simp [Instr.rejection] at clear
  have few : ∀ block, context.pieces args.count args.datatype block ≤ 4096 := by
    intro block
    refine (pieces_antitone context args.count args.datatype (Nat.zero_le block)).trans ?_
    by_contra large
    have first : context.received 0 = 0 := by
      rw [Context.received, second]
      exact blockAt_eq_sub (Nat.le_refl _) (by omega)
    have last := tagged 0 (by omega) 4096 (by rw [first]; omega)
    omega
  apply callCode_clear_of_stages inside ⟨typed, by rw [kind]; exact nonempty⟩
  intro stage stageIn
  have bound := Kind.mem_stages stageIn
  by_cases early : stage < context.worldSize - 1
  · exact scatter stage early
  · refine stageCode_clear typed (fun piece inBlock => ⟨?_, ?_⟩) fun early' => absurd early' early
    · by_cases ranks : context.worldSize ≤ 129
      · exact stageStep_le ranks bound
      · -- on so many ranks only the first two blocks hold anything
        have none : ¬ 0 < context.pieces args.count args.datatype 2 := by
          intro filled
          have block : context.received (context.worldSize - 2) = 2 := by
            rw [Context.received, second, blockAt_eq_add (by omega) (by omega)]
            omega
          have last := (tagged (context.worldSize - 2) (by omega) 0 (by rw [block]; exact filled)).1
          rw [stageStep_early (by omega)] at last
          omega
        have held : ∀ stage, 127 + context.worldSize ≤ stage →
            stage ≤ 2 * (context.worldSize - 1) →
            ¬ 0 < context.pieces args.count args.datatype
              (blockAt context.worldSize context.rank stage) := by
          intro stage late le filled
          have here := hop_blockAt inside stage
          have least : blockAt context.worldSize context.rank stage ≤ 1 := by
            by_contra more
            have antitone := pieces_antitone context args.count args.datatype
              (show 2 ≤ blockAt context.worldSize context.rank stage by omega)
            omega
          rw [second] at here least
          rw [hop, Nat.mod_eq_sub_mod (by omega), Nat.mod_eq_of_lt (by omega)] at here
          omega
        rw [stageStep, if_neg early]
        by_contra late
        rcases inBlock with received | passedOn
        · exact held (stage + 1) (by omega) (by omega) (Nat.zero_lt_of_lt received)
        · exact held stage (by omega) (by omega) (Nat.zero_lt_of_lt passedOn)
    · have receivedLe := few (context.received stage)
      have passedOnLe := few (context.passedOn stage)
      omega

end Second

section Left

variable {world : MockWorld Value} {done : List Instr}

theorem no_sendWaits {code : List Instr} (none : ∀ post, .waitSend post ∉ code) :
    sendWaits (events code) = [] := by
  rw [sendWaits, List.filterMap_eq_nil_iff]
  intro event member
  obtain ⟨instr, inCode, isEvent⟩ := List.mem_filterMap.mp member
  cases instr <;> simp [Instr.event] at isEvent <;> subst isEvent
  · rfl
  · rfl
  · rfl
  · exact absurd inCode (none _)

/-- A send that a rank has posted in its last call has a request as long as it has waited for none. -/
theorem send_left (reachable : MockReachable setup world) (bound : rank < setup.worldSize)
    (inside : call ≤ setup.calls.length)
    (log : (world.rank rank).log = setup.codeUpTo rank call ++ done) {post : Post}
    (posted : .postSend post ∈ done) (unwaited : ∀ post, .waitSend post ∉ done) :
    ∃ slot, (world.rank rank).vars.requests slot ≠ none := by
  have noError := (onSchedule_of_reachable reachable rank).noError
  rw [log] at noError
  have sends : post ∈ sendPosts (events done) :=
    List.mem_filterMap.mpr ⟨.postSend post, List.mem_filterMap.mpr ⟨_, posted, rfl⟩, rfl⟩
  have isOpen : post ∈ openSends (events (world.rank rank).log) := by
    rw [log, events_append, events_codeUpTo bound inside fun status member =>
      noError status (List.mem_append_left _ member), openSends_run_append, openSends,
      no_sendWaits unwaited]
    exact sends
  obtain ⟨request, slot, -⟩ := (mockInvariant_of_reachable reachable).sends rank bound post isOpen
  exact ⟨_, by rw [slot]; simp⟩

/-- The work buffer of a rank holds what it should where the last call receives into the temporary
buffer only. -/
theorem workbuf_left (reachable : MockReachable setup world) (bound : rank < setup.worldSize)
    (inside : call ≤ setup.calls.length)
    (log : (world.rank rank).log = setup.codeUpTo rank call ++ done)
    (temporary : ∀ post, .postRecv post ∈ done → post.buffer = .temporary) (index : Nat) :
    world.memory rank .workbuf index = expectedMemory setup rank
      (expectedMemory setup rank (setup.memory rank) (setup.codeUpTo rank call)) done .workbuf
        index := by
  have noError := (onSchedule_of_reachable reachable rank).noError
  rw [log] at noError
  have closed : ∀ post ∈ (world.rank rank).opens, ¬ post.covers .workbuf index := by
    intro post isOpen covers
    rw [RankState.opens, log, events_append, events_codeUpTo bound inside
      fun status member => noError status (List.mem_append_left _ member), openRecvs_run_append]
      at isOpen
    obtain ⟨event, inEvents, isPost⟩ := List.mem_filterMap.mp (List.mem_of_mem_drop isOpen)
    obtain ⟨instr, inCode, isEvent⟩ := List.mem_filterMap.mp inEvents
    have same : instr = .postRecv post := by
      cases event <;> simp [Event.postedRecv] at isPost
      subst isPost
      cases instr <;> simp [Instr.event] at isEvent
      rw [isEvent]
    have inTemporary := temporary post (same ▸ inCode)
    simp [covers.1.symm] at inTemporary
  rw [(mockInvariant_of_reachable reachable).memory rank bound .workbuf index closed, log,
    expectedMemory_append]

end Left

section Buffers

/-- Whether an operation leaves an element of the work buffer as it is. -/
def Instr.spares (index : Nat) (instr : Instr) : Prop :=
  ∃ start count, instr.writesIn start count ∧ (index < start ∨ start + count ≤ index)

theorem Instr.spares_of_silent {instr : Instr} (silent : instr.silent = true) (index : Nat) :
    instr.spares index := by
  refine ⟨index + 1, 0, ?_, Or.inl (Nat.lt_succ_self index)⟩
  cases instr <;> first | rfl | simp [Instr.silent] at silent

variable {context : Context} {count : Nat} {datatype : Datatype} {operation : Operation}
  {stage turn : Nat}

theorem afterRecv_spares (early : stage < context.worldSize - 1) {piece : Nat} {post : Post}
    (later : 1 ≤ piece) (made : recvPost context count datatype stage piece = .ok post)
    {instr : Instr} (member : instr ∈ afterRecv context count datatype operation stage post) :
    instr.spares 0 := by
  obtain ⟨tag, -, postEq⟩ := postFor_ok made
  rw [afterRecv, if_pos early] at member
  rcases List.mem_pair.mp member with rfl | rfl
  · exact ⟨1, 0, Or.inl (by rw [postEq]; simp [receivedFlow, early]), Or.inl Nat.zero_lt_one⟩
  · refine ⟨_, _, ⟨Nat.le_refl _, Nat.le_refl _⟩, Or.inl ?_⟩
    have positive := Nat.mul_pos later
      (pieceElementsFor_pos context.config (datatypeSize datatype))
    rw [postEq]
    simp only
    omega

theorem turn_spares (early : stage < context.worldSize - 1) (inflight : 0 < context.config.maxInflight)
    (later : 1 ≤ turn) {instr : Instr}
    (member : instr ∈ stageTurn context count datatype operation stage turn) : instr.spares 0 := by
  rcases mem_stageTurn member with silent | ⟨piece, post, lower, made, after⟩
  · exact Instr.spares_of_silent silent 0
  · exact afterRecv_spares early ((Nat.mul_pos later inflight).trans_le lower) made after

theorem stage_spares (nonempty : count ≠ 0)
    (apart : blockAt context.worldSize context.rank (stage + 1) ≠ 0)
    {instr : Instr} (member : instr ∈ stageCode context count datatype operation stage) :
    instr.spares 0 := by
  refine ⟨_, _, stageCode_writes member, ?_⟩
  by_contra overlap
  simp only [not_or, Nat.not_lt, Nat.not_le] at overlap
  have first : 0 < blockCount count context.worldSize 0 :=
    blockCount_zero_pos context.worldSize (by omega)
  exact apart (blocks_disjoint count context.worldSize overlap
    ⟨by simp, by simpa using first⟩)

/-- Of the first element of the work buffer the second rank reduces the value of the first one into
its own, in the first turn of the first step. -/
theorem first_reduced (several : 2 ≤ setup.worldSize) (found : setup.calls[call]? = some args)
    (kind : args.kind = .allReduce) (inPlace : args.inPlace 1 = true)
    (inPlaceFirst : args.inPlace 0 = true) (nonempty : args.count ≠ 0)
    (typed : args.datatype.supported = true) {others : List Instr}
    (spared : ∀ instr ∈ others, instr.spares 0) (memory : Memory Value) :
    expectedMemory setup 1 memory ((.load call :: args.copies 1) ++
      (stageTurn (setup.callContext 1 call) args.count args.datatype args.operation 0 0 ++ others))
        .workbuf 0 = setup.combine args (args.workbuf 1 0) (args.workbuf 0 0) := by
  have early : 0 < setup.worldSize - 1 := by omega
  have bound : 1 < setup.worldSize := by omega
  have inflight := (effectiveConfig_maxInflight (setup.config 1)).1
  have block : blockAt setup.worldSize 1 (0 + 1) = 0 := blockAt_eq_sub (Nat.le_refl _) bound
  have first : 0 < blockCount args.count setup.worldSize 0 :=
    blockCount_zero_pos setup.worldSize (by omega)
  have filled : 0 < (setup.callContext 1 call).pieces args.count args.datatype
      ((setup.callContext 1 call).received 0) := by
    rw [pieces_pos_iff]
    change 0 < blockCount args.count setup.worldSize (blockAt setup.worldSize 1 (0 + 1))
    rwa [block]
  have step : stageStep setup.worldSize 0 ≤ 127 := by
    rw [stageStep_early early]
    omega
  obtain ⟨post, later, made, turnEq, laterOthers⟩ := @stageCode_first (setup.callContext 1 call)
    args.count args.datatype args.operation 0 inflight step filled
  have sparedLater : ∀ instr ∈ later ++ others, instr.spares 0 := by
    intro instr member
    rcases List.mem_append.mp member with inLater | inOthers
    · rcases laterOthers instr inLater with silent | ⟨piece, other, ahead, otherMade, after⟩
      · exact Instr.spares_of_silent silent 0
      · exact afterRecv_spares early ahead otherMade after
    · exact spared instr inOthers
  have posting : ∀ instr ∈ turnPosting (setup.callContext 1 call) args.count args.datatype 0 0,
      instr.spares 0 := by
    intro instr member
    apply Instr.spares_of_silent
    rcases mem_turnPosting member with ⟨other, rfl | rfl⟩ | ⟨rfl, -⟩ <;> rfl
  have copies : args.copies 1 = [] := by simp [Call.copies, inPlace]
  have arrived := expectedMemory_piece found typed made
  rw [turnEq, copies, List.append_assoc, List.append_assoc, expectedMemory_append,
    expectedMemory_append, expectedMemory_append, expectedMemory_spared setup 1 sparedLater]
  refine (arrived _ 0).trans ?_
  have positive := pieceElementsFor_pos (effectiveConfig (setup.config 1))
    (datatypeSize args.datatype)
  rw [if_pos early, expectedMemory_spared setup 1 posting]
  change (if blockOffset args.count setup.worldSize (blockAt setup.worldSize 1 (0 + 1)) + _ ≤ 0 ∧
    0 < blockOffset args.count setup.worldSize (blockAt setup.worldSize 1 (0 + 1)) + _ +
      min _ (blockCount args.count setup.worldSize (blockAt setup.worldSize 1 (0 + 1)) - _) then
    setup.combine args _ (setup.carried args (blockAt setup.worldSize 1 (0 + 1)) 0 0) else _) = _
  rw [block, blockOffset_zero, if_pos (by simp only [Setup.context, Nat.zero_mul]; omega)]
  have own : expectedMemory setup 1 memory [.load call] .workbuf 0 = args.workbuf 1 0 := by
    rw [expectedMemory_cons, expectedMemory_nil]
    simp [expectedStep, performLocal, found, Call.handOver]
  have other : setup.carried args 0 0 0 = args.workbuf 0 0 := by
    simp [Setup.carried, kind, ringFold, Call.input, inPlaceFirst]
  rw [own, other]

/-- The code of an All-Reduce begins with the first turn, and what else the second rank does in the
Reduce-Scatter leaves its first element as it is. -/
theorem callCode_second {context : Context} (several : 2 ≤ context.worldSize)
    (second : context.rank = 1) (inflight : 0 < context.config.maxInflight)
    (kind : args.kind = .allReduce) (nonempty : args.count ≠ 0)
    (typed : args.datatype.supported = true) :
    ∃ later rest, callCode context args = (.load context.call :: args.copies context.rank) ++
        (stageTurn context args.count args.datatype args.operation 0 0 ++ (later ++ rest)) ∧
      (List.range (context.worldSize - 1)).flatMap
          (stageCode context args.count args.datatype args.operation) =
        stageTurn context args.count args.datatype args.operation 0 0 ++ later ∧
      ∀ instr ∈ later, instr.spares 0 := by
  have inside : context.rank < context.worldSize := by omega
  have filled : 0 < context.pieces args.count args.datatype (context.received 0) := by
    rw [Context.received, second, blockAt_eq_sub (Nat.le_refl _) (by omega),
      pieces_pos_iff_lt context args.count args.datatype (by omega)]
    omega
  obtain ⟨turn, turnInside, -⟩ := exists_turn inflight (Or.inl filled)
  obtain ⟨others, stages⟩ := Nat.exists_eq_succ_of_ne_zero (show context.worldSize - 1 ≠ 0 by omega)
  have scatter : (List.range (context.worldSize - 1)).flatMap
      (stageCode context args.count args.datatype args.operation) =
      stageTurn context args.count args.datatype args.operation 0 0 ++
        ((List.range' 1 (stageTurns context args.count args.datatype 0 - 1)).flatMap
          (stageTurn context args.count args.datatype args.operation 0) ++
        (List.range' 1 others).flatMap
          (stageCode context args.count args.datatype args.operation)) := by
    rw [stages, List.range_eq_range', List.range'_succ, List.flatMap_cons,
      stageCode_split (Nat.lt_of_le_of_lt (Nat.zero_le turn) turnInside)]
    simp only [List.range_zero, List.flatMap_nil, List.nil_append, List.append_assoc, Nat.zero_add]
  obtain ⟨rest, code⟩ := callCode_scatter inside kind nonempty typed (Nat.le_refl _)
  refine ⟨_, rest, ?_, scatter, ?_⟩
  · rw [code, scatter, Nat.sub_self]
    simp only [List.range'_zero, List.flatMap_nil, List.nil_append, List.append_assoc,
      List.cons_append]
  · intro instr member
    rcases List.mem_append.mp member with inTurns | inStages
    · obtain ⟨turn, turnIn, inTurn⟩ := List.mem_flatMap.mp inTurns
      exact turn_spares (show 0 < context.worldSize - 1 by omega) inflight
        (List.mem_range'_1.mp turnIn).1 inTurn
    · obtain ⟨stage, stageIn, inStage⟩ := List.mem_flatMap.mp inStages
      rw [List.mem_range'_1] at stageIn
      refine stage_spares nonempty ?_ inStage
      rw [second, blockAt_eq_add (by omega) (by omega)]
      omega

end Buffers

section Done

variable {context : Context} (several : 2 ≤ context.worldSize) (second : context.rank = 1)
  (inflight : 0 < context.config.maxInflight) (limit : context.config.maxInflight ≤ kMaxInflightLimit)
  (kind : args.kind = .allReduce) (nonempty : args.count ≠ 0)
  (typed : args.datatype.supported = true) {done rest : List Instr} {instr : Instr}
  (code : callCode context args = done ++ instr :: rest) (clear : Clear done)
  (rejects : instr.rejection = some status)

include several limit in
theorem firstPosting_clear (count : Nat) (datatype : Datatype) :
    Clear (turnPosting context count datatype 0 0) := by
  have limitEq : kMaxInflightLimit = 1024 := rfl
  refine turnPosting_clear fun piece inTurn => ⟨?_, ?_⟩
  · rw [stageStep_early (by omega)]
    omega
  · have upper := inTurn.2.1
    omega

include several second kind nonempty typed inflight limit code clear rejects

/-- A second rank that has met an unknown operation has posted a send, and has waited for none. -/
theorem done_of_operation (unknown : args.operation.supported = false) (more : 1 < args.count) :
    (∃ post, .postSend post ∈ done) ∧ ∀ post, .waitSend post ∉ done := by
  have early : 0 < context.worldSize - 1 := by omega
  have step : stageStep context.worldSize 0 ≤ 127 := by
    rw [stageStep_early early]
    omega
  have filled : ∀ block < 2, 0 < context.pieces args.count args.datatype block := by
    intro block less
    rw [pieces_pos_iff_lt context args.count args.datatype (by omega)]
    omega
  have received : context.received 0 = 0 := by
    rw [Context.received, second]
    exact blockAt_eq_sub (Nat.le_refl _) (by omega)
  have passedOn : context.passedOn 0 = 1 := by
    rw [Context.passedOn, second]
    exact blockAt_eq_sub (Nat.zero_le _) (by omega)
  obtain ⟨later, others, codeEq, -⟩ :=
    callCode_second several second inflight kind nonempty typed
  obtain ⟨post, waits, made, turnEq, -⟩ := @stageCode_first context args.count args.datatype
    args.operation 0 inflight step (by rw [received]; exact filled 0 (by omega))
  obtain ⟨reduction, after, stops⟩ : ∃ reduction,
      afterRecv context args.count args.datatype args.operation 0 post =
        [.waitRecv post, reduction] ∧ reduction.rejection = some .unsupportedOperation := by
    exact ⟨_, if_pos early, first_reduce_rejects (by rw [received]; exact filled 0 (by omega)) typed
      unknown made _ _⟩
  have frontClear : Clear ((.load context.call :: args.copies context.rank) ++
      (turnPosting context args.count args.datatype 0 0 ++ [.waitRecv post])) := by
    refine (opening_clear context args).append
      ((firstPosting_clear several limit args.count args.datatype).append ?_)
    intro instr member
    rw [List.mem_singleton.mp member]
    rfl
  have split : ((.load context.call :: args.copies context.rank) ++
      (turnPosting context args.count args.datatype 0 0 ++ [.waitRecv post])) ++
        reduction :: (waits ++ (later ++ others)) = done ++ instr :: rest := by
    rw [← code, codeEq, turnEq, after]
    simp only [List.append_assoc, List.cons_append, List.nil_append]
  obtain ⟨further, doneEq, tail⟩ := frontClear.ahead rejects split
  -- the rank is at the first reduction
  obtain rfl : further = [] := by
    rcases further with - | ⟨first, further⟩
    · rfl
    · obtain ⟨rfl, -⟩ := List.cons.inj tail
      have passed := clear reduction (by rw [doneEq]; simp)
      simp [stops] at passed
  rw [List.append_nil] at doneEq
  subst doneEq
  constructor
  · obtain ⟨tag, tagMade⟩ := (makeTag_ok_iff context.sequence (stagePhase context.worldSize 0)
      (stageStep context.worldSize 0) 0).mpr ⟨by omega, by omega, by omega⟩
    cases sent : sendPost context args.count args.datatype 0 0 with
    | error status => simp [sendPost, postFor, tagMade] at sent
    | ok post =>
        exact ⟨post, List.mem_append_right _ (List.mem_append_left _ (postSend_mem (by omega)
          (by omega) (by rw [passedOn]; exact filled 1 (by omega)) sent))⟩
  · intro other member
    rcases List.mem_append.mp member with opening | member
    · unfold Call.copies at opening
      split at opening <;> simp at opening
    · rcases List.mem_append.mp member with posting | waited
      · rcases mem_turnPosting posting with ⟨_, same | same⟩ | ⟨same, -⟩ <;> simp at same
      · simp at waited

/-- A second rank that has met a piece without a tag has performed the first turn, and is still in
the Reduce-Scatter. -/
theorem done_of_tags (known : args.operation.supported = true) :
    ∃ others, done = (.load context.call :: args.copies context.rank) ++
        (stageTurn context args.count args.datatype args.operation 0 0 ++ others) ∧
      (∀ instr ∈ others, instr.spares 0) ∧
      ∀ post, .postRecv post ∈ done → post.buffer = .temporary := by
  obtain ⟨later, last, codeEq, scatter, spared⟩ :=
    callCode_second several second inflight kind nonempty typed
  have step : stageStep context.worldSize 0 ≤ 127 := by
    rw [stageStep_early (by omega)]
    omega
  have limitEq : kMaxInflightLimit = 1024 := rfl
  have turnClear : Clear (stageTurn context args.count args.datatype args.operation 0 0) := by
    refine stageTurn_clear typed (fun piece inTurn => ⟨step, ?_⟩) fun _ _ => known
    have upper := inTurn.2.1
    omega
  have split : ((.load context.call :: args.copies context.rank) ++
      stageTurn context args.count args.datatype args.operation 0 0) ++ (later ++ last) =
        done ++ instr :: rest := by
    rw [← code, codeEq, List.append_assoc]
  obtain ⟨others, doneEq, tail⟩ :=
    ((opening_clear context args).append turnClear).ahead rejects split
  have within : ∀ instr ∈ others, instr ∈ later := by
    rcases Splits.append_split tail with ⟨ahead, laterEq, -⟩ | ⟨lead, othersEq, -⟩
    · intro instr member
      rw [laterEq]
      exact List.mem_append_left _ member
    · -- through the Reduce-Scatter, it would have got through the whole call
      have scatterClear : ∀ stage < context.worldSize - 1,
          Clear (stageCode context args.count args.datatype args.operation stage) := by
        intro stage early instr member
        have inScatter := List.mem_flatMap.mpr ⟨stage, List.mem_range.mpr early, member⟩
        rw [scatter] at inScatter
        apply clear
        rw [doneEq, othersEq]
        rcases List.mem_append.mp inScatter with inTurn | inLater
        · simp [inTurn]
        · simp [inLater]
      have passed := code_clear_of_scatter several second inflight kind nonempty typed scatterClear
        instr (by rw [code]; simp)
      simp [rejects] at passed
  refine ⟨others, by rw [doneEq, List.append_assoc], fun instr member => spared instr
    (within instr member), ?_⟩
  intro post member
  rw [doneEq, List.append_assoc, List.mem_append] at member
  rcases member with opening | member
  · exact absurd opening (opening_no_post context args post)
  · have inScatter : .postRecv post ∈ (List.range (context.worldSize - 1)).flatMap
        (stageCode context args.count args.datatype args.operation) := by
      rw [scatter]
      rcases List.mem_append.mp member with inTurn | inOthers
      · exact List.mem_append_left _ inTurn
      · exact List.mem_append_right _ (within _ inOthers)
    obtain ⟨stage, stageIn, inStage⟩ := List.mem_flatMap.mp inScatter
    exact stage_temporary (List.mem_range.mp stageIn) inStage

end Done

section Effects

variable {world : MockWorld Value} (several : 2 ≤ setup.worldSize)
  (reachable : MockReachable setup world) (found : setup.calls[call]? = some args)
  (kind : args.kind = .allReduce) (rejected : Rejected setup 1 (world.rank 1) call status)
  (cause : status = .unsupportedOperation ∨ status = .tagRange)

include several reachable found kind rejected cause

theorem Rejected.request_left (unknown : args.operation.supported = false) (more : 1 < args.count) :
    ∃ slot, (world.rank 1).vars.requests slot ≠ none := by
  have inflight := effectiveConfig_maxInflight (setup.config 1)
  have inside := rejected.inside
  obtain ⟨nonempty, typed⟩ := rejected.entered found kind cause
  obtain ⟨done, instr, rest, code, rejects, log⟩ := rejected.place
  have clear : Clear done := fun other member => log_clear reachable 1 other (by rw [log]; simp [member])
  simp only [Setup.code, found] at code
  obtain ⟨⟨post, posted⟩, unwaited⟩ := @done_of_operation _ _ _ (setup.callContext 1 call) several
    rfl inflight.1 inflight.2 kind nonempty typed _ _ _ code clear rejects unknown more
  exact send_left reachable several (Nat.le_of_lt inside) log posted unwaited

theorem Rejected.element_left (inPlace : ∀ rank < setup.worldSize, args.inPlace rank = true)
    (known : args.operation.supported = true) :
    world.memory 1 .workbuf 0 = setup.combine args (args.workbuf 1 0) (args.workbuf 0 0) := by
  have inflight := effectiveConfig_maxInflight (setup.config 1)
  have inside := rejected.inside
  obtain ⟨nonempty, typed⟩ := rejected.entered found kind cause
  obtain ⟨done, instr, rest, code, rejects, log⟩ := rejected.place
  have clear : Clear done := fun other member => log_clear reachable 1 other (by rw [log]; simp [member])
  simp only [Setup.code, found] at code
  obtain ⟨others, doneEq, spared, temporary⟩ := @done_of_tags _ _ _ (setup.callContext 1 call)
    several rfl inflight.1 inflight.2 kind nonempty typed _ _ _ code clear rejects known
  rw [workbuf_left reachable several (Nat.le_of_lt inside) log temporary, doneEq]
  exact first_reduced several found kind (inPlace 1 several) (inPlace 0 setup.positive) nonempty
    typed spared _

end Effects

end RingAllReduce
