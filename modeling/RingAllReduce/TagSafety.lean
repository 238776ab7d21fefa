import RingAllReduce.AllReduceValue
import RingAllReduce.Drift

/-!
Tags keep 12 bits of the sequence number. Since no rank is more than one call ahead of another,
the messages in flight on a link belong to two consecutive calls at most, and their tags tell them
apart.
-/

namespace RingAllReduce

open Exchange Rotation TagQueue

variable {Value : Type} {setup : Setup Value} {world : MockWorld Value} {rank : Nat}

section Tags

theorem Setup.sequenceAt_allReduce (allReduce : ∀ args ∈ setup.calls, args.kind = .allReduce)
    {call : Nat} (bound : call ≤ setup.calls.length) :
    setup.sequenceAt call = UInt32.ofNat call := by
  induction call with
  | zero => rfl
  | succ call ih =>
      have found : setup.calls[call]? = some setup.calls[call] := List.getElem?_eq_getElem (by omega)
      rw [Setup.sequenceAt, found, ih (by omega)]
      simp only [allReduce _ (List.mem_of_getElem? found), Kind.advances, if_true]
      rw [← UInt32.ofNat_add]

theorem tag_of_plan {batch : Batch Post} (member : batch ∈ setup.plan rank) {post : Post}
    (postIn : post ∈ batch.items) :
    post.call < setup.calls.length ∧
      makeTag (setup.sequenceAt post.call) post.phase post.step post.pieceIndex = .ok post.tag := by
  obtain ⟨call, args, stage, index, found, -, -, rfl⟩ := setup.mem_plan member
  have callBound := (List.getElem?_eq_some_iff.mp found).1
  rcases List.mem_append.mp postIn with recv | send
  · obtain ⟨piece, -, -, -, made⟩ := mem_batchPosts recv
    obtain ⟨tag, tagMade, rfl⟩ := postFor_ok made
    exact ⟨callBound, tagMade⟩
  · obtain ⟨piece, -, -, -, made⟩ := mem_batchPosts send
    obtain ⟨tag, tagMade, rfl⟩ := postFor_ok made
    exact ⟨callBound, tagMade⟩

/-- Two pieces are about the same collective, phase, step and piece of a block. -/
def Piece.SamePlace (first second : Piece) : Prop :=
  first.call = second.call ∧ first.phase = second.phase ∧ first.step = second.step ∧
    first.pieceIndex = second.pieceIndex

theorem Piece.SamePlace.key_eq {first second : Piece} (same : first.SamePlace second) :
    first.key = second.key := by
  obtain ⟨callEq, phaseEq, stepEq, indexEq⟩ := same
  rw [Piece.key, Piece.key, callEq, phaseEq, stepEq, indexEq]

theorem samePlace_of_tag (allReduce : ∀ args ∈ setup.calls, args.kind = .allReduce)
    {first second : Post} {rank' : Nat} {batch batch' : Batch Post}
    (firstIn : batch ∈ setup.plan rank) (firstItem : first ∈ batch.items)
    (secondIn : batch' ∈ setup.plan rank') (secondItem : second ∈ batch'.items)
    (near : first.call ≤ second.call + 1 ∧ second.call ≤ first.call + 1)
    (tags : first.tag = second.tag) : first.toPiece.SamePlace second.toPiece := by
  obtain ⟨firstBound, firstMade⟩ := tag_of_plan firstIn firstItem
  obtain ⟨secondBound, secondMade⟩ := tag_of_plan secondIn secondItem
  obtain ⟨sequences, phases, steps, pieces⟩ := (makeTag_eq_iff firstMade secondMade).mp tags
  rw [setup.sequenceAt_allReduce allReduce (by omega),
    setup.sequenceAt_allReduce allReduce (by omega), UInt32.toNat_ofNat', UInt32.toNat_ofNat']
    at sequences
  exact ⟨by omega, phases, steps, pieces⟩

theorem Setup.call_of_sentAt {place : Nat × Nat} {piece : Piece}
    (member : piece ∈ setup.sentAt rank place) : piece.call = place.1 := by
  obtain ⟨post, inSends, rfl⟩ := List.mem_map.mp member
  obtain ⟨batch, batchIn, inBatch⟩ := List.mem_flatMap.mp inSends
  obtain ⟨args, index, -, rfl⟩ := setup.mem_batchesAt batchIn
  exact (mem_stageBatch_items (List.mem_append_right _ inBatch)).1

/-- The stages of a run are those of its first calls and then those of the others. -/
theorem Setup.places_split (setup : Setup Value) {calls : Nat} (bound : calls ≤ setup.calls.length) :
    ∃ others, setup.places = setup.stagesUpTo calls ++ others ∧
      ∀ place ∈ others, calls ≤ place.1 := by
  obtain ⟨more, lengthEq⟩ := Nat.exists_eq_add_of_le bound
  rw [Setup.places, lengthEq, Setup.stagesUpTo, Setup.stagesUpTo, List.range_add,
    List.flatMap_append]
  refine ⟨_, rfl, ?_⟩
  intro place member
  obtain ⟨call, callIn, inCall⟩ := List.mem_flatMap.mp member
  obtain ⟨offset, -, rfl⟩ := List.mem_map.mp callIn
  split at inCall
  · split at inCall
    · obtain ⟨stage, -, rfl⟩ := List.mem_map.mp inCall
      exact Nat.le_add_right _ _
    · simp at inCall
  · simp at inCall

end Tags

theorem OnSchedule.finished_waited {Request : Type} {state : RankState Request}
    (onSchedule : OnSchedule setup rank state) (bound : rank < setup.worldSize) :
    (setup.stagesUpTo state.finished).flatMap (setup.expectedAt rank) <+: state.waitedPieces := by
  have waited := ((onSchedule.events_between bound).1.filterMap Event.waitedRecv).map Post.toPiece
  change (recvWaits (run (setup.planUpTo rank state.finished))).map Post.toPiece <+: _ at waited
  rw [recvWaits_run, Setup.planUpTo, allRecvs, List.flatMap_assoc, List.map_flatMap] at waited
  exact waited

theorem OnSchedule.sent_isPrefix {Request : Type} {state : RankState Request}
    (onSchedule : OnSchedule setup rank state) (bound : rank < setup.worldSize) :
    state.sentPieces <+: setup.sent rank := by
  have sent := ((onSchedule.events_log bound).filterMap Event.postedSend).map Post.toPiece
  change _ <+: (sendPosts (run (setup.plan rank))).map Post.toPiece at sent
  rwa [sendPosts_run] at sent

/-- Every receive that was waited for was given a message before. -/
def Taken (setup : Setup Value) (world : MockWorld Value) : Prop :=
  ∀ rank < setup.worldSize, ∀ tag,
    lane Piece.tag tag (world.rank (next setup.worldSize rank)).waitedPieces <+:
      (lane matchTag tag (world.net.matched (next setup.worldSize rank))).map Prod.fst

section Queue

variable (inv : MockInvariant setup world)
  (onSchedule : ∀ rank, OnSchedule setup rank (world.rank rank)) (taken : Taken setup world)

include inv in
theorem MockInvariant.queued_sent (bound : rank < setup.worldSize) {message : Message Value}
    (member : message ∈ world.net.incoming (next setup.worldSize rank)) :
    message.piece ∈ (world.rank rank).sentPieces ∧ message.tag = message.piece.tag := by
  have stream := inv.streams rank bound
  have tagEq : message.tag = message.piece.tag := by
    rw [stream.queued message member]
    rfl
  have inLane : message ∈ lane Message.tag message.tag
      (world.net.incoming (next setup.worldSize rank)) := mem_lane.mpr ⟨member, rfl⟩
  have inSent : message.piece ∈ lane Piece.tag message.tag (world.rank rank).sentPieces := by
    rw [stream.lanes]
    exact List.mem_append_right _ (List.mem_map.mpr ⟨message, inLane, rfl⟩)
  exact ⟨(mem_lane.mp inSent).1, tagEq⟩

include inv onSchedule taken in
theorem MockInvariant.finished_consumed (bound : rank < setup.worldSize) :
    (∀ message ∈ world.net.incoming (next setup.worldSize rank),
      (world.rank (next setup.worldSize rank)).finished ≤ message.piece.call) ∧
    ∀ piece ∈ (world.rank rank).sentPieces,
      piece.call < (world.rank (next setup.worldSize rank)).finished →
        ∃ want, (want, piece) ∈ world.net.matched (next setup.worldSize rank) := by
  have nextBound := next_lt setup.positive rank
  have stream := inv.streams rank bound
  have waited := (onSchedule (next setup.worldSize rank)).finished_waited nextBound
  have callsBound := (onSchedule (next setup.worldSize rank)).control.log_split.1
  have agreed := (inv.receivers rank bound).agreed
  have planned := (onSchedule rank).sent_isPrefix bound
  obtain ⟨others, placesEq, later⟩ := setup.places_split callsBound
  generalize (world.rank (next setup.worldSize rank)).finished = calls at *
  rw [setup.sent_eq, placesEq, List.flatMap_append] at planned
  have same := agreed_stages (fun place member => setup.link_aligned bound
    (by rw [placesEq]; exact List.mem_append_left _ member)) (waited.trans (agreed.trans planned))
  obtain ⟨tail, sentEq⟩ := waited.trans agreed
  have tailCalls : ∀ piece ∈ tail, calls ≤ piece.call := by
    intro piece member
    rw [← sentEq, same, List.prefix_append_right_inj] at planned
    obtain ⟨place, placeIn, inPlace⟩ := List.mem_flatMap.mp (planned.subset member)
    rw [Setup.call_of_sentAt inPlace]
    exact later place placeIn
  have lanes : ∀ tag, lane Piece.tag tag
      ((setup.stagesUpTo calls).flatMap (setup.expectedAt (next setup.worldSize rank))) <+:
        (lane matchTag tag (world.net.matched (next setup.worldSize rank))).map Prod.snd := by
    intro tag
    have whole := stream.lanes tag
    rw [← sentEq, lane_append] at whole
    apply List.prefix_of_prefix_length_le (List.prefix_append _ _)
      (by rw [whole]; exact List.prefix_append _ _)
    rw [List.length_map]
    have few := (waited.filter fun piece => piece.tag = tag).length_le
    have given := (taken rank bound tag).length_le
    rw [List.length_map] at given
    exact Nat.le_trans few given
  constructor
  · intro message member
    obtain ⟨-, tagEq⟩ := inv.queued_sent bound member
    have whole := stream.lanes message.tag
    obtain ⟨more, matchedEq⟩ := lanes message.tag
    rw [← sentEq, lane_append, ← matchedEq, List.append_assoc, List.append_cancel_left_eq] at whole
    have inTail : message.piece ∈ lane Piece.tag message.tag tail := by
      rw [whole]
      exact List.mem_append_right _
        (List.mem_map.mpr ⟨message, mem_lane.mpr ⟨member, rfl⟩, rfl⟩)
    exact tailCalls _ (mem_lane.mp inTail).1
  · intro piece member early
    rw [← sentEq, List.mem_append] at member
    have inStages := member.resolve_right fun inTail => by
      have late := tailCalls piece inTail
      omega
    obtain ⟨entry, entryIn, pieceEq⟩ := List.mem_map.mp
      ((lanes piece.tag).subset (mem_lane.mpr ⟨inStages, rfl⟩))
    exact ⟨entry.1, by rw [← pieceEq]; exact (mem_lane.mp entryIn).1⟩

include inv onSchedule taken in
theorem MockInvariant.queued_calls
    (calls : ∀ args ∈ setup.calls, args.kind = .allReduce ∧ 1 ≤ args.count)
    (bound : rank < setup.worldSize) {message : Message Value}
    (member : message ∈ world.net.incoming (next setup.worldSize rank)) :
    (world.rank (next setup.worldSize rank)).finished ≤ message.piece.call ∧
      message.piece.call ≤ (world.rank rank).finished ∧
      (world.rank rank).finished ≤ (world.rank (next setup.worldSize rank)).finished + 1 := by
  have nextBound := next_lt setup.positive rank
  exact ⟨(inv.finished_consumed onSchedule taken bound).1 message member,
    (onSchedule rank).sent_le_finished bound (inv.queued_sent bound member).1,
    inv.finished_le_succ onSchedule calls bound nextBound⟩

end Queue

section Match

/-- What a rank is doing when a receive is given a message. -/
structure Matching (world : MockWorld Value) (mover : Nat) (post : Post)
    (message : Message Value) : Prop where
  todo : ∃ rest, (world.rank mover).todo = .postRecv post :: rest ∨
    (world.rank mover).todo = .waitRecv post :: rest
  queued : message ∈ world.net.incoming mover
  tag : message.tag = post.tag

theorem mem_of_takeFirst {Item Key : Type} [DecidableEq Key] {key : Item → Key} {wanted : Key}
    {queue remaining : List Item} {found : Item}
    (taken : takeFirst key wanted queue = some (found, remaining)) :
    found ∈ queue ∧ key found = wanted := by
  obtain ⟨keyEq, laneEq, -⟩ := takeFirst_lane taken
  exact ⟨(mem_lane.mp (show found ∈ lane key wanted queue by simp [laneEq])).1, keyEq⟩

theorem matched_of_tried {mover : Nat} {post : Post} {rest : List Instr}
    {request request' : RequestState} {ring : MockRing Value} {memory : Memory Value}
    (todo : (world.rank mover).todo = .postRecv post :: rest ∨
      (world.rank mover).todo = .waitRecv post :: rest) (postEq : request.post = post)
    (done : tryCompleteReceive mover request world.net (world.memory mover) =
      some (request', ring, memory)) :
    ∃ message, Matching world mover post message ∧ ring.matched =
      Function.update world.net.matched mover
        (world.net.matched mover ++ [(post.toPiece, message.piece)]) := by
  obtain ⟨message, queue, found, -, matched, -⟩ := tryCompleteReceive_some done
  rw [postEq] at found matched
  obtain ⟨member, tagEq⟩ := mem_of_takeFirst found
  exact ⟨message, ⟨⟨rest, todo⟩, member, tagEq⟩, matched⟩

theorem MockInvariant.matched_perform (inv : MockInvariant setup world) {mover : Nat}
    (onSchedule : OnSchedule setup mover (world.rank mover)) (bound : mover < setup.worldSize)
    {instr : Instr} {rest : List Instr} (todo : (world.rank mover).todo = instr :: rest)
    {ring : MockRing Value} {memory : Memory Value} {verdict : Verdict RequestState}
    (outcome : perform setup (mockTransport Value setup.worldSize) mover (world.rank mover).vars
      world.net (world.memory mover) instr = .done (ring, memory) verdict) :
    ring.matched = world.net.matched ∨ ∃ post message, Matching world mover post message ∧
      ring.matched = Function.update world.net.matched mover
        (world.net.matched mover ++ [(post.toPiece, message.piece)]) := by
  cases instr with
  | postRecv post =>
      simp only [perform, mockTransport, mockPostRecvPrev] at outcome
      split at outcome
      · rename_i request' ring' memory' tried
        simp only [Outcome.map, Outcome.done.injEq, Prod.mk.injEq] at outcome
        obtain ⟨⟨rfl, -⟩, -⟩ := outcome
        exact Or.inr ⟨post, matched_of_tried (Or.inl todo) rfl tried⟩
      · simp only [Outcome.map, Outcome.done.injEq, Prod.mk.injEq] at outcome
        exact Or.inl (by rw [← outcome.1.1])
  | postSend post =>
      simp only [perform, mockTransport, mockPostSendNext, Outcome.map, Outcome.done.injEq,
        Prod.mk.injEq] at outcome
      exact Or.inl (by rw [← outcome.1.1])
  | waitRecv post =>
      obtain ⟨later, opensEq, -⟩ := onSchedule.waitRecv_oldest bound todo
      obtain ⟨prev, prevBound, isNext⟩ := exists_prev bound
      have receiver := inv.receivers prev prevBound
      rw [isNext] at receiver
      obtain ⟨request, found, kind, postEq⟩ := receiver.posted post
        (show post ∈ openRecvs (events (world.rank mover).log) by rw [opensEq]; simp)
      simp only [perform, found, mockTransport, mockWait] at outcome
      split at outcome
      · split at outcome
        · rename_i request' ring' memory' tried
          simp only [Outcome.map, Outcome.done.injEq, Prod.mk.injEq] at outcome
          obtain ⟨⟨rfl, -⟩, -⟩ := outcome
          exact Or.inr ⟨post, matched_of_tried (Or.inr todo) postEq tried⟩
        · simp [Outcome.map] at outcome
      · simp only [Outcome.map, Outcome.done.injEq, Prod.mk.injEq] at outcome
        exact Or.inl (by rw [← outcome.1.1])
  | waitSend post =>
      obtain ⟨result, -⟩ := inv.waitSend_step onSchedule bound todo
      rw [result] at outcome
      simp only [Outcome.done.injEq, Prod.mk.injEq] at outcome
      exact Or.inl (by rw [← outcome.1.1])
  | storeOwned block | advanceSequence =>
      simp only [perform, Outcome.done.injEq, Prod.mk.injEq] at outcome
      exact Or.inl (by rw [← outcome.1.1])
  | load call | copyInput count | reduce _ _ _ _ _ | ret status =>
      simp only [perform] at outcome
      split at outcome <;>
        exact Or.inl (by rw [← (Prod.mk.inj (Outcome.done.inj outcome).1).1])

theorem MockInvariant.matched_step (inv : MockInvariant setup world)
    (onSchedule : ∀ rank, OnSchedule setup rank (world.rank rank)) {after : MockWorld Value}
    (step : Step setup (mockTransport Value setup.worldSize) world after) :
    after.net.matched = world.net.matched ∨ ∃ mover < setup.worldSize, ∃ post message,
      Matching world mover post message ∧ after.net.matched =
        Function.update world.net.matched mover
          (world.net.matched mover ++ [(post.toPiece, message.piece)]) := by
  cases step with
  | background done => exact done.elim
  | rank mover bound stepped =>
      cases rankStep_cases stepped with
      | enter call idle succeeded next => exact Or.inl rfl
      | busy instr rest net memory todo outcome =>
          exact absurd outcome mock_not_busy
      | next instr rest net memory vars todo outcome =>
          exact (inv.matched_perform (onSchedule mover) bound todo outcome).imp_right
            fun found => ⟨mover, bound, found⟩
      | stop instr rest net memory status todo outcome =>
          exact (inv.matched_perform (onSchedule mover) bound todo outcome).imp_right
            fun found => ⟨mover, bound, found⟩

theorem waited_of_failed (onSchedule : ∀ rank, OnSchedule setup rank (world.rank rank))
    {after : MockWorld Value} (step : Step setup (mockTransport Value setup.worldSize) world after)
    {rank : Nat} (failed : ¬ (after.rank rank).alive) :
    (after.rank rank).waitedPieces = (world.rank rank).waitedPieces := by
  cases step with
  | background done => exact done.elim
  | rank mover bound stepped =>
      by_cases same : rank = mover
      · subst same
        cases rankStep_cases stepped with
        | enter call idle succeeded next => rw [World.put_rank_same]; rfl
        | busy instr rest net memory todo outcome => exact absurd outcome mock_not_busy
        | next instr rest net memory vars todo outcome =>
            rw [World.put_rank_same] at failed
            exact absurd ((onSchedule rank).alive_of_todo bound todo) failed
        | stop instr rest net memory status todo outcome =>
            rw [World.put_rank_same, RankState.waitedPieces, RankState.leave]
            simp only
            split
            · rename_i success
              rw [success] at outcome
              simp [perform_stop_success outcome, RankState.waitedPieces, Instr.event]
            · rfl
      · have kept : after.rank rank = world.rank rank := by
          cases rankStep_cases stepped <;> exact World.put_rank_other _ _ _ _ _ same
        rw [kept]

theorem MockInvariant.taken_step (inv : MockInvariant setup world)
    (onSchedule : ∀ rank, OnSchedule setup rank (world.rank rank)) (taken : Taken setup world)
    {after : MockWorld Value} (invAfter : MockInvariant setup after)
    (step : Step setup (mockTransport Value setup.worldSize) world after) : Taken setup after := by
  intro rank bound tag
  by_cases alive : (after.rank (next setup.worldSize rank)).alive
  · cases (invAfter.receivers rank bound).tally alive tag with
    | pending none matches_ => exact matches_ ▸ List.prefix_rfl
    | completed request member tagEq found isCompleted given =>
        obtain ⟨front, got, laneEq, frontEq, -⟩ := given.entry
        rw [tagEq] at laneEq frontEq
        rw [laneEq, ← frontEq, List.map_append]
        exact List.prefix_append _ _
  · rw [waited_of_failed onSchedule step alive]
    refine (taken rank bound tag).trans ((List.IsPrefix.filter _ ?_).map _)
    rcases inv.matched_step onSchedule step with same | ⟨mover, -, post, message, -, matched⟩
    · exact same ▸ List.prefix_rfl
    · rw [matched]
      by_cases here : next setup.worldSize rank = mover
      · rw [here, Function.update_self]
        exact List.prefix_append _ _
      · simp only [Function.update_of_ne here, List.prefix_rfl]

theorem MockInvariant.matching_samePlace (inv : MockInvariant setup world)
    (onSchedule : ∀ rank, OnSchedule setup rank (world.rank rank)) (taken : Taken setup world)
    (calls : ∀ args ∈ setup.calls, args.kind = .allReduce ∧ 1 ≤ args.count) {mover : Nat}
    (bound : mover < setup.worldSize) {post : Post} {message : Message Value}
    (matching : Matching world mover post message) : post.toPiece.SamePlace message.piece := by
  obtain ⟨prev, prevBound, isNext⟩ := exists_prev bound
  obtain ⟨⟨rest, todo⟩, queued, tagEq⟩ := matching
  rw [← isNext] at queued
  obtain ⟨member, messageTag⟩ := inv.queued_sent prevBound queued
  have near := inv.queued_calls onSchedule taken calls prevBound queued
  rw [isNext] at near
  -- the message was planned by the predecessor
  obtain ⟨sent, sentIn, sentEq⟩ := List.mem_map.mp
    (((onSchedule prev).sent_isPrefix prevBound).subset member)
  obtain ⟨batch, batchIn, inBatch⟩ := List.mem_flatMap.mp sentIn
  -- and the receive by the rank itself, in the call it is performing
  obtain ⟨instr, event, first, isEvent, itemEq⟩ : ∃ instr event,
      (world.rank mover).todo = instr :: rest ∧ instr.event = some event ∧ event.item = post := by
    rcases todo with posts | waits
    · exact ⟨_, _, posts, rfl, rfl⟩
    · exact ⟨_, _, waits, rfl, rfl⟩
  obtain ⟨later, split⟩ := (onSchedule mover).events_next bound first isEvent
  obtain ⟨batch', batchIn', itemIn⟩ := item_of_run
    (show event ∈ run (setup.plan mover) by rw [split]; simp)
  rw [itemEq] at itemIn
  have here : post.call = (world.rank mover).finished := by
    obtain ⟨call, args, done, found, code, -, results, noError, -⟩ :=
      (onSchedule mover).underway bound first
    have callEq : post.call = call := by
      rw [← itemEq]
      exact item_of_code bound code noError isEvent
    rw [callEq, RankState.finished, results]
    simp
  rw [← sentEq] at near ⊢
  exact samePlace_of_tag (fun args inCalls => (calls args inCalls).1) batchIn' itemIn batchIn
    (List.mem_append_right _ inBatch) ⟨by omega, by omega⟩
    (by rw [← tagEq, messageTag, ← sentEq])

end Match

/-- Over All-Reduces every receive is given a message for the piece it was posted for. -/
structure MatchInvariant (setup : Setup Value) (world : MockWorld Value) : Prop where
  taken : Taken setup world
  samePlace : ∀ rank < setup.worldSize, ∀ entry ∈ world.net.matched rank,
    entry.1.SamePlace entry.2

theorem matchInvariant_of_reachable
    (calls : ∀ args ∈ setup.calls, args.kind = .allReduce ∧ 1 ≤ args.count)
    (reachable : MockReachable setup world) : MatchInvariant setup world := by
  apply Runs.Reachable.strengthen (MatchInvariant setup) reachable
  · exact ⟨fun rank _ tag => by simp [initialWorld, initialRank, RankState.waitedPieces],
      fun rank _ entry member => by simp [initialWorld, emptyRing] at member⟩
  · intro before after earlier matchInv step
    have inv := mockInvariant_of_reachable earlier
    have onSchedule := onSchedule_of_reachable earlier
    refine ⟨inv.taken_step onSchedule matchInv.taken
      (mockInvariant_of_reachable (earlier.next step)) step, ?_⟩
    intro rank bound entry member
    rcases inv.matched_step onSchedule step with same | ⟨mover, moverBound, post, message, matching,
      matched⟩
    · rw [same] at member
      exact matchInv.samePlace rank bound entry member
    · rw [matched] at member
      by_cases here : rank = mover
      · subst here
        rw [Function.update_self, List.mem_append, List.mem_singleton] at member
        rcases member with old | rfl
        · exact matchInv.samePlace rank bound entry old
        · exact inv.matching_samePlace onSchedule matchInv.taken calls bound matching
      · rw [Function.update_of_ne here] at member
        exact matchInv.samePlace rank bound entry member

theorem lane_of_tags {tag : UInt32} (queue : List (Message Value)) :
    (queue.map Message.tag).count tag = (lane Message.tag tag queue).length := by
  rw [List.count, List.countP_map, List.countP_eq_length_filter, lane]
  congr 1

theorem MockInvariant.tags_nodup (inv : MockInvariant setup world)
    (onSchedule : ∀ rank, OnSchedule setup rank (world.rank rank)) (taken : Taken setup world)
    (calls : ∀ args ∈ setup.calls, args.kind = .allReduce ∧ 1 ≤ args.count)
    (bound : rank < setup.worldSize) :
    ((world.net.incoming (next setup.worldSize rank)).map Message.tag).Nodup := by
  rw [List.nodup_iff_count_le_one]
  intro tag
  rw [lane_of_tags]
  by_contra several
  obtain ⟨first, second, others, laneEq⟩ : ∃ first second others, lane Message.tag tag
      (world.net.incoming (next setup.worldSize rank)) = first :: second :: others := by
    generalize lane Message.tag tag (world.net.incoming (next setup.worldSize rank)) = queue
      at several
    rcases queue with - | ⟨first, - | ⟨second, others⟩⟩
    · simp at several
    · simp at several
    · exact ⟨first, second, others, rfl⟩
  have sent := (onSchedule rank).sent_isPrefix bound
  have less : first.piece.key < second.piece.key := by
    have planned : (setup.sent rank).Pairwise fun first second => first.key < second.key :=
      List.pairwise_map.mpr (setup.plan_sorted rank).2
    have sorted := (planned.sublist sent.sublist).sublist
      (List.filter_sublist (p := fun piece => piece.tag = tag))
    change (lane Piece.tag tag _).Pairwise _ at sorted
    rw [(inv.streams rank bound).lanes, laneEq, List.pairwise_append] at sorted
    exact List.rel_of_pairwise_cons sorted.2.1 (by simp)
  have planned : ∀ message ∈ [first, second], message.tag = tag ∧
      message ∈ world.net.incoming (next setup.worldSize rank) ∧
      ∃ batch ∈ setup.plan rank, ∃ post ∈ batch.items, post.toPiece = message.piece := by
    intro message member
    have inLane : message ∈ lane Message.tag tag
        (world.net.incoming (next setup.worldSize rank)) := by
      rw [laneEq]
      rcases List.mem_pair.mp member with rfl | rfl <;> simp
    obtain ⟨queued, tagEq⟩ := mem_lane.mp inLane
    obtain ⟨post, postIn, pieceEq⟩ :=
      List.mem_map.mp (sent.subset (inv.queued_sent bound queued).1)
    obtain ⟨batch, batchIn, inBatch⟩ := List.mem_flatMap.mp postIn
    exact ⟨tagEq, queued, batch, batchIn, post, List.mem_append_right _ inBatch, pieceEq⟩
  obtain ⟨firstTag, firstIn, batch, batchIn, post, postIn, firstEq⟩ := planned first (by simp)
  obtain ⟨secondTag, secondIn, batch', batchIn', post', postIn', secondEq⟩ :=
    planned second (by simp)
  have firstCalls := inv.queued_calls onSchedule taken calls bound firstIn
  have secondCalls := inv.queued_calls onSchedule taken calls bound secondIn
  rw [← firstEq] at firstCalls less
  rw [← secondEq] at secondCalls less
  have same := samePlace_of_tag (fun args inCalls => (calls args inCalls).1) batchIn postIn
    batchIn' postIn' ⟨by omega, by omega⟩ (by
      have firstTags := (inv.queued_sent bound firstIn).2
      have secondTags := (inv.queued_sent bound secondIn).2
      rw [← firstEq] at firstTags
      rw [← secondEq] at secondTags
      rw [← firstTags, ← secondTags, firstTag, secondTag])
  exact Nat.ne_of_lt less same.key_eq

/-- However many calls a run makes: while a message of call `call + 1` is in flight, everything
sent before call `call` is consumed on all links; the messages in flight on a link have different
tags; and a receive is given the message its predecessor sent for the same call, phase, step and
piece. -/
theorem tags_unambiguous
    (calls : ∀ args ∈ setup.calls, args.kind = .allReduce ∧ 1 ≤ args.count)
    (reachable : MockReachable setup world) :
    (∀ rank < setup.worldSize, ∀ message ∈ world.net.incoming rank, ∀ call,
      message.piece.call = call + 1 → ∀ sender < setup.worldSize,
        call ≤ (world.rank sender).finished ∧
        (∀ piece ∈ (world.rank sender).sentPieces, piece.call < call →
          ∃ want, (want, piece) ∈ world.net.matched (next setup.worldSize sender)) ∧
        ∀ other ∈ world.net.incoming (next setup.worldSize sender), call ≤ other.piece.call) ∧
    (∀ rank < setup.worldSize, ((world.net.incoming rank).map Message.tag).Nodup) ∧
    ∀ rank < setup.worldSize, ∀ entry ∈ world.net.matched (next setup.worldSize rank),
      entry.2 ∈ (world.rank rank).sentPieces ∧ entry.1.SamePlace entry.2 := by
  have inv := mockInvariant_of_reachable reachable
  have onSchedule := onSchedule_of_reachable reachable
  have matchInv := matchInvariant_of_reachable calls reachable
  refine ⟨?_, ?_, ?_⟩
  · intro rank bound message member call callEq sender senderBound
    obtain ⟨prev, prevBound, rfl⟩ := exists_prev bound
    have nextBound := next_lt setup.positive sender
    obtain ⟨-, started, -⟩ := inv.queued_calls onSchedule matchInv.taken calls prevBound member
    have sent := inv.finished_le_succ onSchedule calls prevBound senderBound
    have received := inv.finished_le_succ onSchedule calls prevBound nextBound
    obtain ⟨queued, consumed⟩ := inv.finished_consumed onSchedule matchInv.taken senderBound
    refine ⟨by omega, fun piece sentIn earlier => consumed piece sentIn (by omega), ?_⟩
    intro other otherIn
    have least := queued other otherIn
    omega
  · intro rank bound
    obtain ⟨prev, prevBound, rfl⟩ := exists_prev bound
    exact inv.tags_nodup onSchedule matchInv.taken calls prevBound
  · intro rank bound entry member
    refine ⟨?_, matchInv.samePlace _ (next_lt setup.positive rank) entry member⟩
    have inLane : entry ∈ lane matchTag (matchTag entry)
        (world.net.matched (next setup.worldSize rank)) := mem_lane.mpr ⟨member, rfl⟩
    have inSent : entry.2 ∈ lane Piece.tag (matchTag entry) (world.rank rank).sentPieces := by
      rw [(inv.streams rank bound).lanes]
      exact List.mem_append_left _ (List.mem_map.mpr ⟨entry, inLane, rfl⟩)
    exact (mem_lane.mp inSent).1

theorem tags_unambiguous_pair : ∃ world, MockReachable (pairSetup 2) world ∧
    (∃ message ∈ world.net.incoming 1, message.piece.call = 1) ∧
    ((world.net.incoming 1).map Message.tag).Nodup := by
  have ran : (mockFollow (pairSetup 2) (List.replicate 4 0 ++ List.replicate 10 1 ++
      List.replicate 14 0)).map (fun world => (world.net.incoming 1).map fun message =>
        message.piece.call) = some [0, 1] := by
    decide +kernel
  obtain ⟨world, followed, queued⟩ := Option.map_eq_some_iff.mp ran
  obtain ⟨message, member, callEq⟩ := List.mem_map.mp
    (show 1 ∈ (world.net.incoming 1).map fun message => message.piece.call by rw [queued]; simp)
  have reachable := mockReachable_of_follow followed
  refine ⟨world, reachable, ⟨message, member, callEq⟩, ?_⟩
  exact (tags_unambiguous (by decide) reachable).2.1 1 (by decide)

end RingAllReduce
