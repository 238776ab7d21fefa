import RingAllReduce.MockLinks

/-! The invariant of every run over the mock transport. -/

namespace RingAllReduce

open Exchange Rotation TagQueue

variable {Value : Type} {setup : Setup Value}

abbrev MockWorld (Value : Type) : Type := World Value (MockRing Value) RequestState

structure MockInvariant (setup : Setup Value) (world : MockWorld Value) : Prop where
  memory : ∀ rank < setup.worldSize, AgreeOutside (world.rank rank).opens (world.memory rank)
    (expectedMemory setup rank (setup.memory rank) (world.rank rank).log)
  sends : ∀ rank < setup.worldSize, ∀ post ∈ openSends (events (world.rank rank).log),
    ∃ request, (world.rank rank).vars.requests (.send post.pieceIndex) = some request ∧
      request.kind = .send ∧ request.status = 0
  streams : ∀ rank < setup.worldSize, Stream setup (world.rank rank).sentPieces
    (world.net.incoming (next setup.worldSize rank)) (world.net.matched (next setup.worldSize rank))
  receivers : ∀ rank < setup.worldSize, Receiver setup (world.rank rank).sentPieces
    (world.rank (next setup.worldSize rank)) (world.net.matched (next setup.worldSize rank))
    (world.memory (next setup.worldSize rank))

section Steps

variable {world : MockWorld Value} {mover : Nat} {state' : RankState RequestState}
  {ring' : MockRing Value} {memory' : Memory Value}

theorem MockInvariant.quiet (inv : MockInvariant setup world)
    (sent : state'.sentPieces = (world.rank mover).sentPieces)
    (waits : state'.waitedPieces = (world.rank mover).waitedPieces)
    (opens : state'.opens = (world.rank mover).opens)
    (living : state'.alive → (world.rank mover).alive)
    (recvSlots : ∀ piece, state'.vars.requests (.recv piece) =
      (world.rank mover).vars.requests (.recv piece))
    (kept : ∀ post ∈ (world.rank mover).opens, ∀ buffer index, post.covers buffer index →
      memory' buffer index = world.memory mover buffer index)
    (agree : AgreeOutside state'.opens memory'
      (expectedMemory setup mover (setup.memory mover) state'.log))
    (acks : ∀ post ∈ openSends (events state'.log), ∃ request,
      state'.vars.requests (.send post.pieceIndex) = some request ∧ request.kind = .send ∧
        request.status = 0) :
    MockInvariant setup (world.put mover state' world.net memory') := by
  have sentEq : ∀ rank, ((world.put mover state' world.net memory').rank rank).sentPieces =
      (world.rank rank).sentPieces := by
    intro rank
    by_cases same : rank = mover
    · rw [same, World.put_rank_same, sent]
    · rw [World.put_rank_other _ _ _ _ _ same]
  constructor
  · intro rank bound
    by_cases same : rank = mover
    · subst same
      simpa using agree
    · rw [World.put_rank_other _ _ _ _ _ same, World.put_memory_other _ _ _ _ _ same]
      exact inv.memory rank bound
  · intro rank bound
    by_cases same : rank = mover
    · subst same
      simpa using acks
    · rw [World.put_rank_other _ _ _ _ _ same]
      exact inv.sends rank bound
  · intro rank bound
    rw [sentEq]
    exact inv.streams rank bound
  · intro rank bound
    rw [sentEq]
    have receiver := inv.receivers rank bound
    by_cases same : next setup.worldSize rank = mover
    · rw [same] at receiver ⊢
      rw [World.put_rank_same, World.put_memory_same]
      exact receiver.frame waits opens living (fun post _ => recvSlots _) kept
    · rw [World.put_rank_other _ _ _ _ _ same, World.put_memory_other _ _ _ _ _ same]
      exact receiver

theorem MockInvariant.receiving (inv : MockInvariant setup world)
    (sent : state'.sentPieces = (world.rank mover).sentPieces)
    (incoming : ∀ rank, rank ≠ mover → ring'.incoming rank = world.net.incoming rank)
    (matched : ∀ rank, rank ≠ mover → ring'.matched rank = world.net.matched rank)
    (agree : AgreeOutside state'.opens memory'
      (expectedMemory setup mover (setup.memory mover) state'.log))
    (acks : ∀ post ∈ openSends (events state'.log), ∃ request,
      state'.vars.requests (.send post.pieceIndex) = some request ∧ request.kind = .send ∧
        request.status = 0)
    (stream : ∀ rank < setup.worldSize, next setup.worldSize rank = mover →
      Stream setup (world.rank rank).sentPieces (ring'.incoming mover) (ring'.matched mover))
    (receiver : ∀ rank < setup.worldSize, next setup.worldSize rank = mover →
      Receiver setup (world.rank rank).sentPieces state' (ring'.matched mover) memory') :
    MockInvariant setup (world.put mover state' ring' memory') := by
  have sentEq : ∀ rank, ((world.put mover state' ring' memory').rank rank).sentPieces =
      (world.rank rank).sentPieces := by
    intro rank
    by_cases same : rank = mover
    · rw [same, World.put_rank_same, sent]
    · rw [World.put_rank_other _ _ _ _ _ same]
  constructor
  · intro rank bound
    by_cases same : rank = mover
    · subst same
      simpa using agree
    · rw [World.put_rank_other _ _ _ _ _ same, World.put_memory_other _ _ _ _ _ same]
      exact inv.memory rank bound
  · intro rank bound
    by_cases same : rank = mover
    · subst same
      simpa using acks
    · rw [World.put_rank_other _ _ _ _ _ same]
      exact inv.sends rank bound
  · intro rank bound
    rw [sentEq, World.put_net]
    by_cases same : next setup.worldSize rank = mover
    · rw [same]
      exact stream rank bound same
    · rw [incoming _ same, matched _ same]
      exact inv.streams rank bound
  · intro rank bound
    rw [sentEq, World.put_net]
    by_cases same : next setup.worldSize rank = mover
    · rw [same, World.put_rank_same, World.put_memory_same]
      exact receiver rank bound same
    · rw [World.put_rank_other _ _ _ _ _ same, World.put_memory_other _ _ _ _ _ same,
        matched _ same]
      exact inv.receivers rank bound

end Steps

section Step

variable {world : MockWorld Value} {mover : Nat} {instr : Instr} {rest : List Instr}

theorem RankState.advance_views {Request : Type} (state : RankState Request)
    (vars : Variables Request) (instr : Instr) (rest : List Instr) (noEvent : instr.event = none) :
    (state.advance vars instr rest).sentPieces = state.sentPieces ∧
      (state.advance vars instr rest).waitedPieces = state.waitedPieces ∧
      (state.advance vars instr rest).opens = state.opens ∧
      events (state.advance vars instr rest).log = events state.log := by
  simp [RankState.sentPieces, RankState.waitedPieces, RankState.opens, RankState.advance, noEvent]

theorem MockInvariant.local_step (inv : MockInvariant setup world)
    (onSchedule : OnSchedule setup mover (world.rank mover)) (bound : mover < setup.worldSize)
    (todo : (world.rank mover).todo = instr :: rest) (noEvent : instr.event = none)
    {vars : Variables RequestState} {net : MockRing Value} {memory : Memory Value}
    (outcome : perform setup (mockTransport Value setup.worldSize) mover (world.rank mover).vars
      world.net (world.memory mover) instr = .done (net, memory) (.next vars)) :
    MockInvariant setup
      (world.put mover ((world.rank mover).advance vars instr rest) net memory) := by
  obtain ⟨rfl, requests, performed⟩ := perform_local_next noEvent outcome
  obtain ⟨sent, waits, opens, eventsEq⟩ :=
    (world.rank mover).advance_views vars instr rest noEvent
  have free := onSchedule.raceFree bound todo
  refine inv.quiet sent waits opens (fun alive => alive) ?_ ?_ ?_ ?_
  · intro piece
    simp [RankState.advance, requests]
  · intro post member buffer index covers
    exact performLocal_unwritten performed (free.recvs post member buffer index covers).2
  · rw [opens]
    have agree := (inv.memory mover bound).performLocal free noEvent performed
    simpa [RankState.advance, expectedMemory, RankState.opens] using agree
  · rw [eventsEq]
    intro post member
    obtain ⟨request, found, facts⟩ := inv.sends mover bound post member
    exact ⟨request, by rw [← found]; simp [RankState.advance, requests], facts⟩

theorem MockInvariant.leave_step (inv : MockInvariant setup world) {status : Status}
    (bound : mover < setup.worldSize) (noEvent : instr.event = none) {net : MockRing Value} {memory : Memory Value}
    (outcome : perform setup (mockTransport Value setup.worldSize) mover (world.rank mover).vars
      world.net (world.memory mover) instr = .done (net, memory) (.stop status)) :
    MockInvariant setup (world.put mover ((world.rank mover).leave instr status) net memory) := by
  have expected := leave_expected outcome
  obtain ⟨rfl, rfl⟩ := perform_local_stop noEvent outcome
  have eventsEq := leave_log (world.rank mover) status noEvent
  refine inv.quiet ?_ ?_ ?_ ?_ (fun _ => rfl) (fun _ _ _ _ _ => rfl) ?_ ?_
  · rw [RankState.sentPieces, eventsEq]
    rfl
  · rw [RankState.waitedPieces, eventsEq]
    rfl
  · rw [RankState.opens, eventsEq]
    rfl
  · intro alive other member
    exact alive other (by simp [RankState.leave, member])
  · rw [RankState.opens, eventsEq, expected]
    exact inv.memory mover bound
  · rw [eventsEq]
    exact inv.sends mover bound

theorem MockInvariant.enter_step (inv : MockInvariant setup world) (bound : mover < setup.worldSize)
    (call : Call Value) :
    MockInvariant setup (world.put mover ((world.rank mover).enter setup mover call) world.net
      (world.memory mover)) :=
  inv.quiet rfl rfl rfl (fun alive => alive) (fun _ => rfl) (fun _ _ _ _ _ => rfl)
    (inv.memory mover bound) (inv.sends mover bound)

section Event

variable {post : Post} {vars : Variables RequestState} {net : MockRing Value}
  {memory : Memory Value}

theorem advance_log {Request : Type} (state : RankState Request) (vars : Variables Request)
    (instr : Instr) (rest : List Instr) :
    (state.advance vars instr rest).log = state.log ++ [instr] := rfl

theorem MockInvariant.postSend_step (inv : MockInvariant setup world)
    (onSchedule : OnSchedule setup mover (world.rank mover)) (bound : mover < setup.worldSize)
    (todo : (world.rank mover).todo = .postSend post :: rest)
    (outcome : perform setup (mockTransport Value setup.worldSize) mover (world.rank mover).vars
      world.net (world.memory mover) (.postSend post) = .done (net, memory) (.next vars)) :
    MockInvariant setup
      (world.put mover ((world.rank mover).advance vars (.postSend post) rest) net memory) := by
  have payload := onSchedule.payload_of_agree bound todo (inv.memory mover bound)
  simp only [perform, mockTransport, mockPostSendNext, Outcome.map, Outcome.done.injEq,
    Prod.mk.injEq, Verdict.next.injEq, payload] at outcome
  obtain ⟨⟨rfl, rfl⟩, rfl⟩ := outcome
  have views : ∀ request, ((world.rank mover).advance ((world.rank mover).vars.assign
      (.send post.pieceIndex) (some request)) (.postSend post) rest).sentPieces =
        (world.rank mover).sentPieces ++ [post.toPiece] ∧
      ((world.rank mover).advance ((world.rank mover).vars.assign (.send post.pieceIndex)
        (some request)) (.postSend post) rest).waitedPieces = (world.rank mover).waitedPieces ∧
      ((world.rank mover).advance ((world.rank mover).vars.assign (.send post.pieceIndex)
        (some request)) (.postSend post) rest).opens = (world.rank mover).opens := by
    intro request
    simp [RankState.sentPieces, RankState.waitedPieces, RankState.opens, RankState.advance,
      Instr.event]
  generalize requestEq : (RequestState.mk .send post true 0) = request at *
  obtain ⟨sent, waits, opens⟩ := views request
  constructor
  · intro rank rankBound
    by_cases same : rank = mover
    · subst same
      rw [World.put_rank_same, World.put_memory_same, opens]
      have agree := inv.memory rank bound
      rwa [advance_log, expectedMemory_append]
    · rw [World.put_rank_other _ _ _ _ _ same, World.put_memory_other _ _ _ _ _ same]
      exact inv.memory rank rankBound
  · intro rank rankBound
    by_cases same : rank = mover
    · subst same
      rw [World.put_rank_same, advance_log, events_append]
      simp only [events_cons, events_nil, Instr.event, Option.toList_some, List.append_nil]
      rw [onSchedule.postSend_new bound todo]
      intro other member
      by_cases slot : other.pieceIndex = post.pieceIndex
      · refine ⟨request, ?_, by rw [← requestEq], by rw [← requestEq]⟩
        simp [RankState.advance, Variables.assign, slot]
      · rw [List.mem_append, List.mem_singleton] at member
        rcases member with old | rfl
        · obtain ⟨found, foundEq, facts⟩ := inv.sends rank bound other old
          exact ⟨found, by rw [← foundEq]; simp [RankState.advance, Variables.assign, slot], facts⟩
        · exact absurd rfl slot
    · rw [World.put_rank_other _ _ _ _ _ same]
      exact inv.sends rank rankBound
  · intro rank rankBound
    have stream := inv.streams rank rankBound
    rw [World.put_net]
    by_cases same : rank = mover
    · subst same
      rw [World.put_rank_same, sent, next]
      simp only [Function.update_self]
      exact stream.send post.toPiece
    · have elsewhere : next setup.worldSize rank ≠ (mover + 1) % setup.worldSize := fun eq =>
        same (next_injective rankBound bound eq)
      rw [World.put_rank_other _ _ _ _ _ same]
      simp only [Function.update_of_ne elsewhere]
      exact stream
  · intro rank rankBound
    have receiver := inv.receivers rank rankBound
    rw [World.put_net]
    -- first the sender's side of the link, then the receiver's
    have grown : Receiver setup ((world.put mover ((world.rank mover).advance
        ((world.rank mover).vars.assign (.send post.pieceIndex) (some request)) (.postSend post)
          rest) world.net (world.memory mover)).rank rank).sentPieces
        (world.rank (next setup.worldSize rank)) (world.net.matched (next setup.worldSize rank))
        (world.memory (next setup.worldSize rank)) := by
      by_cases same : rank = mover
      · subst same
        rw [World.put_rank_same, sent]
        exact receiver.sent_append _
      · rwa [World.put_rank_other _ _ _ _ _ same]
    by_cases same : next setup.worldSize rank = mover
    · rw [same] at grown ⊢
      rw [World.put_rank_same world mover, World.put_memory_same]
      exact grown.frame waits opens (fun alive => alive)
        (fun other _ => by simp [RankState.advance, Variables.assign]) (fun _ _ _ _ _ => rfl)
    · rw [World.put_rank_other _ _ _ _ _ same, World.put_memory_other _ _ _ _ _ same]
      exact grown

theorem MockInvariant.waitSend_step (inv : MockInvariant setup world)
    (onSchedule : OnSchedule setup mover (world.rank mover)) (bound : mover < setup.worldSize)
    (todo : (world.rank mover).todo = .waitSend post :: rest) :
    perform setup (mockTransport Value setup.worldSize) mover (world.rank mover).vars world.net
        (world.memory mover) (.waitSend post) = .done (world.net, world.memory mover)
          (.next ((world.rank mover).vars.assign (.send post.pieceIndex) none)) ∧
      MockInvariant setup (world.put mover ((world.rank mover).advance
        ((world.rank mover).vars.assign (.send post.pieceIndex) none) (.waitSend post) rest)
          world.net (world.memory mover)) := by
  obtain ⟨later, opensEq, afterEq, distinct⟩ := onSchedule.waitSend_oldest bound todo
  obtain ⟨request, found, kind, status⟩ := inv.sends mover bound post (by rw [opensEq]; simp)
  constructor
  · simp [perform, found, mockTransport, mockWait, kind, status, Outcome.map]
  · refine inv.quiet ?_ ?_ ?_ (fun alive => alive) ?_ (fun _ _ _ _ _ => rfl) ?_ ?_
    · simp [RankState.sentPieces, RankState.advance, Instr.event]
    · simp [RankState.waitedPieces, RankState.advance, Instr.event]
    · simp [RankState.opens, RankState.advance, Instr.event]
    · intro piece
      simp [RankState.advance, Variables.assign]
    · have agree := inv.memory mover bound
      rw [advance_log, expectedMemory_append]
      simpa [RankState.opens, RankState.advance, Instr.event, expectedStep, performLocal] using agree
    · rw [advance_log, events_append]
      simp only [events_cons, events_nil, Instr.event, Option.toList_some, List.append_nil]
      rw [afterEq]
      intro other member
      obtain ⟨old, oldEq, facts⟩ := inv.sends mover bound other (by rw [opensEq]; simp [member])
      exact ⟨old, by rw [← oldEq]; simp [RankState.advance, Variables.assign, distinct other member],
        facts⟩

theorem tryCompleteReceive_spec (inv : MockInvariant setup world) {request request' : RequestState}
    {ring : MockRing Value} {memory' : Memory Value}
    (done : tryCompleteReceive mover request world.net (world.memory mover) =
      some (request', ring, memory')) :
    (∀ rank, rank ≠ mover → ring.incoming rank = world.net.incoming rank) ∧
    (∀ rank, rank ≠ mover → ring.matched rank = world.net.matched rank) ∧
    (∀ tag, tag ≠ request.post.tag →
      lane matchTag tag (ring.matched mover) = lane matchTag tag (world.net.matched mover)) ∧
    (∀ buffer index, ¬ request.post.covers buffer index →
      memory' buffer index = world.memory mover buffer index) ∧
    (request'.status ≠ 0 → memory' = world.memory mover) ∧
    request'.kind = request.kind ∧ request'.post = request.post ∧ request'.completed = true ∧
    ∀ rank < setup.worldSize, next setup.worldSize rank = mover →
      Stream setup (world.rank rank).sentPieces (ring.incoming mover) (ring.matched mover) ∧
      ∀ waited, (lane matchTag request.post.tag (world.net.matched mover)).map Prod.fst =
          lane Piece.tag request.post.tag waited →
        Given setup waited (ring.matched mover) memory' request' := by
  obtain ⟨message, queue, taken, incomingEq, matchedEq, kind, postEq, completed, status, memoryEq⟩ :=
    tryCompleteReceive_some done
  have matchedMine : ring.matched mover = world.net.matched mover ++
      [(request.post.toPiece, message.piece)] := by
    rw [matchedEq, Function.update_self]
  refine ⟨?_, ?_, ?_, ?_, ?_, kind, postEq, completed, ?_⟩
  · intro rank different
    rw [incomingEq, Function.update_of_ne different]
  · intro rank different
    rw [matchedEq, Function.update_of_ne different]
  · intro tag different
    rw [matchedMine, lane_append, lane_cons_other
      (show matchTag (request.post.toPiece, message.piece) ≠ tag from fun eq => different eq.symm)]
    simp
  · intro buffer index outside
    rw [memoryEq]
    split
    · exact store_payload_outside outside
    · rfl
  · intro failed
    rw [memoryEq, if_neg fun same => failed (status.mpr same)]
  · intro rank rankBound isNext
    have stream := inv.streams rank rankBound
    rw [isNext] at stream
    obtain ⟨isMessage, stream'⟩ := stream.take taken
    rw [incomingEq, matchedMine, Function.update_self]
    refine ⟨stream', ?_⟩
    intro waited matches_
    rw [memoryEq, ← postEq]
    apply given_of_taken isMessage
    · rw [postEq]
      exact matches_
    · rw [postEq]
      exact status

theorem MockInvariant.postRecv_step (inv : MockInvariant setup world)
    (onSchedule : OnSchedule setup mover (world.rank mover)) (bound : mover < setup.worldSize)
    (todo : (world.rank mover).todo = .postRecv post :: rest)
    (outcome : perform setup (mockTransport Value setup.worldSize) mover (world.rank mover).vars
      world.net (world.memory mover) (.postRecv post) = .done (net, memory) (.next vars)) :
    MockInvariant setup
      (world.put mover ((world.rank mover).advance vars (.postRecv post) rest) net memory) := by
  have snoc := (onSchedule.postRecv_new bound todo).1
  have views : ∀ vars, ((world.rank mover).advance vars (.postRecv post) rest).sentPieces =
        (world.rank mover).sentPieces ∧
      ((world.rank mover).advance vars (.postRecv post) rest).opens =
        (world.rank mover).opens ++ [post] := by
    intro vars
    refine ⟨by simp [RankState.sentPieces, RankState.advance, Instr.event], ?_⟩
    simpa [RankState.opens, RankState.advance, Instr.event] using snoc
  have acks : ∀ request, ∀ send ∈ openSends (events ((world.rank mover).advance
      ((world.rank mover).vars.assign (.recv post.pieceIndex) request) (.postRecv post) rest).log),
      ∃ found, ((world.rank mover).advance ((world.rank mover).vars.assign (.recv post.pieceIndex)
        request) (.postRecv post) rest).vars.requests (.send send.pieceIndex) = some found ∧
          found.kind = .send ∧ found.status = 0 := by
    intro request send member
    rw [advance_log, events_append] at member
    simp only [events_cons, events_nil, Instr.event, Option.toList_some, List.append_nil,
      openSends_snoc_postRecv] at member
    obtain ⟨found, foundEq, facts⟩ := inv.sends mover bound send member
    exact ⟨found, by rw [← foundEq]; simp [RankState.advance, Variables.assign], facts⟩
  have agree : ∀ vars memory', (∀ buffer index, ¬ post.covers buffer index →
        memory' buffer index = world.memory mover buffer index) →
      AgreeOutside ((world.rank mover).advance vars (.postRecv post) rest).opens memory'
        (expectedMemory setup mover (setup.memory mover)
          ((world.rank mover).advance vars (.postRecv post) rest).log) := by
    intro vars memory' kept buffer index outside
    rw [(views vars).2] at outside
    rw [advance_log, expectedMemory_append, kept buffer index (outside post (by simp))]
    exact inv.memory mover bound buffer index fun other member => outside other (by simp [member])
  simp only [perform, mockTransport, mockPostRecvPrev] at outcome
  cases tried : tryCompleteReceive mover (.mk .receive post false 0) world.net
      (world.memory mover) with
  | none =>
      simp only [tried, Outcome.map, Outcome.done.injEq, Prod.mk.injEq, Verdict.next.injEq]
        at outcome
      obtain ⟨⟨rfl, rfl⟩, rfl⟩ := outcome
      refine inv.receiving (views _).1 (fun _ _ => rfl) (fun _ _ => rfl)
        (agree _ _ fun _ _ _ => rfl) (acks _) ?_ ?_
      · intro rank rankBound isNext
        have stream := inv.streams rank rankBound
        rwa [isNext] at stream
      · intro rank rankBound isNext
        have receiver := inv.receivers rank rankBound
        rw [isNext] at receiver
        exact receiver.postRecv onSchedule bound todo rfl rfl (fun _ _ => rfl) (fun _ _ _ => rfl)
          (Or.inl ⟨rfl, rfl⟩)
  | some result =>
      obtain ⟨request, ring, memory'⟩ := result
      simp only [tried, Outcome.map, Outcome.done.injEq, Prod.mk.injEq, Verdict.next.injEq]
        at outcome
      obtain ⟨⟨rfl, rfl⟩, rfl⟩ := outcome
      obtain ⟨incoming, matched, others, kept, -, kind, postEq, completed, links⟩ :=
        tryCompleteReceive_spec inv tried
      refine inv.receiving (views _).1 incoming matched (agree _ _ kept) (acks _) ?_ ?_
      · intro rank rankBound isNext
        exact (links rank rankBound isNext).1
      · intro rank rankBound isNext
        have receiver := inv.receivers rank rankBound
        rw [isNext] at receiver
        exact receiver.postRecv onSchedule bound todo kind postEq others kept
          (Or.inr ⟨completed, (links rank rankBound isNext).2 _⟩)

/-- What a finished wait has found: the request's own match, and memory changed in its range
only. -/
theorem MockInvariant.wait_done (inv : MockInvariant setup world)
    (onSchedule : OnSchedule setup mover (world.rank mover)) (bound : mover < setup.worldSize)
    (todo : (world.rank mover).todo = .waitRecv post :: rest) {request : RequestState}
    (found : (world.rank mover).vars.requests (.recv post.pieceIndex) = some request) {ok : Bool}
    (outcome : mockWait mover request world.net (world.memory mover) = .done (net, memory) ok) :
    ∃ request' : RequestState, request'.post = post ∧ (ok = true ↔ request'.status = 0) ∧
      Given setup (world.rank mover).waitedPieces (net.matched mover) memory request' ∧
      (∀ rank, rank ≠ mover → net.incoming rank = world.net.incoming rank) ∧
      (∀ rank, rank ≠ mover → net.matched rank = world.net.matched rank) ∧
      (∀ tag, tag ≠ post.tag →
        lane matchTag tag (net.matched mover) = lane matchTag tag (world.net.matched mover)) ∧
      (∀ buffer index, ¬ post.covers buffer index →
        memory buffer index = world.memory mover buffer index) ∧
      (ok = false → memory = world.memory mover) ∧
      ∀ rank < setup.worldSize, next setup.worldSize rank = mover →
        Stream setup (world.rank rank).sentPieces (net.incoming mover) (net.matched mover) := by
  have alive := onSchedule.alive_of_todo bound todo
  obtain ⟨later, opensEq, -, apart⟩ := onSchedule.waitRecv_oldest bound todo
  obtain ⟨prev, prevBound, isNext⟩ := exists_prev bound
  have receiver := inv.receivers prev prevBound
  rw [isNext] at receiver
  have older : (world.rank mover).opens = post :: later := opensEq
  obtain ⟨found', foundEq, kind, postEq⟩ := receiver.posted post (by rw [older]; simp)
  obtain rfl := Option.some.inj (found.symm.trans foundEq)
  have tally := receiver.tally alive post.tag
  by_cases completed : request.completed = true
  · simp only [mockWait, completed, Bool.true_eq_false, false_and, if_false, Outcome.done.injEq,
      Prod.mk.injEq] at outcome
    obtain ⟨⟨rfl, rfl⟩, rfl⟩ := outcome
    cases tally with
    | pending none matches_ =>
        have incomplete := none post (by rw [older]; simp) rfl request found
        simp [completed] at incomplete
    | completed other member tagEq otherFound isCompleted given =>
        have same : other.post = post := by
          rw [older, List.mem_cons] at member
          rcases member with isPost | inLater
          · exact isPost
          · exact absurd tagEq (apart _ inLater).1
        rw [same] at otherFound
        obtain rfl := Option.some.inj (found.symm.trans otherFound)
        refine ⟨request, same, by simp, given, fun _ _ => rfl, fun _ _ => rfl, fun _ _ => rfl,
          fun _ _ _ => rfl, fun _ => rfl, ?_⟩
        intro rank rankBound isNext'
        have stream := inv.streams rank rankBound
        rwa [isNext'] at stream
  · have incomplete : request.completed = false := by simpa using completed
    cases tally with
    | completed other member tagEq otherFound isCompleted given =>
        have same : other.post = post := by
          rw [older, List.mem_cons] at member
          rcases member with isPost | inLater
          · exact isPost
          · exact absurd tagEq (apart _ inLater).1
        rw [same] at otherFound
        obtain rfl := Option.some.inj (found.symm.trans otherFound)
        exact absurd isCompleted completed
    | pending none matches_ =>
        simp only [mockWait, incomplete, kind, and_self, if_true] at outcome
        cases tried : tryCompleteReceive mover request world.net (world.memory mover) with
        | none => simp [tried] at outcome
        | some result =>
            obtain ⟨request', ring, memory'⟩ := result
            simp only [tried, Outcome.done.injEq, Prod.mk.injEq] at outcome
            obtain ⟨⟨rfl, rfl⟩, rfl⟩ := outcome
            obtain ⟨incoming, matched, others, kept, failed, -, postEq', -, links⟩ :=
              tryCompleteReceive_spec inv tried
            rw [postEq] at others kept
            refine ⟨request', postEq'.trans postEq, by simp,
              (links prev prevBound isNext).2 _ (by rw [postEq]; exact matches_), incoming, matched,
              others, kept, fun notOk => failed (by simpa using notOk),
              fun rank rankBound isNext' => (links rank rankBound isNext').1⟩

theorem MockInvariant.waitRecv_outcome (inv : MockInvariant setup world)
    (onSchedule : OnSchedule setup mover (world.rank mover)) (bound : mover < setup.worldSize)
    (todo : (world.rank mover).todo = .waitRecv post :: rest) {verdict : Verdict RequestState}
    (outcome : perform setup (mockTransport Value setup.worldSize) mover (world.rank mover).vars
      world.net (world.memory mover) (.waitRecv post) = .done (net, memory) verdict) :
    ∃ request ok, (world.rank mover).vars.requests (.recv post.pieceIndex) = some request ∧
      mockWait mover request world.net (world.memory mover) = .done (net, memory) ok ∧
      verdict = if ok then .next ((world.rank mover).vars.assign (.recv post.pieceIndex) none)
        else .stop .transport := by
  obtain ⟨later, opensEq, -, -⟩ := onSchedule.waitRecv_oldest bound todo
  obtain ⟨prev, prevBound, isNext⟩ := exists_prev bound
  have receiver := inv.receivers prev prevBound
  rw [isNext] at receiver
  obtain ⟨request, found, -, -⟩ := receiver.posted post (by rw [RankState.opens, opensEq]; simp)
  simp only [perform, found, mockTransport] at outcome
  obtain ⟨ok, waited, isVerdict⟩ := Outcome.map_eq_done outcome
  exact ⟨request, ok, found, waited, isVerdict.symm⟩

/-- What a receive has been given that is waited for with success. -/
theorem MockInvariant.received_piece (inv : MockInvariant setup world)
    (onSchedule : ∀ rank, OnSchedule setup rank (world.rank rank))
    (todo : (world.rank mover).todo = .waitRecv post :: rest) {request : RequestState}
    (given : Given setup (world.rank mover).waitedPieces (net.matched mover) memory request)
    (postEq : request.post = post) (success : request.status = 0) {rank : Nat}
    (rankBound : rank < setup.worldSize) (isNext : next setup.worldSize rank = mover)
    (stream : Stream setup (world.rank rank).sentPieces (net.incoming mover) (net.matched mover)) :
    (world.rank rank).sentPieces[(world.rank mover).waitedPieces.length]? = some post.toPiece ∧
      ∀ index value, ((setup.payload post.toPiece).take post.elementCount)[index]? = some value →
        memory post.buffer (post.start + index) = value := by
  obtain ⟨front, got, entry, frontEq, status, content⟩ := given.entry
  rw [postEq] at entry frontEq status content
  have receiver := inv.receivers rank rankBound
  rw [isNext] at receiver
  have place := identify (world.rank mover) rankBound (onSchedule rank)
    (by rw [isNext]; exact onSchedule mover) stream receiver.agreed todo entry frontEq
  have same := place.2 (status.mp success)
  exact ⟨same ▸ place.1, same ▸ content success⟩

/-- Where the awaited piece has arrived the memory is as the log says. -/
theorem MockInvariant.received_memory (inv : MockInvariant setup world)
    (onSchedule : OnSchedule setup mover (world.rank mover)) (bound : mover < setup.worldSize)
    (todo : (world.rank mover).todo = .waitRecv post :: rest)
    (content : ∀ index value,
      ((setup.payload post.toPiece).take post.elementCount)[index]? = some value →
        memory post.buffer (post.start + index) = value)
    (kept : ∀ buffer index, ¬ post.covers buffer index →
      memory buffer index = world.memory mover buffer index) :
    AgreeOutside ((world.rank mover).advance vars (.waitRecv post) rest).opens memory
      (expectedMemory setup mover (setup.memory mover)
        ((world.rank mover).advance vars (.waitRecv post) rest).log) := by
  obtain ⟨later, opensEq, afterEq, -⟩ := onSchedule.waitRecv_oldest bound todo
  have older : (world.rank mover).opens = post :: later := opensEq
  have opens : ((world.rank mover).advance vars (.waitRecv post) rest).opens = later := by
    simpa [RankState.opens, RankState.advance, Instr.event] using afterEq
  intro buffer index outside
  rw [opens] at outside
  rw [advance_log, expectedMemory_append, expectedMemory_cons, expectedMemory_nil]
  have length := onSchedule.payload_length bound todo
  by_cases mine : post.covers buffer index
  · obtain ⟨rfl, lower, upper⟩ := mine
    have value : (setup.payload post.toPiece)[index - post.start]? =
        some (setup.payload post.toPiece)[index - post.start] :=
      List.getElem?_eq_getElem (by omega)
    have real := content (index - post.start) _ (by
      rw [List.take_of_length_le (Nat.le_of_eq length)]
      exact value)
    have expected := Memory.store_inside (expectedMemory setup mover
      (setup.memory mover) (world.rank mover).log) post.buffer post.start _ value
    rw [show post.start + (index - post.start) = index by omega] at real expected
    rw [real, expectedStep, expected]
  · rw [kept buffer index mine, expectedStep, Memory.store_outside]
    · apply inv.memory mover bound
      intro other member
      rw [older, List.mem_cons] at member
      rcases member with rfl | inLater
      · exact mine
      · exact outside other inLater
    · by_contra inside
      simp only [not_or, not_not, not_lt, not_le, length] at inside
      exact mine ⟨inside.1, inside.2.1, by omega⟩

theorem MockInvariant.received_step (inv : MockInvariant setup world)
    (onSchedule : ∀ rank, OnSchedule setup rank (world.rank rank)) (bound : mover < setup.worldSize)
    (todo : (world.rank mover).todo = .waitRecv post :: rest) {request : RequestState}
    (found : (world.rank mover).vars.requests (.recv post.pieceIndex) = some request)
    (waited : mockWait mover request world.net (world.memory mover) = .done (net, memory) true) :
    MockInvariant setup (world.put mover ((world.rank mover).advance
      ((world.rank mover).vars.assign (.recv post.pieceIndex) none) (.waitRecv post) rest)
        net memory) := by
  obtain ⟨request', postEq, ok, given, incoming, matched, others, kept, -, streams⟩ :=
    inv.wait_done (onSchedule mover) bound todo found waited
  have received := fun rank (rankBound : rank < setup.worldSize) isNext =>
    inv.received_piece onSchedule todo given postEq (ok.mp rfl) rankBound isNext
      (streams rank rankBound isNext)
  obtain ⟨prev, prevBound, isPrev⟩ := exists_prev bound
  refine inv.receiving ?_ incoming matched ?_ ?_ streams ?_
  · simp [RankState.sentPieces, RankState.advance, Instr.event]
  · exact inv.received_memory (onSchedule mover) bound todo (received prev prevBound isPrev).2 kept
  · intro send member
    rw [advance_log, events_append] at member
    simp only [events_cons, events_nil, Instr.event, Option.toList_some, List.append_nil,
      openSends_snoc_waitRecv] at member
    obtain ⟨old, oldEq, facts⟩ := inv.sends mover bound send member
    exact ⟨old, by rw [← oldEq]; simp [RankState.advance, Variables.assign], facts⟩
  · intro rank rankBound isNext
    have receiver := inv.receivers rank rankBound
    rw [isNext] at receiver
    exact receiver.waitRecv (onSchedule mover) bound todo postEq others kept given
      (Splits.prefix_snoc receiver.agreed (received rank rankBound isNext).1)

theorem MockInvariant.refused_step (inv : MockInvariant setup world)
    (onSchedule : OnSchedule setup mover (world.rank mover)) (bound : mover < setup.worldSize)
    (todo : (world.rank mover).todo = .waitRecv post :: rest) {request : RequestState}
    (found : (world.rank mover).vars.requests (.recv post.pieceIndex) = some request)
    (waited : mockWait mover request world.net (world.memory mover) = .done (net, memory) false) :
    MockInvariant setup
      (world.put mover ((world.rank mover).leave (.waitRecv post) .transport) net memory) := by
  obtain ⟨request', postEq, -, -, incoming, matched, -, -, unchanged, streams⟩ :=
    inv.wait_done onSchedule bound todo found waited
  obtain rfl := unchanged rfl
  refine inv.receiving rfl incoming matched (inv.memory mover bound) (inv.sends mover bound)
    streams ?_
  intro rank rankBound isNext
  have receiver := inv.receivers rank rankBound
  rw [isNext] at receiver
  have notAlive : ¬ ((world.rank mover).leave (.waitRecv post) .transport).alive := by
    intro alive
    have wrong := alive .transport (by simp [RankState.leave])
    simp at wrong
  have same : ((world.rank mover).leave (.waitRecv post) .transport).waitedPieces =
    (world.rank mover).waitedPieces := rfl
  exact receiver.dead same rfl rfl notAlive _ _

theorem MockInvariant.waitRecv_step (inv : MockInvariant setup world)
    (onSchedule : ∀ rank, OnSchedule setup rank (world.rank rank)) (bound : mover < setup.worldSize)
    (todo : (world.rank mover).todo = .waitRecv post :: rest) :
    (∀ vars, perform setup (mockTransport Value setup.worldSize) mover (world.rank mover).vars
        world.net (world.memory mover) (.waitRecv post) = .done (net, memory) (.next vars) →
      MockInvariant setup
        (world.put mover ((world.rank mover).advance vars (.waitRecv post) rest) net memory)) ∧
    (∀ status, perform setup (mockTransport Value setup.worldSize) mover (world.rank mover).vars
        world.net (world.memory mover) (.waitRecv post) = .done (net, memory) (.stop status) →
      MockInvariant setup
        (world.put mover ((world.rank mover).leave (.waitRecv post) status) net memory)) := by
  constructor
  · intro vars outcome
    obtain ⟨request, ok, found, waited, verdict⟩ :=
      inv.waitRecv_outcome (onSchedule mover) bound todo outcome
    cases ok with
    | false => simp at verdict
    | true =>
        obtain rfl := Verdict.next.inj verdict
        exact inv.received_step onSchedule bound todo found waited
  · intro status outcome
    obtain ⟨request, ok, found, waited, verdict⟩ :=
      inv.waitRecv_outcome (onSchedule mover) bound todo outcome
    cases ok with
    | true => simp at verdict
    | false =>
        obtain rfl := Verdict.stop.inj verdict
        exact inv.refused_step (onSchedule mover) bound todo found waited

end Event

end Step

theorem mockInvariant_initial (setup : Setup Value) :
    MockInvariant setup (initialWorld setup emptyRing) := by
  constructor
  · intro rank _ buffer index _
    rfl
  · intro rank _ post member
    exact absurd member (by simp [initialWorld, initialRank, openSends])
  · intro rank _
    exact ⟨by simp [initialWorld, emptyRing], fun tag => rfl⟩
  · intro rank _
    refine ⟨List.nil_prefix, ?_, ?_⟩
    · intro post member
      exact absurd member (by simp [initialWorld, initialRank, RankState.opens, openRecvs])
    · intro _ tag
      refine .pending ?_ rfl
      intro post member
      exact absurd member (by simp [initialWorld, initialRank, RankState.opens, openRecvs])

theorem mock_not_busy {instr : Instr} {rank : Nat} {vars : Variables RequestState}
    {ring ring' : MockRing Value} {memory memory' : Memory Value} :
    perform setup (mockTransport Value setup.worldSize) rank vars ring memory instr ≠
      .busy (ring', memory') := by
  cases event : instr.event with
  | none => exact (perform_local_busy event).1
  | some _ =>
      intro outcome
      cases instr with
      | postRecv post =>
          simp only [perform, mockTransport, mockPostRecvPrev] at outcome
          split at outcome <;> simp [Outcome.map] at outcome
      | postSend post =>
          simp [perform, mockTransport, mockPostSendNext, Outcome.map] at outcome
      | waitRecv post | waitSend post =>
          simp only [perform, mockTransport] at outcome
          split at outcome
          · simp at outcome
          · unfold mockWait at outcome
            split at outcome
            · split at outcome <;> simp [Outcome.map] at outcome
            · simp [Outcome.map] at outcome
      | _ => simp [Instr.event] at event

theorem MockInvariant.rank_step {before after : MockWorld Value} {mover : Nat}
    (inv : MockInvariant setup before)
    (onSchedule : ∀ rank, OnSchedule setup rank (before.rank rank)) (bound : mover < setup.worldSize)
    (taken : RankStep setup (mockTransport Value setup.worldSize) mover before after) :
    MockInvariant setup after := by
  cases taken with
  | enter call idle succeeded next => exact inv.enter_step bound call
  | busy instr rest net memory todo outcome => exact absurd outcome mock_not_busy
  | next instr rest net memory vars todo outcome =>
      cases event : instr.event with
      | none => exact inv.local_step (onSchedule mover) bound todo event outcome
      | some _ =>
          cases instr with
          | postRecv post => exact inv.postRecv_step (onSchedule mover) bound todo outcome
          | postSend post => exact inv.postSend_step (onSchedule mover) bound todo outcome
          | waitRecv post => exact (inv.waitRecv_step onSchedule bound todo).1 vars outcome
          | waitSend post =>
              obtain ⟨result, kept⟩ := inv.waitSend_step (onSchedule mover) bound todo
              rw [result] at outcome
              simp only [Outcome.done.injEq, Prod.mk.injEq, Verdict.next.injEq] at outcome
              obtain ⟨⟨rfl, rfl⟩, rfl⟩ := outcome
              exact kept
          | _ => simp [Instr.event] at event
  | stop instr rest net memory status todo outcome =>
      cases event : instr.event with
      | none => exact inv.leave_step bound event outcome
      | some _ =>
          cases instr with
          | waitRecv post => exact (inv.waitRecv_step onSchedule bound todo).2 status outcome
          | waitSend post =>
              obtain ⟨result, kept⟩ := inv.waitSend_step (onSchedule mover) bound todo
              rw [result] at outcome
              simp at outcome
          | postRecv post =>
              simp only [perform, mockTransport, mockPostRecvPrev] at outcome
              split at outcome <;> simp [Outcome.map] at outcome
          | postSend post =>
              simp [perform, mockTransport, mockPostSendNext, Outcome.map] at outcome
          | _ => simp [Instr.event] at event

theorem mockInvariant_of_reachable {world : MockWorld Value} (reachable : MockReachable setup world) :
    MockInvariant setup world := by
  apply Runs.Reachable.strengthen (MockInvariant setup) reachable (mockInvariant_initial setup)
  intro before after earlier inv step
  cases step with
  | rank mover bound taken =>
      exact inv.rank_step (fun rank => onSchedule_of_reachable earlier rank) bound
        (rankStep_cases taken)
  | background done => exact done.elim

end RingAllReduce
