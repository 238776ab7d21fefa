import RingAllReduce.Advance
import RingAllReduce.MockInvariant

/-! When an operation over the mock transport is answered: a wait for a receive as soon as its piece
has been posted, and every other operation at once. -/

namespace RingAllReduce

open Exchange Rotation TagQueue

variable {Value : Type} {setup : Setup Value} {world : MockWorld Value} {prev mover : Nat}
  {post : Post} {rest : List Instr}

/-- The pieces a rank waited for and the next one it wants are the pieces sent to it so far. -/
theorem lane_grows {sent waited : List Piece} {got : Piece} (agreed : waited <+: sent)
    (isSent : sent[waited.length]? = some got) :
    (lane Piece.tag got.tag waited).length < (lane Piece.tag got.tag sent).length := by
  have grown := (Splits.prefix_snoc agreed isSent).sublist.filter (fun piece => piece.tag = got.tag)
  have count := grown.length_le
  simp only [List.filter_append, List.filter_cons, List.filter_nil, decide_true, if_true,
    List.length_append, List.length_singleton] at count
  exact count

theorem MockInvariant.wait_answered (inv : MockInvariant setup world)
    (onSchedule : OnSchedule setup mover (world.rank mover)) (prevBound : prev < setup.worldSize)
    (isNext : next setup.worldSize prev = mover)
    (todo : (world.rank mover).todo = .waitRecv post :: rest) {got : Piece}
    (isSent : (world.rank prev).sentPieces[(world.rank mover).waitedPieces.length]? = some got)
    (tag : got.tag = post.tag) {request : RequestState}
    (found : (world.rank mover).vars.requests (.recv post.pieceIndex) = some request) :
    ∃ ring memory ok, mockWait mover request world.net (world.memory mover) =
      .done (ring, memory) ok := by
  have bound : mover < setup.worldSize := isNext ▸ next_lt setup.positive prev
  obtain ⟨later, opensEq, -, apart⟩ := onSchedule.waitRecv_oldest bound todo
  have receiver := inv.receivers prev prevBound
  have stream := inv.streams prev prevBound
  rw [isNext] at receiver stream
  have older : (world.rank mover).opens = post :: later := opensEq
  obtain ⟨posted, foundEq, kind, postEq⟩ := receiver.posted post (by rw [older]; simp)
  obtain rfl := Option.some.inj (found.symm.trans foundEq)
  by_cases completed : request.completed = true
  · exact ⟨world.net, world.memory mover, request.status = 0, by simp [mockWait, completed]⟩
  have incomplete : request.completed = false := by simpa using completed
  cases receiver.tally (onSchedule.alive_of_todo bound todo) post.tag with
  | completed other member tagEq otherFound isCompleted given =>
      have same : other.post = post := by
        rw [older, List.mem_cons] at member
        exact member.resolve_right fun inLater => (apart _ inLater).1 tagEq
      rw [same] at otherFound
      obtain rfl := Option.some.inj (found.symm.trans otherFound)
      exact absurd isCompleted completed
  | pending none matches_ =>
      -- the lane of the tag holds more than has been matched, so a message is queued
      have grown := lane_grows receiver.agreed isSent
      rw [tag, stream.lanes, ← matches_] at grown
      simp only [List.length_append, List.length_map] at grown
      obtain ⟨message, others, laneEq⟩ :=
        List.exists_cons_of_length_pos (l := lane Message.tag post.tag (world.net.incoming mover))
          (by omega)
      obtain ⟨queue, taken⟩ := takeFirst_isSome laneEq
      simp only [mockWait, incomplete, kind, and_self, if_true, tryCompleteReceive, postEq, taken]
      by_cases sizes : message.bytes = post.bytes <;> simp [sizes]

theorem MockInvariant.waitRecv_ok (inv : MockInvariant setup world)
    (onSchedule : ∀ rank, OnSchedule setup rank (world.rank rank))
    (prevBound : prev < setup.worldSize) (isNext : next setup.worldSize prev = mover)
    (todo : (world.rank mover).todo = .waitRecv post :: rest) {request : RequestState}
    (found : (world.rank mover).vars.requests (.recv post.pieceIndex) = some request)
    (wanted : ∀ got, (world.rank prev).sentPieces[(world.rank mover).waitedPieces.length]? =
      some got → got = post.toPiece) {ring : MockRing Value} {memory : Memory Value} {ok : Bool}
    (waited : mockWait mover request world.net (world.memory mover) = .done (ring, memory) ok) :
    ok = true := by
  have bound : mover < setup.worldSize := isNext ▸ next_lt setup.positive prev
  have receiver := inv.receivers prev prevBound
  rw [isNext] at receiver
  obtain ⟨request', postEq, okEq, given, -, -, -, -, -, streams⟩ :=
    inv.wait_done (onSchedule mover) bound todo found waited
  obtain ⟨front, got, entry, frontEq, status, -⟩ := given.entry
  rw [postEq] at entry frontEq status
  have place := identify (world.rank mover) prevBound (onSchedule prev)
    (by rw [isNext]; exact onSchedule mover) (streams prev prevBound isNext) receiver.agreed todo
    entry frontEq
  exact okEq.mpr (status.mpr (by rw [wanted got place.1]))

theorem MockInvariant.waitRecv_request (inv : MockInvariant setup world)
    (onSchedule : OnSchedule setup mover (world.rank mover)) (bound : mover < setup.worldSize)
    (todo : (world.rank mover).todo = .waitRecv post :: rest) :
    ∃ request, (world.rank mover).vars.requests (.recv post.pieceIndex) = some request := by
  obtain ⟨later, opensEq, -, -⟩ := onSchedule.waitRecv_oldest bound todo
  obtain ⟨prev, prevBound, rfl⟩ := exists_prev bound
  have older : (world.rank (next setup.worldSize prev)).opens = post :: later := opensEq
  obtain ⟨request, found, -, -⟩ := (inv.receivers prev prevBound).posted post (by rw [older]; simp)
  exact ⟨request, found⟩

/-- A wait for a piece that has been posted ends well if the piece has the expected size. -/
theorem MockInvariant.waitRecv_answered (inv : MockInvariant setup world)
    (onSchedule : ∀ rank, OnSchedule setup rank (world.rank rank))
    (prevBound : prev < setup.worldSize) (isNext : next setup.worldSize prev = mover)
    (todo : (world.rank mover).todo = .waitRecv post :: rest)
    (isSent : (world.rank prev).sentPieces[(world.rank mover).waitedPieces.length]? =
      some post.toPiece) :
    ∃ ring memory, perform setup (mockTransport Value setup.worldSize) mover (world.rank mover).vars
      world.net (world.memory mover) (.waitRecv post) =
        .done (ring, memory) (.next ((world.rank mover).vars.assign (.recv post.pieceIndex) none)) := by
  have bound : mover < setup.worldSize := isNext ▸ next_lt setup.positive prev
  obtain ⟨request, found⟩ := inv.waitRecv_request (onSchedule mover) bound todo
  obtain ⟨ring, memory, ok, waited⟩ :=
    inv.wait_answered (onSchedule mover) prevBound isNext todo isSent rfl found
  have succeeded := inv.waitRecv_ok onSchedule prevBound isNext todo found
    (fun got here => Option.some.inj (here.symm.trans isSent)) waited
  refine ⟨ring, memory, ?_⟩
  simp only [perform, found, mockTransport, waited, Outcome.map, succeeded, if_true]

theorem mock_postRecv (rank : Nat) (vars : Variables RequestState) (ring : MockRing Value)
    (memory : Memory Value) (post : Post) :
    ∃ ring' memory' request, perform setup (mockTransport Value setup.worldSize) rank vars ring memory
      (.postRecv post) = .done (ring', memory')
        (.next (vars.assign (.recv post.pieceIndex) (some request))) := by
  simp only [perform, mockTransport, mockPostRecvPrev]
  split
  · exact ⟨_, _, _, rfl⟩
  · exact ⟨_, _, _, rfl⟩

section SamePieces

variable (inv : MockInvariant setup world) (same : setup.SamePieces)
  (onSchedule : ∀ rank, OnSchedule setup rank (world.rank rank))

include same onSchedule in
/-- With one piece size at both ends, the next piece sent is the one that is waited for. -/
theorem sent_wanted (prevBound : prev < setup.worldSize) (isNext : next setup.worldSize prev = mover)
    (todo : (world.rank mover).todo = .waitRecv post :: rest) {got : Piece}
    (isSent : (world.rank prev).sentPieces[(world.rank mover).waitedPieces.length]? = some got) :
    got = post.toPiece := by
  subst isNext
  have wanted := (onSchedule _).next_expected (next_lt setup.positive prev) todo
  have inside := (List.getElem?_eq_some_iff.mp isSent).1
  rw [← setup.sent_eq_expected prevBound (same prev prevBound),
    ← List.length_map Post.toPiece] at wanted
  have here := Splits.prefix_getElem? ((onSchedule prev).sends_isPrefix prevBound) inside
  exact Option.some.inj (isSent.symm.trans (here.symm.trans wanted))

include inv same onSchedule

theorem MockInvariant.not_stop (bound : mover < setup.worldSize) {instr : Instr}
    (todo : (world.rank mover).todo = instr :: rest) {ring : MockRing Value} {memory : Memory Value}
    {status : Status} (outcome : perform setup (mockTransport Value setup.worldSize) mover
      (world.rank mover).vars world.net (world.memory mover) instr =
        .done (ring, memory) (.stop status)) : instr.event = none := by
  cases instr with
  | postRecv post =>
      obtain ⟨_, _, _, posted⟩ := @mock_postRecv _ setup mover (world.rank mover).vars
        world.net (world.memory mover) post
      simp [outcome] at posted
  | postSend post => simp [perform, mockTransport, mockPostSendNext, Outcome.map] at outcome
  | waitRecv post =>
      obtain ⟨prev, prevBound, isNext⟩ := exists_prev bound
      obtain ⟨request, found⟩ := inv.waitRecv_request (onSchedule mover) bound todo
      simp only [perform, found] at outcome
      obtain ⟨ok, waited, verdict⟩ := Outcome.map_eq_done outcome
      have succeeded := inv.waitRecv_ok onSchedule prevBound isNext todo found
        (fun got isSent => sent_wanted same onSchedule prevBound isNext todo isSent) waited
      simp [succeeded] at verdict
  | waitSend post => simp [(inv.waitSend_step (onSchedule mover) bound todo).1] at outcome
  | _ => rfl

/-- A rank that cannot go on waits for a piece its predecessor has yet to send. -/
theorem MockInvariant.waiting_of_noStep (bound : mover < setup.worldSize) {instr : Instr}
    (todo : (world.rank mover).todo = instr :: rest)
    (noStep : rankStep setup (mockTransport Value setup.worldSize) mover world = none) :
    Waiting setup world.rank mover := by
  have blocked := rankStep_eq_none todo noStep
  cases instr with
  | postRecv post =>
      obtain ⟨_, _, _, posted⟩ := @mock_postRecv _ setup mover (world.rank mover).vars
        world.net (world.memory mover) post
      simp [blocked] at posted
  | postSend post => simp [perform, mockTransport, mockPostSendNext, Outcome.map] at blocked
  | waitRecv post =>
      refine ⟨post, rest, todo, fun prev prevBound isNext => ?_⟩
      by_contra sent
      have inside : (world.rank mover).waitedPieces.length < (world.rank prev).sentPieces.length := by
        simp only [RankState.waitedPieces, RankState.sentPieces, List.length_map]
        omega
      have isSent := List.getElem?_eq_getElem inside
      rw [sent_wanted same onSchedule prevBound isNext todo isSent] at isSent
      obtain ⟨ring, memory, answered⟩ :=
        inv.waitRecv_answered onSchedule prevBound isNext todo isSent
      simp [blocked] at answered
  | waitSend post => simp [(inv.waitSend_step (onSchedule mover) bound todo).1] at blocked
  | _ => exact absurd blocked (@perform_local_busy _ _ _ _ _ _ _ _ world.net _ (world.memory mover) _
      rfl).2

end SamePieces

end RingAllReduce
