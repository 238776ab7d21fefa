import RingAllReduce.Agreement
import RingAllReduce.MockTransport

/-!
One link of the mock ring: the pieces its sender has posted, the queue and the record of matches,
and the receives of the other end. Tag by tag, what has been matched and what is still queued make
up what was sent.
-/

namespace RingAllReduce

open Exchange Rotation TagQueue

variable {Value : Type} {setup : Setup Value}

/-- The message a piece travels in. -/
def Setup.message (setup : Setup Value) (piece : Piece) : Message Value :=
  { tag := piece.tag, bytes := piece.bytes, payload := setup.payload piece, piece := piece }

section Pieces

variable {Request : Type}

def RankState.sentPieces (state : RankState Request) : List Piece :=
  (sendPosts (events state.log)).map Post.toPiece

def RankState.waitedPieces (state : RankState Request) : List Piece :=
  (recvWaits (events state.log)).map Post.toPiece

def RankState.opens (state : RankState Request) : List Post := openRecvs (events state.log)

def RankState.alive (state : RankState Request) : Prop :=
  ∀ status ∈ state.results, status = .success

end Pieces

/-- The tag a recorded match was made by. -/
def matchTag (entry : Piece × Piece) : UInt32 := entry.1.tag

structure Stream (setup : Setup Value) (sent : List Piece) (queue : List (Message Value))
    (matched : List (Piece × Piece)) : Prop where
  queued : ∀ message ∈ queue, message = setup.message message.piece
  lanes : ∀ tag, lane Piece.tag tag sent =
    (lane matchTag tag matched).map Prod.snd ++ (lane Message.tag tag queue).map Message.piece

theorem Stream.send {sent : List Piece} {queue : List (Message Value)}
    {matched : List (Piece × Piece)} (stream : Stream setup sent queue matched) (piece : Piece) :
    Stream setup (sent ++ [piece]) (queue ++ [setup.message piece]) matched := by
  constructor
  · intro message member
    rcases List.mem_append.mp member with old | new
    · exact stream.queued message old
    · rw [List.mem_singleton.mp new]
      rfl
  · intro tag
    rw [lane_append, lane_append, stream.lanes tag]
    by_cases same : piece.tag = tag
    · rw [lane_cons_same same, lane_cons_same (show (setup.message piece).tag = tag from same)]
      simp [Setup.message]
    · rw [lane_cons_other same, lane_cons_other (show (setup.message piece).tag ≠ tag from same)]
      simp

/-- A receive is given the oldest piece of its tag that no receive was given before. -/
theorem Stream.take {sent : List Piece} {queue remaining : List (Message Value)}
    {matched : List (Piece × Piece)} (stream : Stream setup sent queue matched)
    {message : Message Value} {want : Piece}
    (taken : takeFirst Message.tag want.tag queue = some (message, remaining)) :
    message = setup.message message.piece ∧
      Stream setup sent remaining (matched ++ [(want, message.piece)]) := by
  obtain ⟨tagEq, laneEq, others⟩ := takeFirst_lane taken
  have member : message ∈ queue := by
    have inLane : message ∈ lane Message.tag want.tag queue := by simp [laneEq]
    exact (mem_lane.mp inLane).1
  refine ⟨stream.queued message member, ?_, ?_⟩
  · intro other otherIn
    have inLane : other ∈ lane Message.tag other.tag remaining := mem_lane.mpr ⟨otherIn, rfl⟩
    apply stream.queued
    by_cases same : other.tag = want.tag
    · rw [same] at inLane
      have earlier : other ∈ lane Message.tag want.tag queue := by
        rw [laneEq]
        exact List.mem_cons_of_mem _ inLane
      exact (mem_lane.mp earlier).1
    · rw [others _ same] at inLane
      exact (mem_lane.mp inLane).1
  · intro tag
    rw [lane_append, stream.lanes tag]
    by_cases same : want.tag = tag
    · rw [← same, laneEq, lane_cons_same (show matchTag (want, message.piece) = want.tag from rfl)]
      simp
    · rw [others tag fun eq => same eq.symm, lane_cons_other
        (show matchTag (want, message.piece) ≠ tag from same)]
      simp

/-- What a completed receive that is still open has been given. -/
structure Given (setup : Setup Value) (waited : List Piece) (matched : List (Piece × Piece))
    (memory : Memory Value) (request : RequestState) : Prop where
  entry : ∃ front got, lane matchTag request.post.tag matched =
      front ++ [(request.post.toPiece, got)] ∧
    front.map Prod.fst = lane Piece.tag request.post.tag waited ∧
    (request.status = 0 ↔ got.bytes = request.post.bytes) ∧
    (request.status = 0 → ∀ index value,
      ((setup.payload got).take request.post.elementCount)[index]? = some value →
        memory request.post.buffer (request.post.start + index) = value)

/-- What the receives of one tag have been given: those waited for, and at most one open one. -/
inductive Tally (setup : Setup Value) (waited : List Piece) (opens : List Post)
    (requests : Slot → Option RequestState) (matched : List (Piece × Piece))
    (memory : Memory Value) (tag : UInt32) : Prop
  | pending (none : ∀ post ∈ opens, post.tag = tag → ∀ request,
        requests (.recv post.pieceIndex) = some request → request.completed = false)
      (matches_ : (lane matchTag tag matched).map Prod.fst = lane Piece.tag tag waited)
  | completed (request : RequestState) (member : request.post ∈ opens)
      (tagEq : request.post.tag = tag)
      (found : requests (.recv request.post.pieceIndex) = some request)
      (isCompleted : request.completed = true)
      (given : Given setup waited matched memory request)

structure Receiver (setup : Setup Value) (sent : List Piece) (state : RankState RequestState)
    (matched : List (Piece × Piece)) (memory : Memory Value) : Prop where
  agreed : state.waitedPieces <+: sent
  posted : ∀ post ∈ state.opens, ∃ request,
    state.vars.requests (.recv post.pieceIndex) = some request ∧ request.kind = .receive ∧
      request.post = post
  tally : state.alive → ∀ tag, Tally setup state.waitedPieces state.opens state.vars.requests
    matched memory tag

section Frame

variable {sent : List Piece} {state state' : RankState RequestState}
  {matched : List (Piece × Piece)} {memory memory' : Memory Value}

theorem Given.frame {waited : List Piece} {request : RequestState}
    (given : Given setup waited matched memory request)
    (kept : ∀ buffer index, request.post.covers buffer index →
      memory' buffer index = memory buffer index) :
    Given setup waited matched memory' request := by
  obtain ⟨front, got, laneEq, frontEq, statusEq, content⟩ := given.entry
  refine ⟨front, got, laneEq, frontEq, statusEq, ?_⟩
  intro ok index value found
  have bound := (List.getElem?_eq_some_iff.mp found).1
  rw [List.length_take] at bound
  rw [kept _ _ ⟨rfl, by omega, by omega⟩]
  exact content ok index value found

theorem Tally.transfer {waited waited' : List Piece} {opens opens' : List Post}
    {requests requests' : Slot → Option RequestState} {matched' : List (Piece × Piece)}
    {tag : UInt32} (tally : Tally setup waited opens requests matched memory tag)
    (waitedLane : lane Piece.tag tag waited' = lane Piece.tag tag waited)
    (matchedLane : lane matchTag tag matched' = lane matchTag tag matched)
    (opensEq : ∀ post, post.tag = tag → (post ∈ opens' ↔ post ∈ opens))
    (requestsEq : ∀ post ∈ opens, requests' (.recv post.pieceIndex) =
      requests (.recv post.pieceIndex))
    (kept : ∀ post ∈ opens, ∀ buffer index, post.covers buffer index →
      memory' buffer index = memory buffer index) :
    Tally setup waited' opens' requests' matched' memory' tag := by
  cases tally with
  | pending none matches_ =>
      refine .pending ?_ (by rw [waitedLane, matchedLane]; exact matches_)
      intro post member tagEq request found
      have earlier := (opensEq post tagEq).mp member
      rw [requestsEq post earlier] at found
      exact none post earlier tagEq request found
  | completed request member tagEq found isCompleted given =>
      refine .completed request ((opensEq _ tagEq).mpr member) tagEq ?_ isCompleted ?_
      · rw [requestsEq _ member]
        exact found
      · obtain ⟨front, got, laneEq, frontEq, rest⟩ := (given.frame (kept _ member)).entry
        rw [tagEq] at laneEq frontEq
        exact ⟨front, got, by rw [tagEq, matchedLane]; exact laneEq,
          by rw [tagEq, waitedLane]; exact frontEq, rest⟩

theorem Receiver.frame (receiver : Receiver setup sent state matched memory)
    (waits : state'.waitedPieces = state.waitedPieces) (opens : state'.opens = state.opens)
    (living : state'.alive → state.alive)
    (requests : ∀ post ∈ state.opens, state'.vars.requests (.recv post.pieceIndex) =
      state.vars.requests (.recv post.pieceIndex))
    (kept : ∀ post ∈ state.opens, ∀ buffer index, post.covers buffer index →
      memory' buffer index = memory buffer index) :
    Receiver setup sent state' matched memory' := by
  refine ⟨by rw [waits]; exact receiver.agreed, ?_, ?_⟩
  · intro post member
    rw [opens] at member
    obtain ⟨request, found, rest⟩ := receiver.posted post member
    exact ⟨request, by rw [requests post member]; exact found, rest⟩
  · intro alive tag
    rw [waits, opens]
    exact (receiver.tally (living alive) tag).transfer rfl rfl (fun _ _ => Iff.rfl) requests kept

theorem Receiver.sent_append (receiver : Receiver setup sent state matched memory)
    (piece : Piece) : Receiver setup (sent ++ [piece]) state matched memory :=
  ⟨receiver.agreed.trans (List.prefix_append _ _), receiver.posted, receiver.tally⟩

end Frame

section Receive

variable {sent : List Piece} {state : RankState RequestState} {matched : List (Piece × Piece)}
  {memory : Memory Value} {rank : Nat} {post : Post} {rest : List Instr}

theorem tryCompleteReceive_some {request request' : RequestState} {ring ring' : MockRing Value}
    {memory' : Memory Value}
    (done : tryCompleteReceive rank request ring memory = some (request', ring', memory')) :
    ∃ message queue, takeFirst Message.tag request.post.tag (ring.incoming rank) =
        some (message, queue) ∧
      ring'.incoming = Function.update ring.incoming rank queue ∧
      ring'.matched = Function.update ring.matched rank
        (ring.matched rank ++ [(request.post.toPiece, message.piece)]) ∧
      request'.kind = request.kind ∧ request'.post = request.post ∧ request'.completed = true ∧
      (request'.status = 0 ↔ message.bytes = request.post.bytes) ∧
      memory' = if message.bytes = request.post.bytes then
          memory.store request.post.buffer request.post.start
            (message.payload.take request.post.elementCount)
        else memory := by
  unfold tryCompleteReceive at done
  split at done
  · simp at done
  · rename_i message queue taken
    refine ⟨message, queue, taken, ?_⟩
    by_cases same : message.bytes = request.post.bytes
    · simp only [same, ne_eq, not_true_eq_false, if_false, Option.some.injEq, Prod.mk.injEq] at done
      obtain ⟨rfl, rfl, rfl⟩ := done
      simp [same]
    · simp only [ne_eq, same, not_false_eq_true, if_true, Option.some.injEq, Prod.mk.injEq] at done
      obtain ⟨rfl, rfl, rfl⟩ := done
      simp [same]

theorem store_payload_outside {payload : List Value} {buffer : Buffer} {index : Nat}
    (outside : ¬ post.covers buffer index) :
    memory.store post.buffer post.start (payload.take post.elementCount) buffer index =
      memory buffer index := by
  apply Memory.store_outside
  by_contra inside
  simp only [not_or, not_not, not_lt, not_le, List.length_take] at inside
  exact outside ⟨inside.1, inside.2.1, by omega⟩

theorem given_of_taken {request : RequestState} {waited : List Piece} {message : Message Value}
    (isMessage : message = setup.message message.piece)
    (matches_ : (lane matchTag request.post.tag matched).map Prod.fst =
      lane Piece.tag request.post.tag waited)
    (status : request.status = 0 ↔ message.bytes = request.post.bytes) :
    Given setup waited (matched ++ [(request.post.toPiece, message.piece)])
      (if message.bytes = request.post.bytes then
        memory.store request.post.buffer request.post.start
          (message.payload.take request.post.elementCount)
      else memory) request := by
  refine ⟨lane matchTag request.post.tag matched, message.piece, ?_, matches_, ?_, ?_⟩
  · rw [lane_append, lane_cons_same (show matchTag (request.post.toPiece, message.piece) =
      request.post.tag from rfl), lane_nil]
  · rw [status, isMessage]
    rfl
  · intro ok index value found
    rw [if_pos (status.mp ok)]
    apply Memory.store_inside
    rw [isMessage]
    exact found

theorem Receiver.postRecv (receiver : Receiver setup sent state matched memory)
    (onSchedule : OnSchedule setup rank state) (bound : rank < setup.worldSize)
    (todo : state.todo = .postRecv post :: rest) {request : RequestState}
    (kind : request.kind = .receive) (postEq : request.post = post)
    {matched' : List (Piece × Piece)} {memory' : Memory Value}
    (others : ∀ tag, tag ≠ post.tag → lane matchTag tag matched' = lane matchTag tag matched)
    (kept : ∀ buffer index, ¬ post.covers buffer index → memory' buffer index = memory buffer index)
    (outcome : (request.completed = false ∧ matched' = matched) ∨
      (request.completed = true ∧
        ((lane matchTag post.tag matched).map Prod.fst =
          lane Piece.tag post.tag state.waitedPieces →
            Given setup state.waitedPieces matched' memory' request))) :
    Receiver setup sent (state.advance (state.vars.assign (.recv post.pieceIndex) (some request))
      (.postRecv post) rest) matched' memory' := by
  obtain ⟨snoc, fresh⟩ := onSchedule.postRecv_new bound todo
  have waits : (state.advance (state.vars.assign (.recv post.pieceIndex) (some request))
      (.postRecv post) rest).waitedPieces = state.waitedPieces := by
    simp [RankState.waitedPieces, RankState.advance, Instr.event]
  have opens : (state.advance (state.vars.assign (.recv post.pieceIndex) (some request))
      (.postRecv post) rest).opens = state.opens ++ [post] := by
    simpa [RankState.opens, RankState.advance, Instr.event] using snoc
  have requests : ∀ other ∈ state.opens, (state.vars.assign (.recv post.pieceIndex)
      (some request)).requests (.recv other.pieceIndex) =
        state.vars.requests (.recv other.pieceIndex) := by
    intro other member
    simp [Variables.assign, (fresh other member).2.1]
  have mine : (state.vars.assign (.recv post.pieceIndex) (some request)).requests
      (.recv post.pieceIndex) = some request := by
    simp [Variables.assign]
  refine ⟨by rw [waits]; exact receiver.agreed, ?_, ?_⟩
  · intro other member
    rw [opens, List.mem_append, List.mem_singleton] at member
    rcases member with old | rfl
    · obtain ⟨found, foundEq, facts⟩ := receiver.posted other old
      exact ⟨found, (requests other old).trans foundEq, facts⟩
    · exact ⟨request, mine, kind, postEq⟩
  · intro alive tag
    rw [waits, opens]
    have tally := receiver.tally alive tag
    by_cases same : tag = post.tag
    · subst same
      cases tally with
      | completed other member tagEq _ _ _ => exact absurd tagEq (fresh _ member).1
      | pending none matches_ =>
          rcases outcome with ⟨incomplete, rfl⟩ | ⟨complete, given⟩
          · refine .pending ?_ matches_
            intro other member tagEq found foundEq
            rw [List.mem_append, List.mem_singleton] at member
            rcases member with old | rfl
            · exact absurd tagEq (fresh other old).1
            · obtain rfl := Option.some.inj (mine.symm.trans foundEq)
              exact incomplete
          · refine .completed request ?_ (by rw [postEq]) ?_ complete (given matches_)
            · rw [postEq]
              simp
            · rw [postEq]
              exact mine
    · refine tally.transfer rfl (others tag same) ?_ requests ?_
      · intro other tagEq
        rw [List.mem_append, List.mem_singleton]
        constructor
        · rintro (old | rfl)
          · exact old
          · exact absurd tagEq.symm same
        · exact Or.inl
      · intro other member buffer index covers
        exact kept buffer index ((fresh other member).2.2 buffer index covers)

theorem Receiver.waitRecv (receiver : Receiver setup sent state matched memory)
    (onSchedule : OnSchedule setup rank state) (bound : rank < setup.worldSize)
    (todo : state.todo = .waitRecv post :: rest) {request : RequestState}
    (postEq : request.post = post) {matched' : List (Piece × Piece)} {memory' : Memory Value}
    (others : ∀ tag, tag ≠ post.tag → lane matchTag tag matched' = lane matchTag tag matched)
    (kept : ∀ buffer index, ¬ post.covers buffer index → memory' buffer index = memory buffer index)
    (given : Given setup state.waitedPieces matched' memory' request)
    (next : state.waitedPieces ++ [post.toPiece] <+: sent) :
    Receiver setup sent (state.advance (state.vars.assign (.recv post.pieceIndex) none)
      (.waitRecv post) rest) matched' memory' := by
  obtain ⟨later, opensEq, afterEq, apart⟩ := onSchedule.waitRecv_oldest bound todo
  have waits : (state.advance (state.vars.assign (.recv post.pieceIndex) none)
      (.waitRecv post) rest).waitedPieces = state.waitedPieces ++ [post.toPiece] := by
    simp [RankState.waitedPieces, RankState.advance, Instr.event]
  have opens : (state.advance (state.vars.assign (.recv post.pieceIndex) none)
      (.waitRecv post) rest).opens = later := by
    simpa [RankState.opens, RankState.advance, Instr.event] using afterEq
  have older : state.opens = post :: later := opensEq
  have requests : ∀ other ∈ later, (state.vars.assign (.recv post.pieceIndex) none).requests
      (.recv other.pieceIndex) = state.vars.requests (.recv other.pieceIndex) := by
    intro other member
    simp [Variables.assign, (apart other member).2.1]
  refine ⟨by rw [waits]; exact next, ?_, ?_⟩
  · intro other member
    rw [opens] at member
    obtain ⟨found, foundEq, facts⟩ := receiver.posted other (by rw [older]; simp [member])
    exact ⟨found, (requests other member).trans foundEq, facts⟩
  · intro alive tag
    rw [waits, opens]
    by_cases same : tag = post.tag
    · subst same
      obtain ⟨front, got, laneEq, frontEq, -⟩ := given.entry
      rw [postEq] at laneEq frontEq
      refine .pending ?_ ?_
      · intro other member tagEq
        exact absurd tagEq (apart other member).1
      · rw [laneEq, lane_append, lane_cons_same rfl, lane_nil, List.map_append, frontEq]
        rfl
    · have tally := receiver.tally alive tag
      have laneEq : lane Piece.tag tag (state.waitedPieces ++ [post.toPiece]) =
          lane Piece.tag tag state.waitedPieces := by
        rw [lane_append, lane_cons_other (fun eq => same eq.symm)]
        simp
      cases tally with
      | pending none matches_ =>
          refine .pending ?_ (by rw [laneEq, others tag same]; exact matches_)
          intro other member tagEq found foundEq
          exact none other (by rw [older]; simp [member]) tagEq found
            ((requests other member).symm.trans foundEq)
      | completed found member tagEq foundEq isCompleted isGiven =>
          have inLater : found.post ∈ later := by
            rw [older, List.mem_cons] at member
            rcases member with isPost | inLater
            · rw [isPost] at tagEq
              exact absurd tagEq.symm same
            · exact inLater
          refine .completed found inLater tagEq ((requests _ inLater).trans foundEq) isCompleted ?_
          obtain ⟨front, got, entryEq, frontEq, facts⟩ := (isGiven.frame fun buffer index covers =>
            kept buffer index ((apart _ inLater).2.2 buffer index covers)).entry
          rw [tagEq] at entryEq frontEq
          exact ⟨front, got, by rw [tagEq, others tag same]; exact entryEq,
            by rw [tagEq, laneEq]; exact frontEq, facts⟩

theorem Receiver.dead (receiver : Receiver setup sent state matched memory)
    {state' : RankState RequestState} (waits : state'.waitedPieces = state.waitedPieces)
    (opens : state'.opens = state.opens) (vars : state'.vars = state.vars)
    (notAlive : ¬ state'.alive) (matched' : List (Piece × Piece)) (memory' : Memory Value) :
    Receiver setup sent state' matched' memory' :=
  ⟨by rw [waits]; exact receiver.agreed, by rw [opens, vars]; exact receiver.posted,
    fun alive => absurd alive notAlive⟩

end Receive

section Identify

variable {sender : RankState RequestState} {rank : Nat} {queue : List (Message Value)}
  {matched : List (Piece × Piece)}

/-- What the receive that is waited for next has been given is the piece it expects, if the sizes
agree. -/
theorem identify (receiver : RankState RequestState) (bound : rank < setup.worldSize)
    (onSender : OnSchedule setup rank sender)
    (onReceiver : OnSchedule setup (next setup.worldSize rank) receiver)
    (stream : Stream setup sender.sentPieces queue matched)
    (agreed : receiver.waitedPieces <+: sender.sentPieces) {post : Post} {rest : List Instr}
    (todo : receiver.todo = .waitRecv post :: rest) {front : List (Piece × Piece)} {got : Piece}
    (entry : lane matchTag post.tag matched = front ++ [(post.toPiece, got)])
    (frontEq : front.map Prod.fst = lane Piece.tag post.tag receiver.waitedPieces) :
    sender.sentPieces[receiver.waitedPieces.length]? = some got ∧
      (got.bytes = post.bytes → got = post.toPiece) := by
  have nextBound := next_lt setup.positive rank
  obtain ⟨rest, split⟩ := onReceiver.events_next nextBound todo rfl
  have isExpected : receiver.waitedPieces ++ [post.toPiece] <+:
      setup.expected (next setup.worldSize rank) := by
    have whole := congrArg recvWaits split
    rw [recvWaits_run] at whole
    rw [Setup.expected, whole]
    exact ⟨(recvWaits rest).map Post.toPiece, by simp [RankState.waitedPieces]⟩
  have planned : sender.sentPieces <+: setup.sent rank := by
    obtain ⟨later, splitSender⟩ := onSender.events_log bound
    have whole := congrArg sendPosts splitSender
    rw [sendPosts_run, sendPosts_append] at whole
    rw [Setup.sent, ← whole]
    exact ⟨(sendPosts later).map Post.toPiece, by simp [RankState.sentPieces]⟩
  obtain ⟨next_, found, tagEq, exact_⟩ :=
    setup.next_piece bound (agreed.trans planned) isExpected
  -- the place of the match among the pieces of its tag
  have lengthEq : front.length = (lane Piece.tag post.tag receiver.waitedPieces).length := by
    rw [← frontEq, List.length_map]
  have gotAt : (lane Piece.tag post.tag sender.sentPieces)[front.length]? = some got := by
    rw [stream.lanes, entry]
    simp
  have nextAt := lane_getElem Piece.tag found
  rw [tagEq, ← List.prefix_iff_eq_take.mp (agreed.trans planned), ← lengthEq] at nextAt
  have lanes : lane Piece.tag post.tag sender.sentPieces <+:
      lane Piece.tag post.tag (setup.sent rank) := planned.filter _
  obtain ⟨laneBound, -⟩ := List.getElem?_eq_some_iff.mp gotAt
  have same : got = next_ := by
    rw [← Splits.prefix_getElem? lanes laneBound] at gotAt
    exact Option.some.inj (gotAt.symm.trans nextAt)
  subst same
  refine ⟨?_, exact_⟩
  have longer : receiver.waitedPieces.length < sender.sentPieces.length := by
    by_contra short
    have whole := List.IsPrefix.eq_of_length_le agreed (by omega)
    rw [lengthEq, whole] at laneBound
    exact Nat.lt_irrefl _ laneBound
  rwa [← Splits.prefix_getElem? planned longer]

end Identify

end RingAllReduce
