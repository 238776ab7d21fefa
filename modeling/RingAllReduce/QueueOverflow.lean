import RingAllReduce.PieceArithmetic
import RingAllReduce.VerbsRefinement

/-!
When exactly a queue is too small. While a rank posts the pieces of a batch it polls nothing, so
that its queue holds as many work requests as it has posted in the batch.
-/

namespace RingAllReduce.VerbsRing

open Exchange Rotation VerbsTransport

variable {Value : Type} {setup : Setup Value} {rank : Nat} {room : Nat → Bool}

section Pieces

variable {context : Context} {phase : CollectivePhase} {step elementSize pieceElements : Nat}
  {flow : Flow}

/-- The pieces a loop posts are consecutive, up to the first one that has no tag. -/
theorem posted_pieces (start pieces : Nat) :
    (posted ((List.range' start pieces).map
        (postFor context phase step elementSize pieceElements flow))).map (fun post => post.pieceIndex) <+:
      List.range' start pieces := by
  induction pieces generalizing start with
  | zero => simp
  | succ pieces ih =>
      rw [List.range'_succ, List.map_cons]
      rcases @postFor_cases context phase step elementSize pieceElements flow start with
        ⟨-, -, post, made, -⟩ | ⟨outside, failed⟩
      · obtain ⟨tag, -, rfl⟩ := postFor_ok made
        rw [made, posted_ok, List.map_cons]
        exact List.prefix_cons_inj _ |>.mpr (ih (start + 1))
      · have none : posted ((List.range' (start + 1) pieces).map
            (postFor context phase step elementSize pieceElements flow)) = [] := by
          apply List.eq_nil_iff_forall_not_mem.mpr
          intro post member
          obtain ⟨piece, inRange, made⟩ := List.mem_map.mp (mem_posted.mp member)
          have later := (List.mem_range'_1.mp inRange).1
          rcases @postFor_cases context phase step elementSize pieceElements flow piece with
            ⟨stepBound, pieceBound, -⟩ | ⟨-, failed'⟩
          · exact outside ⟨stepBound, by omega⟩
          · simp [failed'] at made
        rw [failed, posted_error, none]
        simp

/-- How many pieces of a batch come before one of its pieces. -/
theorem lead_length {index : Nat} {lead rest : List Post} {post : Post}
    (split : posted (batchPosts context phase step elementSize pieceElements flow index) =
      lead ++ post :: rest) : lead.length = post.pieceIndex % context.config.maxInflight := by
  have consecutive := @posted_pieces context phase step elementSize pieceElements flow
    (index * context.config.maxInflight)
    (min (index * context.config.maxInflight + context.config.maxInflight)
      (pieceCountFor flow.blockCount pieceElements) - index * context.config.maxInflight)
  rw [← batchPosts, split, List.map_append, List.map_cons] at consecutive
  have fewer := consecutive.length_le
  rw [List.length_append, List.length_cons, List.length_map, List.length_map,
    List.length_range'] at fewer
  have here := @Splits.prefix_getElem? _ _ _ consecutive lead.length (by simp)
  rw [List.getElem?_range' (by omega), List.getElem?_append_right (by simp)] at here
  have isPiece : post.pieceIndex = index * context.config.maxInflight + lead.length := by
    simpa using here.symm
  rw [isPiece, Nat.mul_comm, Nat.mul_add_mod, Nat.mod_eq_of_lt (by omega)]

end Pieces

section Posting

/-- The last thing a rank has done on a link was no wait, and the next thing is none either. -/
structure Posting (state : RankState Handle) : Prop where
  succeeded : ∀ status ∈ state.results, status = .success
  last : ∀ event, (events state.log).getLast? = some event → event.isWait = false
  next : ∀ instr rest, state.todo = instr :: rest → ∀ event, instr.event = some event →
    event.isWait = false

/-- No completion of an open request was polled. -/
structure Untouched (state : RankState Handle) (sends : List SendWork) (recvs : List RecvWork) :
    Prop where
  sends : ∀ work ∈ sends.drop (sendWaits (events state.log)).length, work.state.completed = false
  recvs : ∀ work ∈ recvs.drop (recvWaits (events state.log)).length, work.state.completed = false

variable {state : RankState Handle} {sends sends' : List SendWork} {recvs recvs' : List RecvWork}

theorem Untouched.quiet (untouched : Untouched state sends recvs) {state' : RankState Handle}
    (eventsEq : events state'.log = events state.log) : Untouched state' sends recvs := by
  refine ⟨?_, ?_⟩ <;> rw [eventsEq]
  · exact untouched.sends
  · exact untouched.recvs

theorem Untouched.congr (untouched : Untouched state sends recvs)
    (sendFlags : sends'.map (fun work => work.state.completed) =
      sends.map fun work => work.state.completed)
    (recvFlags : recvs'.map (fun work => work.state.completed) =
      recvs.map fun work => work.state.completed) : Untouched state sends' recvs' := by
  have sendDrop := congrArg (List.drop (sendWaits (events state.log)).length) sendFlags
  have recvDrop := congrArg (List.drop (recvWaits (events state.log)).length) recvFlags
  rw [← List.map_drop, ← List.map_drop] at sendDrop recvDrop
  constructor
  · intro work member
    have flag := List.mem_map_of_mem (f := fun work : SendWork => work.state.completed) member
    rw [sendDrop] at flag
    obtain ⟨old, oldIn, same⟩ := List.mem_map.mp flag
    exact same.symm.trans (untouched.sends old oldIn)
  · intro work member
    have flag := List.mem_map_of_mem (f := fun work : RecvWork => work.state.completed) member
    rw [recvDrop] at flag
    obtain ⟨old, oldIn, same⟩ := List.mem_map.mp flag
    exact same.symm.trans (untouched.recvs old oldIn)

theorem untouched_of_none (kept : Kept state sends recvs)
    (noRecvs : openRecvs (events state.log) = []) (noSends : openSends (events state.log) = []) :
    Untouched state sends recvs := by
  rw [openRecvs, ← kept.recvWorks, ← List.map_drop, List.map_eq_nil_iff] at noRecvs
  rw [openSends, ← kept.sendWorks, ← List.map_drop, List.map_eq_nil_iff] at noSends
  exact ⟨by simp [noSends], by simp [noRecvs]⟩

/-- Where a rank comes to a post, it has polled nothing since the batch began. -/
theorem untouched_at_post (kept : Kept state sends recvs) (onSchedule : OnSchedule setup rank state)
    (bound : rank < setup.worldSize) (untouched : Posting state → Untouched state sends recvs)
    {instr : Instr} {rest : List Instr} (todo : state.todo = instr :: rest) {event : Event Post}
    (isEvent : instr.event = some event) (isPost : event.isWait = false) :
    Untouched state sends recvs := by
  obtain ⟨after, split⟩ := onSchedule.events_next bound todo isEvent
  by_cases behind : ∃ last, (events state.log).getLast? = some last ∧ last.isWait = true
  · obtain ⟨last, isLast, isWait⟩ := behind
    obtain ⟨noRecvs, noSends⟩ := open_nil_of_wait split isPost isLast isWait
    exact untouched_of_none kept noRecvs noSends
  · refine untouched ⟨onSchedule.alive_of_todo bound todo, fun last isLast => ?_, ?_⟩
    · by_contra isWait
      exact behind ⟨last, isLast, by simpa using isWait⟩
    · intro head tail todo' other isOther
      rw [todo] at todo'
      obtain ⟨rfl, rfl⟩ := List.cons.inj todo'
      obtain rfl := Option.some.inj (isEvent.symm.trans isOther)
      exact isPost

theorem perform_busy_wait {fabric fabric' : Fabric} {memory memory' : Memory Value}
    {vars : Variables Handle} {instr : Instr}
    (outcome : perform setup (verbsTransport Value room setup.worldSize) rank vars fabric memory
      instr = .busy (fabric', memory')) :
    ∃ event, instr.event = some event ∧ event.isWait = true := by
  cases instr with
  | postRecv post =>
      have busy := Outcome.map_eq_busy outcome
      simp only [verbsTransport, postReceivePrevious] at busy
      repeat' split at busy
      all_goals simp at busy
  | postSend post =>
      have busy := Outcome.map_eq_busy outcome
      simp only [verbsTransport, postSendNext] at busy
      repeat' split at busy
      all_goals simp at busy
  | waitRecv post => exact ⟨.waitRecv post, rfl, rfl⟩
  | waitSend post => exact ⟨.waitSend post, rfl, rfl⟩
  | _ => exact absurd outcome (perform_local_busy rfl).1

theorem device_flags {worldSize other : Nat} {fabric fabric' : Fabric}
    {memory memory' : Nat → Memory Value}
    (step : DeviceStep worldSize fabric memory fabric' memory') :
    ((fabric'.sends other).map fun work => work.state.completed) =
        ((fabric.sends other).map fun work => work.state.completed) ∧
      ((fabric'.recvs other).map fun work => work.state.completed) =
        ((fabric.recvs other).map fun work => work.state.completed) := by
  cases step with
  | execute sender place target send recv =>
      constructor
      · by_cases here : other = sender
        · subst here
          simp only [Fabric.execute, Function.update_self]
          exact Splits.map_modify_same _ (by exact fun _ => rfl) _ _
        · simp [Fabric.execute, here]
      · by_cases here : other = next worldSize sender
        · subst here
          simp only [Fabric.execute, Function.update_self]
          exact Splits.map_modify_same _ (by exact fun _ => rfl) _ _
        · simp [Fabric.execute, here]
  | acknowledge sender place send =>
      by_cases here : other = sender
      · subst here
        simp only [Fabric.acknowledge, Function.update_self, and_true]
        exact Splits.map_modify_same _ (by exact fun _ => rfl) _ _
      · simp [Fabric.acknowledge, here]

theorem rankStep_others {before after : VerbsWorld Value} {other : Nat}
    (taken : RankStep setup (verbsTransport Value room setup.worldSize) rank before after)
    (different : other ≠ rank) : after.net.sends other = before.net.sends other ∧
      after.net.recvs other = before.net.recvs other := by
  cases taken with
  | enter => exact ⟨rfl, rfl⟩
  | busy instr rest fabric memory todo outcome =>
      exact poll_others (perform_busy outcome).1 different
  | next instr rest fabric memory vars todo outcome =>
      exact (perform_next outcome).others different
  | stop instr rest fabric memory status todo outcome =>
      obtain ⟨⟨control, rfl⟩, -⟩ := perform_stop outcome
      exact ⟨rfl, rfl⟩

theorem untouched_performed {fabric fabric' : Fabric} {vars' : Variables Handle} {instr : Instr}
    {rest : List Instr} (kept : Kept state (fabric.sends rank) (fabric.recvs rank))
    (onSchedule : OnSchedule setup rank state) (bound : rank < setup.worldSize)
    (untouched : Posting state → Untouched state (fabric.sends rank) (fabric.recvs rank))
    (todo : state.todo = instr :: rest)
    (performed : Performed setup room rank state.vars fabric instr fabric' vars')
    (posting : Posting (state.advance vars' instr rest)) :
    Untouched (state.advance vars' instr rest) (fabric'.sends rank) (fabric'.recvs rank) := by
  cases performed with
  | postRecv post mode postable hasRoom =>
      have before := untouched_at_post kept onSchedule bound untouched todo rfl rfl
      have inside := (kept.waits_le onSchedule bound).1
      obtain ⟨-, -, recvWaitsEq, sendWaitsEq⟩ := snoc_postRecv (events state.log) post
      constructor
      · rw [advance_events _ rfl, sendWaitsEq]
        exact before.sends
      · rw [advance_events _ rfl, recvWaitsEq]
        simp only [Fabric.addRecv, Function.update_self]
        rw [List.drop_append_of_le_length inside]
        exact Splits.forall_snoc before.recvs rfl
  | postSend post mode control unread =>
      have before := untouched_at_post kept onSchedule bound untouched todo rfl rfl
      have inside := (kept.waits_le onSchedule bound).2
      obtain ⟨-, -, recvWaitsEq, sendWaitsEq⟩ := snoc_postSend (events state.log) post
      constructor
      · rw [advance_events _ rfl, sendWaitsEq]
        simp only [Fabric.addSend, Fabric.read, Function.update_self]
        rw [List.drop_append_of_le_length inside]
        exact Splits.forall_snoc before.sends rfl
      · rw [advance_events _ rfl, recvWaitsEq]
        exact before.recvs
  | waitRecv post | waitSend post =>
      have isWait := posting.last _ (by rw [advance_events _ rfl, List.getLast?_concat])
      simp [Event.isWait] at isWait
  | between _ noEvent =>
      have same : events (state.advance vars' instr rest).log = events state.log := by
        simp [RankState.advance, noEvent]
      refine (untouched ⟨posting.succeeded, same ▸ posting.last, ?_⟩).quiet same
      intro head tail todo' event isEvent
      rw [todo] at todo'
      obtain ⟨rfl, rfl⟩ := List.cons.inj todo'
      simp [noEvent] at isEvent

theorem untouched_of_reachable {world : VerbsWorld Value} (reachable : VerbsReachable room setup world)
    (bound : rank < setup.worldSize) (posting : Posting (world.rank rank)) :
    Untouched (world.rank rank) (world.net.sends rank) (world.net.recvs rank) := by
  revert posting
  apply Runs.Reachable.strengthen (fun world => Posting (world.rank rank) →
    Untouched (world.rank rank) (world.net.sends rank) (world.net.recvs rank)) reachable
  · intro _
    constructor <;> simp [initialWorld, idleFabric]
  · intro before after earlier untouched step
    have kept := allKept_of_reachable earlier rank bound
    have onSchedule := onSchedule_of_reachable earlier rank
    cases step with
    | background done =>
        intro posting
        obtain ⟨sendFlags, recvFlags⟩ := @device_flags _ _ rank _ _ _ _ done
        exact (untouched posting).congr sendFlags recvFlags
    | rank mover moverBound taken =>
        by_cases here : rank = mover
        · subst here
          cases rankStep_cases taken with
          | enter call idle succeeded next =>
              intro posting
              rw [World.put_rank_same] at posting ⊢
              refine (untouched ⟨posting.succeeded, posting.last, ?_⟩).quiet rfl
              simp [idle]
          | busy instr rest fabric memory todo outcome =>
              intro posting
              rw [World.put_rank_same] at posting
              obtain ⟨event, isEvent, isWait⟩ := perform_busy_wait outcome
              simp [posting.next instr rest todo event isEvent] at isWait
          | next instr rest fabric memory vars todo outcome =>
              intro posting
              rw [World.put_rank_same] at posting ⊢
              exact untouched_performed kept onSchedule bound untouched todo (perform_next outcome)
                posting
          | stop instr rest fabric memory status todo outcome =>
              intro posting
              rw [World.put_rank_same] at posting ⊢
              obtain ⟨⟨control, rfl⟩, cause⟩ := perform_stop outcome
              have success : status = .success := posting.succeeded status (by simp [RankState.leave])
              have noEvent : instr.event = none := by
                rcases cause with noEvent | rfl
                · exact noEvent
                · simp at success
              have same := leave_log (before.rank rank) status noEvent
              refine (untouched ⟨fun other member => posting.succeeded other
                (by simp [RankState.leave, member]), same ▸ posting.last, ?_⟩).quiet same
              intro head tail todo' event isEvent
              rw [todo] at todo'
              obtain ⟨rfl, rfl⟩ := List.cons.inj todo'
              simp [noEvent] at isEvent
        · have kept : after.rank rank = before.rank rank := by
            cases rankStep_cases taken <;> exact World.put_rank_other _ _ _ _ _ here
          obtain ⟨sends, recvs⟩ := rankStep_others (rankStep_cases taken) here
          rwa [kept, sends, recvs]

end Posting

section Bounded

variable {fabric fabric' : Fabric} {other : Nat}

/-- A queue of the size `create_qp` asks for holds at most that many work requests. -/
def Fabric.Bounded (fabric : Fabric) (rank : Nat) : Prop :=
  unpolledRecvs (fabric.recvs rank) ≤ maxWorkRequests ∧
    unpolledSends (fabric.sends rank) ≤ maxWorkRequests

theorem unpolledRecvs_snoc (works : List RecvWork) (work : RecvWork) :
    unpolledRecvs (works ++ [work]) ≤ unpolledRecvs works + 1 := by
  rw [unpolledRecvs, List.countP_append]
  exact Nat.add_le_add_left List.countP_le_length _

theorem unpolledSends_snoc (works : List SendWork) (work : SendWork) :
    unpolledSends (works ++ [work]) ≤ unpolledSends works + 1 := by
  rw [unpolledSends, List.countP_append]
  exact Nat.add_le_add_left List.countP_le_length _

theorem Fabric.Bounded.performed {vars vars' : Variables Handle} {instr : Instr}
    (bounded : fabric.Bounded rank)
    (performed : Performed setup createQp rank vars fabric instr fabric' vars') :
    fabric'.Bounded rank := by
  obtain ⟨recvs, sends⟩ := bounded
  cases performed with
  | postRecv post mode postable hasRoom =>
      have room := of_decide_eq_true hasRoom
      have more := unpolledRecvs_snoc (fabric.recvs rank) (fabric.receiveWork rank post mode)
      refine ⟨?_, by simpa [Fabric.addRecv] using sends⟩
      simp only [Fabric.addRecv, Function.update_self]
      omega
  | postSend post mode control unread postable available matched hasRoom =>
      have room := of_decide_eq_true hasRoom
      have more := unpolledSends_snoc (fabric.sends rank)
        ((fabric.read (next setup.worldSize rank) unread).sendWork rank post mode control)
      refine ⟨by simpa [Fabric.addSend, Fabric.read] using recvs, ?_⟩
      simp only [Fabric.addSend, Fabric.read, Function.update_self] at more ⊢
      omega
  | waitRecv | waitSend | between => exact ⟨recvs, sends⟩

theorem Fabric.Bounded.poll (bounded : fabric.Bounded rank)
    (polled : fabric.poll rank = some fabric') : fabric'.Bounded rank := by
  obtain ⟨recvs, sends⟩ := bounded
  unfold Fabric.poll at polled
  split at polled
  · simp at polled
  rename_i handle completion rest queue
  obtain ⟨kind, place⟩ := handle
  cases kind with
  | send =>
      obtain rfl := Option.some.inj polled
      refine ⟨recvs, ?_⟩
      simp only [Function.update_self]
      exact (Splits.countP_modify_fewer _ _ (by exact fun _ => rfl) _ _).trans sends
  | receive =>
      obtain rfl := Option.some.inj polled
      refine ⟨?_, sends⟩
      simp only [Function.update_self]
      exact (Splits.countP_modify_fewer _ _ (by exact fun _ => rfl) _ _).trans recvs

theorem unpolled_of_flags {sends sends' : List SendWork} {recvs recvs' : List RecvWork}
    (sendFlags : sends'.map (fun work => work.state.completed) =
      sends.map fun work => work.state.completed)
    (recvFlags : recvs'.map (fun work => work.state.completed) =
      recvs.map fun work => work.state.completed) :
    unpolledRecvs recvs' = unpolledRecvs recvs ∧ unpolledSends sends' = unpolledSends sends := by
  have recvCount := congrArg (List.countP (!·)) recvFlags
  have sendCount := congrArg (List.countP (!·)) sendFlags
  rw [List.countP_map, List.countP_map] at recvCount sendCount
  exact ⟨recvCount, sendCount⟩

theorem bounded_of_reachable {world : VerbsWorld Value}
    (reachable : VerbsReachable createQp setup world) (rank : Nat) : world.net.Bounded rank := by
  apply Runs.Reachable.invariant (fun world => world.net.Bounded rank) reachable
  · constructor <;> simp [initialWorld, idleFabric, unpolledRecvs, unpolledSends]
  · intro before after bounded step
    cases step with
    | background done =>
        obtain ⟨sendFlags, recvFlags⟩ := @device_flags _ _ rank _ _ _ _ done
        obtain ⟨recvs, sends⟩ := unpolled_of_flags sendFlags recvFlags
        exact ⟨recvs ▸ bounded.1, sends ▸ bounded.2⟩
    | rank mover bound taken =>
        by_cases here : rank = mover
        · subst here
          cases rankStep_cases taken with
          | enter => exact bounded
          | busy instr rest fabric memory todo outcome =>
              exact bounded.poll (perform_busy outcome).1
          | next instr rest fabric memory vars todo outcome =>
              exact bounded.performed (perform_next outcome)
          | stop instr rest fabric memory status todo outcome =>
              obtain ⟨⟨control, rfl⟩, -⟩ := perform_stop outcome
              exact bounded
        · obtain ⟨sends, recvs⟩ := rankStep_others (rankStep_cases taken) here
          rwa [Fabric.Bounded, sends, recvs]

end Bounded

/-- A rank comes to a post that as many posts of its batch and its direction precede as a queue
takes work requests. -/
def Overlong (setup : Setup Value) (rank : Nat) (state : RankState Handle) : Prop :=
  ∃ post rest, (state.todo = .postRecv post :: rest ∨ state.todo = .postSend post :: rest) ∧
    maxWorkRequests ≤ post.pieceIndex % (effectiveConfig (setup.config rank)).maxInflight

section Full

variable {world : VerbsWorld Value} {post : Post} {rest : List Instr}

theorem unpolled_of_untouched {state : RankState Handle} {sends : List SendWork}
    {recvs : List RecvWork} (kept : Kept state sends recvs)
    (untouched : Untouched state sends recvs) :
    unpolledRecvs recvs = (openRecvs (events state.log)).length ∧
      unpolledSends sends = (openSends (events state.log)).length := by
  rw [openRecvs, openSends, ← kept.recvWorks, ← kept.sendWorks, ← List.map_drop, ← List.map_drop,
    List.length_map, List.length_map]
  constructor
  · refine Splits.countP_of_front (fun place work found waited => ?_) fun work member => ?_
    · simp [kept.waitedRecvs place work found waited]
    · simp [untouched.recvs work member]
  · refine Splits.countP_of_front (fun place work found waited => ?_) fun work member => ?_
    · simp [kept.waitedSends place work found waited]
    · simp [untouched.sends work member]

theorem unpolled_at_postRecv (reachable : VerbsReachable room setup world)
    (bound : rank < setup.worldSize) (todo : (world.rank rank).todo = .postRecv post :: rest) :
    unpolledRecvs (world.net.recvs rank) =
      post.pieceIndex % (effectiveConfig (setup.config rank)).maxInflight := by
  have kept := allKept_of_reachable reachable rank bound
  have onSchedule := onSchedule_of_reachable reachable rank
  have untouched := untouched_at_post kept onSchedule bound
    (untouched_of_reachable reachable bound) todo rfl rfl
  obtain ⟨after, split⟩ := onSchedule.events_next bound todo rfl
  obtain ⟨batch, member, lead, behind, itemsEq, opens⟩ := open_at_postRecv split
  obtain ⟨call, args, stage, index, -, -, -, rfl⟩ := setup.mem_plan member
  rw [(unpolled_of_untouched kept untouched).1, opens]
  exact lead_length itemsEq

theorem unpolled_at_postSend (reachable : VerbsReachable room setup world)
    (bound : rank < setup.worldSize) (todo : (world.rank rank).todo = .postSend post :: rest) :
    unpolledSends (world.net.sends rank) =
      post.pieceIndex % (effectiveConfig (setup.config rank)).maxInflight := by
  have kept := allKept_of_reachable reachable rank bound
  have onSchedule := onSchedule_of_reachable reachable rank
  have untouched := untouched_at_post kept onSchedule bound
    (untouched_of_reachable reachable bound) todo rfl rfl
  obtain ⟨after, split⟩ := onSchedule.events_next bound todo rfl
  obtain ⟨batch, member, lead, behind, itemsEq, opens⟩ := open_at_postSend split
  obtain ⟨call, args, stage, index, -, -, -, rfl⟩ := setup.mem_plan member
  rw [(unpolled_of_untouched kept untouched).2, opens]
  exact lead_length itemsEq

/-- A rank finds a queue full exactly where it comes to the 257th post of a batch. -/
theorem queuesFit_iff (reachable : VerbsReachable createQp setup world) :
    QueuesFit setup world ↔ ∀ rank < setup.worldSize, ¬ Overlong setup rank (world.rank rank) := by
  constructor
  · rintro fits rank bound ⟨post, rest, recv | send, many⟩
    · have hasRoom := of_decide_eq_true (fits.postRecv rank bound post rest recv)
      rw [unpolled_at_postRecv reachable bound recv] at hasRoom
      omega
    · have hasRoom := of_decide_eq_true (fits.postSend rank bound post rest send)
      rw [unpolled_at_postSend reachable bound send] at hasRoom
      omega
  · intro short
    have bounded := bounded_of_reachable reachable
    refine ⟨fun rank _ => (bounded rank).1, fun rank _ => (bounded rank).2, ?_, ?_, ?_⟩
    · intro rank _
      have owed := (owes_of_reachable reachable rank).length_le
      obtain ⟨recvLe, sendLe⟩ := bounded rank
      simp only [maxWorkRequests] at recvLe sendLe
      simp only [completionQueueSize]
      omega
    · intro rank bound post rest todo
      rw [unpolled_at_postRecv reachable bound todo]
      by_contra full
      exact short rank bound ⟨post, rest, Or.inl todo, by simpa [createQp] using full⟩
    · intro rank bound post rest todo
      rw [unpolled_at_postSend reachable bound todo]
      by_contra full
      exact short rank bound ⟨post, rest, Or.inr todo, by simpa [createQp] using full⟩

/-- No batch of calls without deep blocks is that long. -/
theorem not_overlong (reachable : VerbsReachable room setup world) (bound : rank < setup.worldSize)
    (shallow : Shallow setup rank (world.rank rank)) : ¬ Overlong setup rank (world.rank rank) := by
  have kept := allKept_of_reachable reachable rank bound
  rintro ⟨post, rest, recv | send, many⟩
  · have few := lt_of_le_of_lt kept.unpolled_le.1 (open_lt_postRecv reachable bound shallow recv)
    rw [unpolled_at_postRecv reachable bound recv] at few
    omega
  · have few := lt_of_le_of_lt kept.unpolled_le.2 (open_lt_postSend reachable bound shallow send)
    rw [unpolled_at_postSend reachable bound send] at few
    omega

end Full

section Reached

variable {world : VerbsWorld Value}

theorem exists_before (reachable : VerbsReachable room setup world) {instr : Instr}
    (performed : instr ∈ (world.rank rank).log) :
    ∃ before rest, VerbsReachable room setup before ∧ (before.rank rank).todo = instr :: rest := by
  revert performed
  apply Runs.Reachable.strengthen (fun world => instr ∈ (world.rank rank).log →
    ∃ before rest, VerbsReachable room setup before ∧ (before.rank rank).todo = instr :: rest)
    reachable
  · simp [initialWorld, initialRank]
  · intro before after earlier known step
    cases step with
    | background done => exact known
    | rank mover bound taken =>
        by_cases here : rank = mover
        · subst here
          cases rankStep_cases taken with
          | enter => simpa [RankState.enter] using known
          | busy => simpa using known
          | next head rest fabric memory vars todo outcome =>
              intro performed
              rw [World.put_rank_same, RankState.advance] at performed
              rcases List.mem_append.mp performed with old | new
              · exact known old
              · obtain rfl := List.mem_singleton.mp new
                exact ⟨before, rest, earlier, todo⟩
          | stop head rest fabric memory status todo outcome =>
              intro performed
              rw [World.put_rank_same, RankState.leave] at performed
              simp only at performed
              split at performed
              · rcases List.mem_append.mp performed with old | new
                · exact known old
                · obtain rfl := List.mem_singleton.mp new
                  exact ⟨before, rest, earlier, todo⟩
              · exact known performed
        · have kept : after.rank rank = before.rank rank := by
            cases rankStep_cases taken <;> exact World.put_rank_other _ _ _ _ _ here
          rwa [kept]

theorem postRecv_mem {code : List Instr} {post : Post} (member : post ∈ recvPosts (events code)) :
    .postRecv post ∈ code := by
  obtain ⟨event, eventIn, isPost⟩ := List.mem_filterMap.mp member
  obtain ⟨instr, instrIn, isEvent⟩ := List.mem_filterMap.mp eventIn
  cases event <;> simp only [Event.postedRecv, reduceCtorEq, Option.some.injEq] at isPost
  cases instr <;>
    simp only [Instr.event, reduceCtorEq, Option.some.injEq, Event.postRecv.injEq] at isEvent
  exact isPost ▸ isEvent ▸ instrIn

theorem postSend_mem {code : List Instr} {post : Post} (member : post ∈ sendPosts (events code)) :
    .postSend post ∈ code := by
  obtain ⟨event, eventIn, isPost⟩ := List.mem_filterMap.mp member
  obtain ⟨instr, instrIn, isEvent⟩ := List.mem_filterMap.mp eventIn
  cases event <;> simp only [Event.postedSend, reduceCtorEq, Option.some.injEq] at isPost
  cases instr <;>
    simp only [Instr.event, reduceCtorEq, Option.some.injEq, Event.postSend.injEq] at isEvent
  exact isPost ▸ isEvent ▸ instrIn

theorem exists_stage (kind : Kind) {worldSize block : Nat} (several : 2 ≤ worldSize)
    (bound : rank < worldSize) (blockBound : block < worldSize) :
    ∃ stage ∈ kind.stages worldSize,
      blockAt worldSize rank stage = block ∨ blockAt worldSize rank (stage + 1) = block := by
  have inside : ∀ step < worldSize - 1, kind.firstStage worldSize + step ∈ kind.stages worldSize := by
    intro step small
    cases kind <;> simp [Kind.stages, Kind.scatterStages, Kind.gatherStages, Kind.firstStage, small]
  have positive : 0 < worldSize := by omega
  have start := hop_lt positive block (kind.firstStage worldSize)
  have reached := hop_distance start bound
  have near := distance_lt positive (hop worldSize block (kind.firstStage worldSize)) rank
  generalize distance worldSize (hop worldSize block (kind.firstStage worldSize)) rank = steps at *
  have here : blockAt worldSize rank (kind.firstStage worldSize + steps) = block := by
    apply blockAt_eq blockBound
    rw [← reached]
    simp [hop, Nat.add_assoc]
  rcases Nat.lt_or_ge steps (worldSize - 1) with early | last
  · exact ⟨_, inside steps early, Or.inl here⟩
  · refine ⟨_, inside (steps - 1) (by omega), Or.inr ?_⟩
    rw [← here]
    congr 1
    omega

/-- A rank that has gone through all stages of a call has posted the 257th piece of a deep block. -/
theorem exists_late_post (acceptable : Acceptable setup) (several : 2 ≤ setup.worldSize)
    (bound : rank < setup.worldSize) {args : Call Value} (member : args ∈ setup.calls) {block : Nat}
    (blockBound : block < setup.worldSize) (deep : Deep setup rank args block) :
    ∃ post, post.pieceIndex = maxWorkRequests ∧
      (post ∈ allRecvs (setup.plan rank) ∨ post ∈ allSends (setup.plan rank)) := by
  obtain ⟨call, inside, rfl⟩ := List.mem_iff_getElem.mp member
  have found : setup.calls[call]? = some setup.calls[call] := List.getElem?_eq_getElem inside
  generalize setup.calls[call] = args at found deep member
  obtain ⟨stage, stageIn, isBlock⟩ := exists_stage args.kind several bound blockBound
  have inflight := (effectiveConfig_maxInflight (setup.config rank)).1
  have many := lt_of_lt_of_le deep.many (Nat.min_le_right _ _)
  have stepBound := stageStep_le acceptable.ranks (Kind.mem_stages stageIn)
  have late : ∀ flow : Flow, flow.blockCount = blockCount args.count setup.worldSize block →
      ∃ post ∈ flowPosts (setup.context rank (setup.sequenceAt call) call)
        (stagePhase setup.worldSize stage) (stageStep setup.worldSize stage)
        (datatypeSize args.datatype) (setup.pieceElements rank args.datatype) flow,
        post.pieceIndex = maxWorkRequests := by
    intro flow count
    rcases @postFor_cases (setup.context rank (setup.sequenceAt call) call)
      (stagePhase setup.worldSize stage) (stageStep setup.worldSize stage)
      (datatypeSize args.datatype) (setup.pieceElements rank args.datatype) flow
      maxWorkRequests with ⟨-, -, post, made, -⟩ | ⟨outside, -⟩
    · refine ⟨post, mem_flowPosts.mpr ⟨maxWorkRequests, count ▸ many, made⟩, ?_⟩
      obtain ⟨tag, -, rfl⟩ := postFor_ok made
      rfl
    · exact absurd ⟨stepBound, by decide⟩ outside
  have planned : ∀ batch ∈ stageBatches (setup.context rank (setup.sequenceAt call) call) args.count
      args.datatype stage, batch ∈ setup.plan rank := by
    intro batch inStage
    refine List.mem_flatMap.mpr ⟨(call, stage), ?_, by simpa [Setup.batchesAt, found] using inStage⟩
    refine List.mem_flatMap.mpr ⟨call, List.mem_range.mpr inside, ?_⟩
    simpa [found, (acceptable.calls args member rank bound).1] using stageIn
  rcases isBlock with sent | received
  · obtain ⟨post, postIn, isLate⟩ := late (sentFlow args.count setup.worldSize
      (blockAt setup.worldSize rank stage)) (by rw [sent]; rfl)
    refine ⟨post, isLate, Or.inr ?_⟩
    rw [← allSends_stepBatches inflight (receivedFlow args.count setup.worldSize stage
      (blockAt setup.worldSize rank (stage + 1)))] at postIn
    obtain ⟨batch, inStage, inBatch⟩ := List.mem_flatMap.mp postIn
    exact List.mem_flatMap.mpr ⟨batch, planned batch inStage, inBatch⟩
  · obtain ⟨post, postIn, isLate⟩ := late (receivedFlow args.count setup.worldSize stage
      (blockAt setup.worldSize rank (stage + 1))) (by rw [receivedFlow_blockCount, received])
    refine ⟨post, isLate, Or.inl ?_⟩
    rw [← allRecvs_stepBatches inflight _ (sentFlow args.count setup.worldSize
      (blockAt setup.worldSize rank stage))] at postIn
    obtain ⟨batch, inStage, inBatch⟩ := List.mem_flatMap.mp postIn
    exact List.mem_flatMap.mpr ⟨batch, planned batch inStage, inBatch⟩

/-- Where every call of every rank ends, a deep block is an overlong batch. -/
theorem exists_overlong (uniform : Uniform setup) (acceptable : Acceptable setup)
    (several : 2 ≤ setup.worldSize)
    (fits : ∀ world : VerbsWorld Value, VerbsReachable createQp setup world →
      QueuesFit setup world)
    (bound : rank < setup.worldSize) {args : Call Value} (member : args ∈ setup.calls) {block : Nat}
    (blockBound : block < setup.worldSize) (deep : Deep setup rank args block) :
    ∃ world, VerbsReachable createQp setup world ∧ Overlong setup rank (world.rank rank) := by
  have roomy : ∀ before : VerbsWorld Value, VerbsReachable createQp setup before →
      Roomy createQp setup before := fun before earlier rank bound =>
    ⟨(fits before earlier).postRecv rank bound, (fits before earlier).postSend rank bound⟩
  obtain ⟨world, reachable, terminal⟩ := Runs.exists_terminal_of_invariant (workLeft setup)
    (fun before after reached step => reached.next step)
    (fun before after reached step => workLeft_decreases reached step)
    (initialWorld setup idleFabric) (show VerbsReachable createQp setup _ from .refl)
  obtain ⟨idle, results⟩ := acceptable_ended uniform acceptable (endless_of_roomy roomy reachable)
    (fun after step => terminal after ((roomy _ reachable).step.mpr step)) bound
  have onSchedule := onSchedule_of_reachable reachable rank
  -- at the end a rank has performed the code of all its calls
  have whole : events (world.rank rank).log = run (setup.plan rank) := by
    obtain ⟨call, inside, -⟩ := List.mem_iff_getElem.mp member
    have last : setup.calls.length - 1 + 1 = setup.calls.length := by omega
    have returned : (world.rank rank).Returned (setup.calls.length - 1) .success :=
      ⟨idle, by rw [results, List.length_replicate, last],
        by rw [results, List.getElem?_replicate, if_pos (by omega)]⟩
    have noError := onSchedule.noError
    rw [(onSchedule.log_returned returned).2, last] at noError ⊢
    exact events_codeUpTo bound (Nat.le_refl _) noError
  obtain ⟨post, isLate, planned⟩ :=
    exists_late_post acceptable several bound member blockBound deep
  have late : maxWorkRequests ≤
      post.pieceIndex % (effectiveConfig (setup.config rank)).maxInflight := by
    rw [isLate, Nat.mod_eq_of_lt (lt_of_lt_of_le deep.many (Nat.min_le_left _ _))]
  rw [← recvPosts_run, ← sendPosts_run, ← whole] at planned
  rcases planned with recv | send
  · obtain ⟨before, rest, earlier, todo⟩ := exists_before reachable (postRecv_mem recv)
    exact ⟨before, earlier, post, rest, Or.inl todo, late⟩
  · obtain ⟨before, rest, earlier, todo⟩ := exists_before reachable (postSend_mem send)
    exact ⟨before, earlier, post, rest, Or.inr todo, late⟩

end Reached

/-- A queue is too small exactly where a rank comes to the 257th post of a batch. Calls without deep
blocks never get there, whatever the ranks' configurations and the interleaving; where the ranks
agree and no call is refused, some run gets there if a block is deep. -/
theorem queues_fit (setup : Setup Value) :
    (∀ world, VerbsReachable createQp setup world →
      (QueuesFit setup world ↔ ∀ rank < setup.worldSize, ¬ Overlong setup rank (world.rank rank)) ∧
      ((∀ rank < setup.worldSize, Shallow setup rank (world.rank rank)) →
        QueuesFit setup world)) ∧
    (2 ≤ setup.worldSize → Uniform setup → Acceptable setup →
      ((∀ world, VerbsReachable createQp setup world → QueuesFit setup world) ↔
        AllShallow setup)) := by
  refine ⟨fun world reachable => ⟨queuesFit_iff reachable, fun shallow => ?_⟩,
    fun several uniform acceptable => ⟨fun fits => ?_, fun shallow world reachable => ?_⟩⟩
  · exact (queuesFit_iff reachable).mpr fun rank bound =>
      not_overlong reachable bound (shallow rank bound)
  · intro rank bound args member block blockBound deep
    obtain ⟨world, reachable, overlong⟩ :=
      exists_overlong uniform acceptable several fits bound member blockBound deep
    exact (queuesFit_iff reachable).mp (fits world reachable) rank bound overlong
  · exact (queuesFit_iff reachable).mpr fun rank bound => not_overlong reachable bound
      fun call inside args found => shallow rank bound args (List.mem_of_getElem? found)

/-- Two ranks that add up blocks of 300 pieces with 300 requests in flight. -/
def deepSetup : Setup Nat :=
  { worldSize := 2, positive := Nat.two_pos,
    config := fun _ => some { pipelinePieceBytes := 4, maxInflight := 300, transferMode := .auto },
    element := fun _ _ destination source => destination + source,
    calls :=
      [{ kind := .allReduce, count := 600, datatype := .int32, operation := .sum,
         inPlace := fun _ => true, owned := fun _ => 0, sendbuf := fun _ _ => 0,
         workbuf := fun rank index => 10 * rank + index }],
    memory := fun _ _ _ => 0 }

theorem deepSetup_uniform : Uniform deepSetup := by
  refine ⟨fun rank bound args member => rfl, ⟨.auto, fun bytes => ⟨_, rfl⟩, fun rank bound => rfl⟩, ?_⟩
  decide +kernel

theorem deepSetup_acceptable : Acceptable deepSetup := by
  refine ⟨by decide, ?_, ?_, by decide +kernel⟩
  · intro args member _
    obtain rfl := List.mem_singleton.mp member
    rfl
  · intro args member rank bound
    obtain rfl := List.mem_singleton.mp member
    simp [Call.accepted, Datatype.supported]

/-- The first rank has posted a receive of four bytes; with longer batches some queue is overfull. -/
theorem queues_fit_pair : (∃ world, VerbsReachable createQp (pairSetup 1) world ∧
      unpolledRecvs (world.net.recvs 0) = 1 ∧ QueuesFit (pairSetup 1) world) ∧
    ∃ world, VerbsReachable createQp deepSetup world ∧ ¬ QueuesFit deepSetup world := by
  have ran : (verbsFollow createQp (pairSetup 1) [0, 0, 0]).map
      (fun world => unpolledRecvs (world.net.recvs 0)) = some 1 := by
    decide +kernel
  obtain ⟨world, followed, posted⟩ := Option.map_eq_some_iff.mp ran
  have reachable := verbsReachable_of_follow followed
  refine ⟨⟨world, reachable, posted, ((queues_fit _).1 world reachable).2 ?_⟩, ?_⟩
  · intro rank bound call inside args found block blockBound
    exact pairSetup_shallow rank bound args (List.mem_of_getElem? found) block blockBound
  · by_contra none
    have shallow := ((queues_fit deepSetup).2 (by decide) deepSetup_uniform
      deepSetup_acceptable).mp fun world reachable => by
        by_contra full
        exact none ⟨world, reachable, full⟩
    exact shallow 0 (by decide) _ List.mem_cons_self 0 (by decide)
      ⟨⟨rfl, by decide⟩, by simp [deepSetup, effectiveConfig], by decide, by decide⟩

/-- The 257th receive of a batch finds its queue full. -/
theorem not_queuesFit_deep : ∃ world, VerbsReachable createQp deepSetup world ∧
    ¬ QueuesFit deepSetup world := by
  have ran : (verbsFollow createQp deepSetup (List.replicate 258 0)).map (fun world =>
      (unpolledRecvs (world.net.recvs 0), match (world.rank 0).todo with
        | .postRecv _ :: _ => true
        | _ => false)) = some (256, true) := by
    decide +kernel
  obtain ⟨world, followed, reached⟩ := Option.map_eq_some_iff.mp ran
  simp only [Prod.mk.injEq] at reached
  refine ⟨world, verbsReachable_of_follow followed, fun fits => ?_⟩
  cases todo : (world.rank 0).todo with
  | nil => simp [todo] at reached
  | cons instr rest =>
      cases instr with
      | postRecv post =>
          have room := fits.postRecv 0 (by decide) post rest todo
          rw [reached.1] at room
          simp [createQp, maxWorkRequests] at room
      | _ => simp [todo] at reached

end RingAllReduce.VerbsRing
