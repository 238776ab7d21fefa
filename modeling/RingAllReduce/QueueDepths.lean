import RingAllReduce.AllReduceValue
import RingAllReduce.VerbsCollectives

/-!
How full the queues of a rank get. A rank has at most as many work requests that were not polled as
requests it has not waited for, and at most as many completions as such work requests. A batch is as
long as `max_inflight` allows, and `max_inflight` may be larger than a queue.
-/

namespace RingAllReduce.VerbsRing

open Exchange Rotation VerbsTransport

variable {Value : Type} {setup : Setup Value} {rank : Nat} {room : Nat → Bool}
  {fabric fabric' : Fabric}

/-- `cap.max_recv_wr` and `cap.max_send_wr` of the queue pairs. -/
def maxWorkRequests : Nat := 256

/-- What `ibv_create_cq` is asked for. -/
def completionQueueSize : Nat := 2048

/-- A queue pair that takes as many work requests as `create_qp` asks for. -/
def createQp (posted : Nat) : Bool := posted < maxWorkRequests

section Completions

/-- Completions come from work requests the device is done with, and each poll records one. -/
def Fabric.Owes (fabric : Fabric) (rank : Nat) : Prop :=
  (fabric.cq rank).length + (fabric.sends rank).countP (fun work => work.state.completed) +
      (fabric.recvs rank).countP (fun work => work.state.completed) ≤
    (fabric.sends rank).countP SendWork.acknowledged + (fabric.recvs rank).countP RecvWork.consumed

theorem Fabric.Owes.performed {vars vars' : Variables Handle} {instr : Instr} {other : Nat}
    (owes : fabric.Owes other)
    (performed : Performed setup room rank vars fabric instr fabric' vars') : fabric'.Owes other := by
  unfold Fabric.Owes at owes ⊢
  cases performed with
  | postRecv post mode =>
      by_cases here : other = rank
      · subst here
        simpa [Fabric.addRecv, Fabric.receiveWork, Fabric.newState] using owes
      · simpa [Fabric.addRecv, here] using owes
  | postSend post mode control unread =>
      by_cases here : other = rank
      · subst here
        simpa [Fabric.addSend, Fabric.read, Fabric.sendWork, Fabric.newState] using owes
      · simpa [Fabric.addSend, Fabric.read, here] using owes
  | waitRecv | waitSend | between => exact owes

theorem Fabric.Owes.poll {other : Nat} (owes : fabric.Owes other)
    (polled : fabric.poll rank = some fabric') : fabric'.Owes other := by
  unfold Fabric.Owes at owes ⊢
  unfold Fabric.poll at polled
  split at polled
  · simp at polled
  rename_i handle completion rest queue
  obtain ⟨kind, place⟩ := handle
  cases kind with
  | send =>
      obtain rfl := Option.some.inj polled
      by_cases here : other = rank
      · subst here
        have recorded := Splits.countP_modify_le (fun work : SendWork => work.state.completed)
          (fun work => { work with state := work.state.recorded completion }) (fabric.sends other)
          place
        have same := Splits.countP_modify_same SendWork.acknowledged
          (fun work => { work with state := work.state.recorded completion })
          (fun _ => rfl) (fabric.sends other) place
        rw [queue, List.length_cons] at owes
        simp only [Function.update_self, same]
        omega
      · simpa [here] using owes
  | receive =>
      obtain rfl := Option.some.inj polled
      by_cases here : other = rank
      · subst here
        have recorded := Splits.countP_modify_le (fun work : RecvWork => work.state.completed)
          (fun work => { work with state := work.state.recorded completion }) (fabric.recvs other)
          place
        have same := Splits.countP_modify_same RecvWork.consumed
          (fun work => { work with state := work.state.recorded completion })
          (fun _ => rfl) (fabric.recvs other) place
        rw [queue, List.length_cons] at owes
        simp only [Function.update_self, same]
        omega
      · simpa [here] using owes

theorem Fabric.Owes.device {worldSize other : Nat} {memory memory' : Nat → Memory Value}
    (owes : fabric.Owes other) (step : DeviceStep worldSize fabric memory fabric' memory') :
    fabric'.Owes other := by
  unfold Fabric.Owes at owes ⊢
  cases step with
  | execute sender place target send recv bound isSend unexecuted sendsBefore isRecv unconsumed =>
      have sends : ∀ test : SendWork → Bool,
          (∀ work : SendWork, test { work with
            executed := true, outcome := if send.fits recv then 0 else 11 } = test work) →
          ((fabric.execute sender (next worldSize sender) place target send recv).sends
            other).countP test = (fabric.sends other).countP test := by
        intro test same
        by_cases here : other = sender
        · subst here
          simp only [Fabric.execute, Function.update_self]
          exact Splits.countP_modify_same test _ same _ _
        · simp [Fabric.execute, here]
      rw [sends _ fun _ => rfl, sends _ fun _ => rfl]
      by_cases here : other = next worldSize sender
      · subst here
        have consumed := Splits.countP_modify RecvWork.consumed
          (fun work => { work with consumed := true }) isRecv
        have same := Splits.countP_modify_same (fun work : RecvWork => work.state.completed)
          (fun work => { work with consumed := true }) (fun _ => rfl)
          (fabric.recvs (next worldSize sender)) target
        simp only [unconsumed, Bool.false_eq_true, if_false, if_true] at consumed
        simp only [Fabric.execute, Function.update_self, List.length_append, List.length_singleton,
          same]
        omega
      · simpa [Fabric.execute, here] using owes
  | acknowledge sender place send bound isSend executed unacknowledged =>
      by_cases here : other = sender
      · subst here
        have acknowledged := Splits.countP_modify SendWork.acknowledged
          (fun work => { work with acknowledged := true }) isSend
        have same := Splits.countP_modify_same (fun work : SendWork => work.state.completed)
          (fun work => { work with acknowledged := true }) (fun _ => rfl)
          (fabric.sends other) place
        simp only [unacknowledged, Bool.false_eq_true, if_false, if_true] at acknowledged
        simp only [Fabric.acknowledge, Function.update_self, List.length_append,
          List.length_singleton, same]
        omega
      · simpa [Fabric.acknowledge, here] using owes

theorem owes_of_reachable {world : VerbsWorld Value} (reachable : VerbsReachable room setup world)
    (rank : Nat) : world.net.Owes rank := by
  apply Runs.Reachable.invariant (fun world => world.net.Owes rank) reachable
  · simp [Fabric.Owes, initialWorld, idleFabric]
  · intro before after owes step
    cases step with
    | background done => exact owes.device done
    | rank mover bound taken =>
        cases rankStep_cases taken with
        | enter call idle succeeded next => exact owes
        | busy instr rest fabric memory todo outcome => exact owes.poll (perform_busy outcome).1
        | next instr rest fabric memory vars todo outcome =>
            exact owes.performed (perform_next outcome)
        | stop instr rest fabric memory status todo outcome =>
            obtain ⟨⟨control, rfl⟩, -⟩ := perform_stop outcome
            exact owes

theorem Fabric.Owes.length_le (owes : fabric.Owes rank) : (fabric.cq rank).length ≤
    unpolledSends (fabric.sends rank) + unpolledRecvs (fabric.recvs rank) := by
  have sends := @List.length_eq_countP_add_countP _ (fun work : SendWork => work.state.completed)
    (fabric.sends rank)
  have recvs := @List.length_eq_countP_add_countP _ (fun work : RecvWork => work.state.completed)
    (fabric.recvs rank)
  have acknowledged := List.countP_le_length (p := SendWork.acknowledged) (l := fabric.sends rank)
  have consumed := List.countP_le_length (p := RecvWork.consumed) (l := fabric.recvs rank)
  simp only [Fabric.Owes] at owes
  simp only [unpolledSends, unpolledRecvs]
  simp only [decide_not, Bool.decide_eq_true] at sends recvs
  omega

end Completions

section Open

theorem Kept.unpolled_le {state : RankState Handle} {sends : List SendWork} {recvs : List RecvWork}
    (kept : Kept state sends recvs) : unpolledRecvs recvs ≤ (openRecvs (events state.log)).length ∧
      unpolledSends sends ≤ (openSends (events state.log)).length := by
  have recvLength := kept.slotted.recvLength
  have sendLength := kept.slotted.sendLength
  simp only [handles, List.length_map, List.length_range] at recvLength sendLength
  rw [openRecvs, openSends, List.length_drop, List.length_drop, ← recvLength, ← sendLength]
  constructor
  · exact Splits.countP_le_of_front fun place work found waited => by
      simp [kept.waitedRecvs place work found waited]
  · exact Splits.countP_le_of_front fun place work found waited => by
      simp [kept.waitedSends place work found waited]

theorem events_postable {world : VerbsWorld Value} (reachable : VerbsReachable room setup world)
    (rank : Nat) : ∀ event ∈ events (world.rank rank).log, ∀ post,
      event = .postRecv post ∨ event = .postSend post → ∃ mode, Postable post mode := by
  apply Runs.Reachable.invariant (fun world => ∀ event ∈ events (world.rank rank).log, ∀ post,
    event = .postRecv post ∨ event = .postSend post → ∃ mode, Postable post mode) reachable
  · simp [initialWorld, initialRank]
  · intro before after holds step
    cases step with
    | background done => exact holds
    | rank mover bound taken =>
        by_cases here : rank = mover
        · subst here
          cases rankStep_cases taken with
          | enter call idle succeeded next => simpa [RankState.enter] using holds
          | busy instr rest fabric memory todo outcome => simpa using holds
          | stop instr rest fabric memory status todo outcome =>
              obtain ⟨-, noEvent | rfl⟩ := perform_stop outcome
              · simpa [leave_log _ status noEvent] using holds
              · simpa [RankState.leave] using holds
          | next instr rest fabric memory vars todo outcome =>
              rw [World.put_rank_same, RankState.advance, events_append]
              intro event member post isPost
              rcases List.mem_append.mp member with old | new
              · exact holds event old post isPost
              · cases perform_next outcome with
                | postRecv _ mode postable | postSend _ mode _ _ postable =>
                    obtain rfl : event = _ := by simpa [Instr.event] using new
                    simp only [reduceCtorEq, Event.postRecv.injEq, Event.postSend.injEq, or_false,
                      false_or] at isPost
                    exact ⟨mode, isPost ▸ postable⟩
                | waitRecv _ _ _ | waitSend _ _ _ =>
                    obtain rfl : event = _ := by simpa [Instr.event] using new
                    simp at isPost
                | between _ noEvent => simp [noEvent] at new
        · have kept : after.rank rank = before.rank rank := by
            cases rankStep_cases taken <;> exact World.put_rank_other _ _ _ _ _ here
          rwa [kept]

end Open

section Batches

variable {context : Context} {phase : CollectivePhase} {step elementSize pieceElements index : Nat}
  {flow : Flow}

theorem nodup_of_equal {Item : Type} {items : List Item} (nodup : items.Nodup)
    (equal : ∀ first ∈ items, ∀ second ∈ items, first = second) : items.length ≤ 1 := by
  rcases items with - | ⟨first, - | ⟨second, rest⟩⟩
  · simp
  · simp
  · have same := equal first (by simp) second (by simp)
    simp [same] at nodup

/-- Only the last piece of a block is smaller than the others. -/
theorem last_of_short {post : Post} (positive : 0 < pieceElements)
    (member : post ∈ posted (batchPosts context phase step elementSize pieceElements flow index))
    (short : post.bytes < pieceElements * elementSize) :
    post.pieceIndex + 1 = pieceCountFor flow.blockCount pieceElements := by
  obtain ⟨piece, -, -, bound, made⟩ := mem_batchPosts member
  obtain ⟨tag, -, rfl⟩ := postFor_ok made
  have fewer : min pieceElements (flow.blockCount - piece * pieceElements) < pieceElements :=
    lt_of_mul_lt_mul_right short (Nat.zero_le _)
  have last : ¬ piece + 1 < pieceCountFor flow.blockCount pieceElements := by
    rw [pieceCountFor_eq positive, Tiling.lt_tiles_iff _ positive, Nat.succ_mul]
    omega
  simp only
  omega

theorem posted_few (positive : 0 < pieceElements)
    (shallow : min context.config.maxInflight (pieceCountFor flow.blockCount pieceElements) ≤
        maxWorkRequests ∨
      (∃ code, context.config.transferMode = .other code) ∨ maxUInt32 < pieceElements * elementSize)
    {opens : List Post}
    (within : opens <:+: posted (batchPosts context phase step elementSize pieceElements flow index))
    (nodup : opens.Nodup) (postable : ∀ post ∈ opens, ∃ mode, Postable post mode) :
    (posted (batchPosts context phase step elementSize pieceElements flow index)).length ≤
      maxWorkRequests ∨ opens.length ≤ 1 := by
  rcases shallow with few | ⟨code, other⟩ | large
  · left
    have filtered := List.length_filterMap_le Except.toOption
      (batchPosts context phase step elementSize pieceElements flow index)
    rw [posted]
    simp only [batchPosts, List.length_map, List.length_range'] at filtered ⊢
    omega
  · right
    rcases opens with - | ⟨post, rest⟩
    · simp
    · obtain ⟨mode, -, -, chosen⟩ := postable post (by simp)
      obtain ⟨piece, -, -, -, made⟩ := mem_batchPosts (within.subset (List.mem_cons_self ..))
      obtain ⟨tag, -, rfl⟩ := postFor_ok made
      simp [other, chooseMode] at chosen
  · right
    apply nodup_of_equal nodup
    intro first firstIn second secondIn
    have last : ∀ post ∈ opens,
        post.pieceIndex + 1 = pieceCountFor flow.blockCount pieceElements := by
      intro post member
      obtain ⟨mode, -, small, -⟩ := postable post member
      exact last_of_short positive (within.subset member) (by omega)
    have firstLast := last first firstIn
    have secondLast := last second secondIn
    exact posted_distinct (within.subset firstIn) (within.subset secondIn) (Or.inr (by omega))

end Batches

/-- A call is not refused at its entry, and a rank can post all pieces of a block of it and more of
them in one batch than a queue takes. -/
structure Deep (setup : Setup Value) (rank : Nat) (args : Call Value) (block : Nat) : Prop where
  accepted : args.accepted setup.worldSize rank
  mode : ∀ code, (effectiveConfig (setup.config rank)).transferMode ≠ .other code
  small : setup.pieceElements rank args.datatype * datatypeSize args.datatype ≤ maxUInt32
  many : maxWorkRequests < min (effectiveConfig (setup.config rank)).maxInflight
    (pieceCountFor (blockCount args.count setup.worldSize block)
      (setup.pieceElements rank args.datatype))

/-- No block of the calls a rank has begun is deep. -/
def Shallow (setup : Setup Value) (rank : Nat) (state : RankState Handle) : Prop :=
  ∀ call ≤ state.results.length, ∀ args, setup.calls[call]? = some args →
    ∀ block < setup.worldSize, ¬ Deep setup rank args block

/-- No queue of a rank is overfull, and none has too little room for the next post. -/
structure QueuesFit (setup : Setup Value) (world : VerbsWorld Value) : Prop where
  recvs : ∀ rank < setup.worldSize, unpolledRecvs (world.net.recvs rank) ≤ maxWorkRequests
  sends : ∀ rank < setup.worldSize, unpolledSends (world.net.sends rank) ≤ maxWorkRequests
  completions : ∀ rank < setup.worldSize, (world.net.cq rank).length ≤ completionQueueSize
  postRecv : ∀ rank < setup.worldSize, ∀ post rest, (world.rank rank).todo = .postRecv post :: rest →
    createQp (unpolledRecvs (world.net.recvs rank)) = true
  postSend : ∀ rank < setup.worldSize, ∀ post rest, (world.rank rank).todo = .postSend post :: rest →
    createQp (unpolledSends (world.net.sends rank)) = true

section Shallow

variable {calls : Nat} {batch : Batch Post} {opens : List Post}

theorem not_deep {args : Call Value} {block : Nat} (accepted : args.accepted setup.worldSize rank)
    (shallow : ¬ Deep setup rank args block) :
    min (effectiveConfig (setup.config rank)).maxInflight
        (pieceCountFor (blockCount args.count setup.worldSize block)
          (setup.pieceElements rank args.datatype)) ≤ maxWorkRequests ∨
      (∃ code, (effectiveConfig (setup.config rank)).transferMode = .other code) ∨
      maxUInt32 < setup.pieceElements rank args.datatype * datatypeSize args.datatype := by
  by_contra none
  simp only [not_or, not_le, not_exists, not_lt] at none
  exact shallow ⟨accepted, none.2.1, none.2.2, none.1⟩

/-- A call whose code comes to a post or to a wait is not refused at its entry. -/
theorem accepted_of_code (bound : rank < setup.worldSize) {call : Nat} {done rest : List Instr}
    {instr : Instr} {event : Event Post} (code : setup.code rank call = done ++ instr :: rest)
    (isEvent : instr.event = some event)
    (noError : ∀ status, .ret status ∈ done → status = .success) :
    ∃ args, setup.calls[event.item.call]? = some args ∧ args.accepted setup.worldSize rank := by
  cases found : setup.calls[call]? with
  | none => simp [Setup.code, found] at code
  | some args =>
      have callCodeEq : callCode (setup.context rank (setup.sequenceAt call) call) args =
          done ++ instr :: rest := by simpa only [Setup.code, found] using code
      have proceeds : instr ≠ .load call ∧ ∀ status, instr ≠ .ret status := by
        constructor
        · rintro rfl
          simp [Instr.event] at isEvent
        · rintro status rfl
          simp [Instr.event] at isEvent
      have accepted := accepted_of_performed callCodeEq proceeds noError
      have planned := events_callCode (setup.context rank (setup.sequenceAt call) call) bound accepted
      have member : event ∈ events (callCode (setup.context rank (setup.sequenceAt call) call) args) := by
        rw [callCodeEq, events_append, events_cons, isEvent]
        simp
      rw [planned] at member
      obtain ⟨batch, batchIn, itemIn⟩ := item_of_run member
      obtain ⟨stage, -, inStage⟩ := List.mem_flatMap.mp batchIn
      obtain ⟨index, rfl⟩ := mem_stageBatches inStage
      have isCall : event.item.call = call := (mem_stageBatch_items itemIn).1
      exact ⟨args, by rw [isCall, found], accepted⟩

theorem accepted_of_event {state : RankState Handle} (onSchedule : OnSchedule setup rank state)
    (bound : rank < setup.worldSize) {event : Event Post} (member : event ∈ events state.log) :
    ∃ args, setup.calls[event.item.call]? = some args ∧ args.accepted setup.worldSize rank := by
  obtain ⟨instr, instrIn, isEvent⟩ := List.mem_filterMap.mp member
  obtain ⟨control, noError⟩ := onSchedule
  -- the operation lies in the code of one of the calls, behind operations that were performed
  have inCall : ∃ call done rest, setup.code rank call = done ++ instr :: rest ∧
      ∀ status, .ret status ∈ done → status = .success := by
    have within : ∀ {call : Nat} {done : List Instr}, done <+: setup.code rank call →
        (∀ status, .ret status ∈ done → status = .success) → instr ∈ done →
          ∃ call done rest, setup.code rank call = done ++ instr :: rest ∧
            ∀ status, .ret status ∈ done → status = .success := by
      rintro call done ⟨after, code⟩ returns inDone
      obtain ⟨front, back, rfl⟩ := List.append_of_mem inDone
      refine ⟨call, front, back ++ after, by rw [← code]; simp, fun status isRet => ?_⟩
      exact returns status (List.mem_append_left _ isRet)
    have earlier : ∀ calls, (∀ status, .ret status ∈ setup.codeUpTo rank calls → status = .success) →
        instr ∈ setup.codeUpTo rank calls →
          ∃ call done rest, setup.code rank call = done ++ instr :: rest ∧
            ∀ status, .ret status ∈ done → status = .success := by
      intro calls returns inCalls
      obtain ⟨call, callIn, inCode⟩ := List.mem_flatMap.mp inCalls
      exact within List.prefix_rfl
        (fun status isRet => returns status (List.mem_flatMap.mpr ⟨call, callIn, isRet⟩)) inCode
    cases control with
    | between calls callsBound todo results sequence log =>
        rw [log] at noError instrIn
        exact earlier calls noError instrIn
    | inside call args found done code busy results sequence log
    | failed call args found done _ _ code todo status error results log =>
        rw [log] at noError instrIn
        rcases List.mem_append.mp instrIn with old | new
        · exact earlier call (fun status isRet => noError status (List.mem_append_left _ isRet)) old
        · exact within ⟨_, code.symm⟩
            (fun status isRet => noError status (List.mem_append_right _ isRet)) new
  obtain ⟨call, done, rest, code, returns⟩ := inCall
  exact accepted_of_code bound code isEvent returns

theorem batch_few (begun : ∀ call < calls, ∀ args, setup.calls[call]? = some args →
      ∀ block < setup.worldSize, ¬ Deep setup rank args block)
    (member : batch ∈ setup.planUpTo rank calls) (nodup : opens.Nodup)
    (known : ∀ post ∈ opens, (∃ mode, Postable post mode) ∧
      ∃ args, setup.calls[post.call]? = some args ∧ args.accepted setup.worldSize rank) :
    (opens <:+: batch.recvs → batch.recvs.length ≤ maxWorkRequests ∨ opens.length ≤ 1) ∧
      (opens <:+: batch.sends → batch.sends.length ≤ maxWorkRequests ∨ opens.length ≤ 1) := by
  by_cases empty : opens = []
  · simp [empty]
  obtain ⟨first, firstIn⟩ := List.exists_mem_of_ne_nil opens empty
  obtain ⟨call, inside, args, stage, index, found, typed, -, rfl⟩ := setup.mem_planUpTo member
  have positive := pieceElementsFor_pos (effectiveConfig (setup.config rank))
    (datatypeSize args.datatype)
  have postable : ∀ post ∈ opens, ∃ mode, Postable post mode := fun post inOpens =>
    (known post inOpens).1
  have shallow : first ∈ (stageBatch (setup.context rank (setup.sequenceAt call) call) args.count
      args.datatype stage index).items → ∀ stage, min (effectiveConfig (setup.config rank)).maxInflight
        (pieceCountFor (blockCount args.count setup.worldSize (blockAt setup.worldSize rank stage))
          (setup.pieceElements rank args.datatype)) ≤ maxWorkRequests ∨
        (∃ code, (effectiveConfig (setup.config rank)).transferMode = .other code) ∨
        maxUInt32 < setup.pieceElements rank args.datatype * datatypeSize args.datatype := by
    intro inBatch stage
    obtain ⟨args', found', accepted⟩ := (known first firstIn).2
    rw [(mem_stageBatch_items inBatch).1] at found'
    obtain rfl := Option.some.inj (found'.symm.trans found)
    exact not_deep accepted (begun call inside args' found _ (blockAt_lt setup.positive rank stage))
  constructor
  · intro within
    refine posted_few positive ?_ within nodup postable
    rw [receivedFlow_blockCount]
    exact shallow (List.mem_append_left _ (within.subset firstIn)) (stage + 1)
  · intro within
    exact posted_few positive (shallow (List.mem_append_right _ (within.subset firstIn)) stage) within
      nodup postable

variable {world : VerbsWorld Value} {post : Post} {rest : List Instr}

theorem open_known (reachable : VerbsReachable room setup world) (bound : rank < setup.worldSize)
    {post : Post} (member : post ∈ openRecvs (events (world.rank rank).log) ∨
      post ∈ openSends (events (world.rank rank).log)) :
    (∃ mode, Postable post mode) ∧
      ∃ args, setup.calls[post.call]? = some args ∧ args.accepted setup.worldSize rank := by
  obtain ⟨event, eventIn, isPost⟩ : ∃ event ∈ events (world.rank rank).log,
      event = .postRecv post ∨ event = .postSend post := by
    rcases member with recv | send
    · obtain ⟨event, eventIn, isPost⟩ := List.mem_filterMap.mp (List.mem_of_mem_drop recv)
      cases event <;> simp only [Event.postedRecv, reduceCtorEq, Option.some.injEq] at isPost
      exact ⟨_, eventIn, Or.inl (by rw [isPost])⟩
    · obtain ⟨event, eventIn, isPost⟩ := List.mem_filterMap.mp (List.mem_of_mem_drop send)
      cases event <;> simp only [Event.postedSend, reduceCtorEq, Option.some.injEq] at isPost
      exact ⟨_, eventIn, Or.inr (by rw [isPost])⟩
  have accepted := accepted_of_event (onSchedule_of_reachable reachable rank) bound eventIn
  refine ⟨events_postable reachable rank event eventIn post isPost, ?_⟩
  rcases isPost with rfl | rfl <;> exact accepted

theorem open_lt_postRecv (reachable : VerbsReachable room setup world)
    (bound : rank < setup.worldSize) (shallow : Shallow setup rank (world.rank rank))
    (todo : (world.rank rank).todo = .postRecv post :: rest) :
    (openRecvs (events (world.rank rank).log)).length < maxWorkRequests := by
  have onSchedule := onSchedule_of_reachable reachable rank
  have ahead := onSchedule.next_begun bound todo rfl
  have snoc := openRecvs_snoc_postRecv (onSchedule.events_log bound) post
  rcases open_within ahead with ⟨none, -⟩ | ⟨batch, member, recvs, -⟩
  · simp [snoc] at none
  · rw [snoc] at recvs
    have within := (List.prefix_append _ [post]).isInfix.trans recvs
    have length := recvs.length_le
    rw [List.length_append, List.length_singleton] at length
    rcases (batch_few (fun call inside => shallow call (by omega)) member
      (open_nodup (onSchedule.events_log bound)).1
      fun post member => open_known reachable bound (Or.inl member)).1 within with
      few | single
    · omega
    · exact lt_of_le_of_lt single (by decide)

theorem open_lt_postSend (reachable : VerbsReachable room setup world)
    (bound : rank < setup.worldSize) (shallow : Shallow setup rank (world.rank rank))
    (todo : (world.rank rank).todo = .postSend post :: rest) :
    (openSends (events (world.rank rank).log)).length < maxWorkRequests := by
  have onSchedule := onSchedule_of_reachable reachable rank
  have ahead := onSchedule.next_begun bound todo rfl
  have snoc : openSends (events (world.rank rank).log ++ [.postSend post]) =
      openSends (events (world.rank rank).log) ++ [post] :=
    openSends_snoc_postSend (sendWaits_isPrefix (onSchedule.events_log bound)).length_le
  rcases open_within ahead with ⟨-, none⟩ | ⟨batch, member, -, sends⟩
  · simp [snoc] at none
  · rw [snoc] at sends
    have within := (List.prefix_append _ [post]).isInfix.trans sends
    have length := sends.length_le
    rw [List.length_append, List.length_singleton] at length
    rcases (batch_few (fun call inside => shallow call (by omega)) member
      (open_nodup (onSchedule.events_log bound)).2
      fun post member => open_known reachable bound (Or.inr member)).2 within with
      few | single
    · omega
    · exact lt_of_le_of_lt single (by decide)

end Shallow

end RingAllReduce.VerbsRing
