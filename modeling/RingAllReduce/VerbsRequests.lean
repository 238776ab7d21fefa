import RingAllReduce.Slots
import RingAllReduce.VerbsFabric

/-!
What an operation of a rank does to the fabric, and which work requests a rank has. A wait of the
collectives names the oldest request that is still open, whatever becomes of the others.
-/

namespace RingAllReduce.VerbsRing

open Exchange Rotation VerbsTransport

variable {Value : Type} {setup : Setup Value} {rank : Nat} {room : Nat → Bool}

section Perform

variable {fabric fabric' : Fabric} {memory memory' : Memory Value} {vars vars' : Variables Handle}
  {instr : Instr}

theorem waitRequest_busy {handle : Handle}
    (busy : waitRequest rank handle fabric memory = .busy (fabric', memory')) :
    fabric.poll rank = some fabric' ∧ memory' = memory := by
  unfold waitRequest at busy
  split at busy
  · simp at busy
  · split at busy
    · simp at busy
    · split at busy
      · simp at busy
      · rename_i after polled
        simp only [Outcome.busy.injEq, Prod.mk.injEq] at busy
        exact ⟨busy.1 ▸ polled, busy.2.symm⟩

theorem waitRequest_done {handle : Handle} {ok : Bool}
    (done : waitRequest rank handle fabric memory = .done (fabric', memory') ok) :
    fabric' = fabric ∧ memory' = memory ∧
      (ok = true → ∃ request, fabric.stateOf rank handle = some request ∧
        request.completed = true) := by
  unfold waitRequest at done
  split at done
  · simp only [Outcome.done.injEq, Prod.mk.injEq] at done
    exact ⟨done.1.1.symm, done.1.2.symm, by simp [← done.2]⟩
  · rename_i request found
    split at done
    · rename_i completed
      simp only [Outcome.done.injEq, Prod.mk.injEq] at done
      exact ⟨done.1.1.symm, done.1.2.symm, fun _ => ⟨request, found, completed⟩⟩
    · split at done <;> simp at done

theorem perform_busy
    (outcome : perform setup (verbsTransport Value room setup.worldSize) rank vars fabric memory
      instr = .busy (fabric', memory')) : fabric.poll rank = some fabric' ∧ memory' = memory := by
  cases instr with
  | postRecv post =>
      have busy := Outcome.map_eq_busy outcome
      simp only [verbsTransport, postReceivePrevious] at busy
      repeat' split at busy
      all_goals simp at busy
  | postSend post =>
      have busy := Outcome.map_eq_busy outcome
      simp only [verbsTransport, postSendNext] at busy
      repeat' split at busy
      all_goals simp at busy
  | waitRecv post | waitSend post =>
      simp only [perform] at outcome
      split at outcome
      · simp at outcome
      · exact waitRequest_busy (Outcome.map_eq_busy outcome)
  | _ => exact absurd outcome (perform_local_busy rfl).1

theorem perform_stop {status : Status}
    (outcome : perform setup (verbsTransport Value room setup.worldSize) rank vars fabric memory
      instr = .done (fabric', memory') (.stop status)) :
    (∃ control, fabric' = { fabric with control := control }) ∧
      (instr.event = none ∨ status = .transport) := by
  cases instr with
  | postRecv post =>
      obtain ⟨answer, posted, answered⟩ := Outcome.map_eq_done outcome
      obtain ⟨-, ⟨rfl, rfl⟩ | ⟨mode, -, -, rfl, -⟩⟩ := postReceivePrevious_done posted
      · exact ⟨⟨_, rfl⟩, Or.inr (Verdict.stop.inj answered).symm⟩
      · simp at answered
  | postSend post =>
      obtain ⟨answer, posted, answered⟩ := Outcome.map_eq_done outcome
      obtain ⟨-, ⟨rfl, control, rfl⟩ | ⟨mode, head, unread, -, -, -, -, rfl, -⟩⟩ :=
        postSendNext_done posted
      · exact ⟨⟨control, rfl⟩, Or.inr (Verdict.stop.inj answered).symm⟩
      · simp at answered
  | waitRecv post | waitSend post =>
      simp only [perform] at outcome
      split at outcome
      · simp only [Outcome.done.injEq, Prod.mk.injEq, Verdict.stop.injEq] at outcome
        exact ⟨⟨_, outcome.1.1.symm⟩, Or.inr outcome.2.symm⟩
      · obtain ⟨ok, waited, answered⟩ := Outcome.map_eq_done outcome
        obtain ⟨rfl, -, -⟩ := waitRequest_done waited
        cases ok with
        | true => simp at answered
        | false => exact ⟨⟨_, rfl⟩, Or.inr (by simpa using answered.symm)⟩
  | _ => exact ⟨⟨_, (perform_local_stop rfl outcome).1⟩, Or.inl rfl⟩

inductive Performed (setup : Setup Value) (room : Nat → Bool) (rank : Nat)
    (vars : Variables Handle) (fabric : Fabric) : Instr → Fabric → Variables Handle → Prop
  | postRecv (post : Post) (mode : TransferMode) (postable : Postable post mode)
      (hasRoom : room (unpolledRecvs (fabric.recvs rank)) = true) :
      Performed setup room rank vars fabric (.postRecv post)
        (fabric.addRecv rank (fabric.receiveWork rank post mode))
        (vars.assign (.recv post.pieceIndex) (some (.receive, (fabric.recvs rank).length)))
  | postSend (post : Post) (mode : TransferMode) (control : Descriptor) (unread : List Descriptor)
      (postable : Postable post mode)
      (available : fabric.control (next setup.worldSize rank) = control :: unread)
      (matched : ¬ Mismatch control post mode)
      (hasRoom : room (unpolledSends (fabric.sends rank)) = true) :
      Performed setup room rank vars fabric (.postSend post)
        ((fabric.read (next setup.worldSize rank) unread).addSend rank
          ((fabric.read (next setup.worldSize rank) unread).sendWork rank post mode control))
        (vars.assign (.send post.pieceIndex) (some (.send, (fabric.sends rank).length)))
  | waitRecv (post : Post) (handle : Handle) (request : VerbsTransport.RequestState)
      (slot : vars.requests (.recv post.pieceIndex) = some handle)
      (found : fabric.stateOf rank handle = some request) (completed : request.completed = true) :
      Performed setup room rank vars fabric (.waitRecv post) fabric
        (vars.assign (.recv post.pieceIndex) none)
  | waitSend (post : Post) (handle : Handle) (request : VerbsTransport.RequestState)
      (slot : vars.requests (.send post.pieceIndex) = some handle)
      (found : fabric.stateOf rank handle = some request) (completed : request.completed = true) :
      Performed setup room rank vars fabric (.waitSend post) fabric
        (vars.assign (.send post.pieceIndex) none)
  | between (instr : Instr) (noEvent : instr.event = none) (vars' : Variables Handle)
      (requests : vars'.requests = vars.requests) :
      Performed setup room rank vars fabric instr fabric vars'

theorem perform_next
    (outcome : perform setup (verbsTransport Value room setup.worldSize) rank vars fabric memory
      instr = .done (fabric', memory') (.next vars')) :
    Performed setup room rank vars fabric instr fabric' vars' := by
  cases instr with
  | postRecv post =>
      obtain ⟨answer, posted, answered⟩ := Outcome.map_eq_done outcome
      obtain ⟨-, ⟨rfl, -⟩ | ⟨mode, postable, hasRoom, rfl, rfl⟩⟩ := postReceivePrevious_done posted
      · simp at answered
      · obtain rfl := Verdict.next.inj answered
        exact .postRecv post mode postable hasRoom
  | postSend post =>
      obtain ⟨answer, posted, answered⟩ := Outcome.map_eq_done outcome
      obtain ⟨-, ⟨rfl, -⟩ | ⟨mode, control, unread, postable, available, matched, hasRoom, rfl,
        rfl⟩⟩ := postSendNext_done posted
      · simp at answered
      · obtain rfl := Verdict.next.inj answered
        exact .postSend post mode control unread postable available matched hasRoom
  | waitRecv post =>
      simp only [perform] at outcome
      split at outcome
      · simp at outcome
      · rename_i handle slot
        obtain ⟨ok, waited, answered⟩ := Outcome.map_eq_done outcome
        obtain ⟨rfl, -, found⟩ := waitRequest_done waited
        cases ok with
        | false => simp at answered
        | true =>
            obtain rfl := Verdict.next.inj answered
            obtain ⟨request, isRequest, completed⟩ := found rfl
            exact .waitRecv post handle request slot isRequest completed
  | waitSend post =>
      simp only [perform] at outcome
      split at outcome
      · simp at outcome
      · rename_i handle slot
        obtain ⟨ok, waited, answered⟩ := Outcome.map_eq_done outcome
        obtain ⟨rfl, -, found⟩ := waitRequest_done waited
        cases ok with
        | false => simp at answered
        | true =>
            obtain rfl := Verdict.next.inj answered
            obtain ⟨request, isRequest, completed⟩ := found rfl
            exact .waitSend post handle request slot isRequest completed
  | _ =>
      obtain ⟨rfl, requests, -⟩ := perform_local_next rfl outcome
      exact .between _ rfl _ requests

end Perform

def handles (kind : RequestKind) (count : Nat) : List Handle :=
  (List.range count).map fun place => (kind, place)

theorem handles_succ (kind : RequestKind) (count : Nat) :
    handles kind (count + 1) = handles kind count ++ [(kind, count)] := by
  simp [handles, List.range_succ]

structure Kept (state : RankState Handle) (sends : List SendWork) (recvs : List RecvWork) : Prop where
  slotted : Slotted state (handles .receive recvs.length) (handles .send sends.length)
  sendWorks : sends.map SendWork.post = sendPosts (events state.log)
  recvWorks : recvs.map RecvWork.post = recvPosts (events state.log)
  waitedSends : ∀ (place : Nat) work, sends[place]? = some work →
    place < (sendWaits (events state.log)).length → work.state.completed = true
  waitedRecvs : ∀ (place : Nat) work, recvs[place]? = some work →
    place < (recvWaits (events state.log)).length → work.state.completed = true

/-- A work request goes on: it keeps its post, and stays complete once it is. -/
def SendWork.GoesOn (before after : SendWork) : Prop :=
  after.post = before.post ∧ (before.state.completed = true → after.state.completed = true)

def RecvWork.GoesOn (before after : RecvWork) : Prop :=
  after.post = before.post ∧ (before.state.completed = true → after.state.completed = true)

section Kept

variable {state : RankState Handle} {sends sends' : List SendWork} {recvs recvs' : List RecvWork}
  {post : Post} {rest : List Instr}

theorem Kept.quiet (kept : Kept state sends recvs) {state' : RankState Handle}
    (eventsEq : events state'.log = events state.log)
    (requests : state'.vars.requests = state.vars.requests) : Kept state' sends recvs := by
  refine ⟨kept.slotted.quiet eventsEq requests, ?_, ?_, ?_, ?_⟩ <;> rw [eventsEq]
  · exact kept.sendWorks
  · exact kept.recvWorks
  · exact kept.waitedSends
  · exact kept.waitedRecvs

theorem Kept.modifySend (kept : Kept state sends recvs) (place : Nat) {change : SendWork → SendWork}
    (goesOn : ∀ work, SendWork.GoesOn work (change work)) : Kept state (sends.modify place change) recvs := by
  refine ⟨by simpa using kept.slotted, ?_, kept.recvWorks, ?_, kept.waitedRecvs⟩
  · rw [Splits.map_modify_same SendWork.post (fun work => (goesOn work).1), kept.sendWorks]
  · intro index work found waited
    obtain ⟨old, isOld, rfl⟩ := Splits.getElem?_modify_some found
    have completed := kept.waitedSends index old isOld waited
    split
    · exact (goesOn old).2 completed
    · exact completed

theorem Kept.modifyRecv (kept : Kept state sends recvs) (place : Nat) {change : RecvWork → RecvWork}
    (goesOn : ∀ work, RecvWork.GoesOn work (change work)) : Kept state sends (recvs.modify place change) := by
  refine ⟨by simpa using kept.slotted, kept.sendWorks, ?_, kept.waitedSends, ?_⟩
  · rw [Splits.map_modify_same RecvWork.post (fun work => (goesOn work).1), kept.recvWorks]
  · intro index work found waited
    obtain ⟨old, isOld, rfl⟩ := Splits.getElem?_modify_some found
    have completed := kept.waitedRecvs index old isOld waited
    split
    · exact (goesOn old).2 completed
    · exact completed

variable (kept : Kept state sends recvs) (onSchedule : OnSchedule setup rank state)
  (bound : rank < setup.worldSize)

include kept onSchedule bound

theorem Kept.waits_le : (recvWaits (events state.log)).length ≤ recvs.length ∧
    (sendWaits (events state.log)).length ≤ sends.length := by
  have recvLe := (recvWaits_isPrefix (onSchedule.events_log bound)).length_le
  have sendLe := (sendWaits_isPrefix (onSchedule.events_log bound)).length_le
  rw [← kept.recvWorks, List.length_map] at recvLe
  rw [← kept.sendWorks, List.length_map] at sendLe
  exact ⟨recvLe, sendLe⟩

theorem Kept.postRecv (todo : state.todo = .postRecv post :: rest) {work : RecvWork}
    (isWork : work.post = post) :
    Kept (state.advance (state.vars.assign (.recv post.pieceIndex) (some (.receive, recvs.length)))
      (.postRecv post) rest) sends (recvs ++ [work]) := by
  obtain ⟨recvPostsEq, sendPostsEq, recvWaitsEq, sendWaitsEq⟩ :=
    snoc_postRecv (events state.log) post
  have le := (kept.waits_le onSchedule bound).1
  constructor
  · rw [List.length_append, List.length_singleton, handles_succ]
    exact kept.slotted.postRecv onSchedule bound todo _
  · rw [advance_events _ rfl, sendPostsEq, kept.sendWorks]
  · rw [advance_events _ rfl, recvPostsEq, List.map_append, kept.recvWorks, List.map_singleton,
      isWork]
  · rw [advance_events _ rfl, sendWaitsEq]
    exact kept.waitedSends
  · rw [advance_events _ rfl, recvWaitsEq]
    intro place found isFound waited
    rw [List.getElem?_append_left (by omega)] at isFound
    exact kept.waitedRecvs place found isFound waited

theorem Kept.postSend (todo : state.todo = .postSend post :: rest) {work : SendWork}
    (isWork : work.post = post) :
    Kept (state.advance (state.vars.assign (.send post.pieceIndex) (some (.send, sends.length)))
      (.postSend post) rest) (sends ++ [work]) recvs := by
  obtain ⟨recvPostsEq, sendPostsEq, recvWaitsEq, sendWaitsEq⟩ :=
    snoc_postSend (events state.log) post
  have le := (kept.waits_le onSchedule bound).2
  constructor
  · rw [List.length_append, List.length_singleton, handles_succ]
    exact kept.slotted.postSend onSchedule bound todo _
  · rw [advance_events _ rfl, sendPostsEq, List.map_append, kept.sendWorks, List.map_singleton,
      isWork]
  · rw [advance_events _ rfl, recvPostsEq, kept.recvWorks]
  · rw [advance_events _ rfl, sendWaitsEq]
    intro place found isFound waited
    rw [List.getElem?_append_left (by omega)] at isFound
    exact kept.waitedSends place found isFound waited
  · rw [advance_events _ rfl, recvWaitsEq]
    exact kept.waitedRecvs

/-- The request a rank waits for is the oldest it has not waited for. -/
theorem Kept.waitRecv_handle (todo : state.todo = .waitRecv post :: rest) :
    (recvWaits (events state.log)).length < recvs.length ∧
      state.vars.requests (.recv post.pieceIndex) =
        some (.receive, (recvWaits (events state.log)).length) := by
  obtain ⟨handle, found, slot⟩ := kept.slotted.waitRecv_request onSchedule bound todo
  obtain ⟨inside, rfl⟩ := List.getElem?_eq_some_iff.mp found
  exact ⟨by simpa [handles] using inside, by simpa [handles] using slot⟩

theorem Kept.waitSend_handle (todo : state.todo = .waitSend post :: rest) :
    (sendWaits (events state.log)).length < sends.length ∧
      state.vars.requests (.send post.pieceIndex) =
        some (.send, (sendWaits (events state.log)).length) := by
  obtain ⟨handle, found, slot⟩ := kept.slotted.waitSend_request onSchedule bound todo
  obtain ⟨inside, rfl⟩ := List.getElem?_eq_some_iff.mp found
  exact ⟨by simpa [handles] using inside, by simpa [handles] using slot⟩

theorem Kept.waitRecv (todo : state.todo = .waitRecv post :: rest) {work : RecvWork}
    (oldest : recvs[(recvWaits (events state.log)).length]? = some work)
    (completed : work.state.completed = true) :
    Kept (state.advance (state.vars.assign (.recv post.pieceIndex) none) (.waitRecv post) rest) sends
      recvs := by
  obtain ⟨recvPostsEq, sendPostsEq, recvWaitsEq, sendWaitsEq⟩ :=
    snoc_waitRecv (events state.log) post
  refine ⟨kept.slotted.waitRecv onSchedule bound todo, ?_, ?_, ?_, ?_⟩
  · rw [advance_events _ rfl, sendPostsEq, kept.sendWorks]
  · rw [advance_events _ rfl, recvPostsEq, kept.recvWorks]
  · rw [advance_events _ rfl, sendWaitsEq]
    exact kept.waitedSends
  · rw [advance_events _ rfl, recvWaitsEq, List.length_append, List.length_singleton]
    intro place found isFound waited
    by_cases earlier : place < (recvWaits (events state.log)).length
    · exact kept.waitedRecvs place found isFound earlier
    · obtain rfl : place = (recvWaits (events state.log)).length := by omega
      obtain rfl := Option.some.inj (oldest.symm.trans isFound)
      exact completed

theorem Kept.waitSend (todo : state.todo = .waitSend post :: rest) {work : SendWork}
    (oldest : sends[(sendWaits (events state.log)).length]? = some work)
    (completed : work.state.completed = true) :
    Kept (state.advance (state.vars.assign (.send post.pieceIndex) none) (.waitSend post) rest) sends
      recvs := by
  obtain ⟨recvPostsEq, sendPostsEq, recvWaitsEq, sendWaitsEq⟩ :=
    snoc_waitSend (events state.log) post
  refine ⟨kept.slotted.waitSend onSchedule bound todo, ?_, ?_, ?_, ?_⟩
  · rw [advance_events _ rfl, sendPostsEq, kept.sendWorks]
  · rw [advance_events _ rfl, recvPostsEq, kept.recvWorks]
  · rw [advance_events _ rfl, sendWaitsEq, List.length_append, List.length_singleton]
    intro place found isFound waited
    by_cases earlier : place < (sendWaits (events state.log)).length
    · exact kept.waitedSends place found isFound earlier
    · obtain rfl : place = (sendWaits (events state.log)).length := by omega
      obtain rfl := Option.some.inj (oldest.symm.trans isFound)
      exact completed
  · rw [advance_events _ rfl, recvWaitsEq]
    exact kept.waitedRecvs

end Kept

section Fabric

variable {fabric fabric' : Fabric} {state : RankState Handle} {worldSize other : Nat}

theorem Kept.poll (kept : Kept state (fabric.sends rank) (fabric.recvs rank))
    (polled : fabric.poll rank = some fabric') :
    Kept state (fabric'.sends rank) (fabric'.recvs rank) := by
  unfold Fabric.poll at polled
  split at polled
  · simp at polled
  rename_i handle completion queue isQueue
  obtain ⟨kind, place⟩ := handle
  cases kind with
  | send =>
      obtain rfl := Option.some.inj polled
      simp only [Function.update_self]
      exact kept.modifySend place (by exact fun _ => ⟨rfl, fun _ => rfl⟩)
  | receive =>
      obtain rfl := Option.some.inj polled
      simp only [Function.update_self]
      exact kept.modifyRecv place (by exact fun _ => ⟨rfl, fun _ => rfl⟩)

theorem poll_others (polled : fabric.poll rank = some fabric') (different : other ≠ rank) :
    fabric'.sends other = fabric.sends other ∧ fabric'.recvs other = fabric.recvs other := by
  unfold Fabric.poll at polled
  split at polled
  · simp at polled
  rename_i handle completion queue isQueue
  obtain ⟨kind, place⟩ := handle
  cases kind with
  | send | receive =>
      obtain rfl := Option.some.inj polled
      simp [different]

theorem Kept.device (kept : Kept state (fabric.sends other) (fabric.recvs other))
    {memory memory' : Nat → Memory Value} (step : DeviceStep worldSize fabric memory fabric' memory') :
    Kept state (fabric'.sends other) (fabric'.recvs other) := by
  cases step with
  | execute sender place target send recv =>
      have sent : Kept state ((fabric.execute sender (next worldSize sender) place target send
          recv).sends other) (fabric.recvs other) := by
        by_cases here : other = sender
        · subst here
          simp only [Fabric.execute, Function.update_self]
          exact kept.modifySend place (by exact fun _ => ⟨rfl, fun completed => completed⟩)
        · simpa [Fabric.execute, here] using kept
      by_cases here : other = next worldSize sender
      · subst here
        simp only [Fabric.execute, Function.update_self] at sent ⊢
        exact sent.modifyRecv target (by exact fun _ => ⟨rfl, fun completed => completed⟩)
      · simpa [Fabric.execute, here] using sent
  | acknowledge sender place send =>
      by_cases here : other = sender
      · subst here
        simp only [Fabric.acknowledge, Function.update_self]
        exact kept.modifySend place (by exact fun _ => ⟨rfl, fun completed => completed⟩)
      · simpa [Fabric.acknowledge, here] using kept

end Fabric

section Run

variable {world after : VerbsWorld Value}

theorem Performed.others {vars vars' : Variables Handle} {fabric fabric' : Fabric} {instr : Instr}
    (performed : Performed setup room rank vars fabric instr fabric' vars') {other : Nat}
    (different : other ≠ rank) :
    fabric'.sends other = fabric.sends other ∧ fabric'.recvs other = fabric.recvs other := by
  cases performed with
  | postRecv post mode => simp [Fabric.addRecv, different]
  | postSend post mode control unread => simp [Fabric.addSend, Fabric.read, different]
  | waitRecv | waitSend | between => exact ⟨rfl, rfl⟩

theorem Kept.performed {state : RankState Handle} {fabric fabric' : Fabric} {vars' : Variables Handle}
    {instr : Instr} {rest : List Instr} (kept : Kept state (fabric.sends rank) (fabric.recvs rank))
    (onSchedule : OnSchedule setup rank state) (bound : rank < setup.worldSize)
    (todo : state.todo = instr :: rest)
    (performed : Performed setup room rank state.vars fabric instr fabric' vars') :
    Kept (state.advance vars' instr rest) (fabric'.sends rank) (fabric'.recvs rank) := by
  cases performed with
  | postRecv post mode postable hasRoom =>
      simpa [Fabric.addRecv] using kept.postRecv onSchedule bound todo rfl
  | postSend post mode control unread postable available matched hasRoom =>
      simpa [Fabric.addSend, Fabric.read] using kept.postSend onSchedule bound todo rfl
  | waitRecv post handle request slot found completed =>
      obtain ⟨inside, oldest⟩ := kept.waitRecv_handle onSchedule bound todo
      obtain rfl := Option.some.inj (slot.symm.trans oldest)
      obtain ⟨work, isWork, rfl⟩ := Option.map_eq_some_iff.mp found
      exact kept.waitRecv onSchedule bound todo isWork completed
  | waitSend post handle request slot found completed =>
      obtain ⟨inside, oldest⟩ := kept.waitSend_handle onSchedule bound todo
      obtain rfl := Option.some.inj (slot.symm.trans oldest)
      obtain ⟨work, isWork, rfl⟩ := Option.map_eq_some_iff.mp found
      exact kept.waitSend onSchedule bound todo isWork completed
  | between _ noEvent _ requests =>
      exact kept.quiet (by simp [RankState.advance, noEvent]) requests

def AllKept (setup : Setup Value) (world : VerbsWorld Value) : Prop :=
  ∀ rank < setup.worldSize, Kept (world.rank rank) (world.net.sends rank) (world.net.recvs rank)

theorem AllKept.put (kept : AllKept setup world) {state : RankState Handle} {fabric : Fabric}
    {memory : Memory Value} (mine : Kept state (fabric.sends rank) (fabric.recvs rank))
    (others : ∀ other, other ≠ rank → fabric.sends other = world.net.sends other ∧
      fabric.recvs other = world.net.recvs other) :
    AllKept setup (world.put rank state fabric memory) := by
  intro other bound
  by_cases here : other = rank
  · subst here
    simpa using mine
  · obtain ⟨sends, recvs⟩ := others other here
    rw [World.put_rank_other _ _ _ _ _ here, World.put_net, sends, recvs]
    exact kept other bound

theorem AllKept.rank_step (kept : AllKept setup world)
    (onSchedule : OnSchedule setup rank (world.rank rank)) (bound : rank < setup.worldSize)
    (taken : RankStep setup (verbsTransport Value room setup.worldSize) rank world after) :
    AllKept setup after := by
  cases taken with
  | enter call idle succeeded next =>
      exact kept.put ((kept rank bound).quiet rfl rfl) fun _ _ => ⟨rfl, rfl⟩
  | busy instr rest fabric memory todo outcome =>
      obtain ⟨polled, -⟩ := perform_busy outcome
      exact kept.put ((kept rank bound).poll polled) fun _ different => poll_others polled different
  | next instr rest fabric memory vars todo outcome =>
      have performed := perform_next outcome
      exact kept.put ((kept rank bound).performed onSchedule bound todo performed)
        fun _ different => performed.others different
  | stop instr rest fabric memory status todo outcome =>
      obtain ⟨⟨control, rfl⟩, cause⟩ := perform_stop outcome
      refine kept.put ((kept rank bound).quiet ?_ rfl) fun _ _ => ⟨rfl, rfl⟩
      rcases cause with noEvent | rfl
      · exact leave_log _ status noEvent
      · rfl

theorem allKept_of_reachable (reachable : VerbsReachable room setup world) : AllKept setup world := by
  apply Runs.Reachable.strengthen (AllKept setup) reachable
  · intro rank bound
    refine ⟨⟨rfl, rfl, ?_, ?_⟩, rfl, rfl, ?_, ?_⟩
    all_goals simp [initialWorld, initialRank, idleFabric]
  · intro before after earlier kept step
    cases step with
    | rank rank bound taken =>
        exact kept.rank_step (onSchedule_of_reachable earlier rank) bound (rankStep_cases taken)
    | background done => exact fun rank bound => (kept rank bound).device done

end Run

end RingAllReduce.VerbsRing
