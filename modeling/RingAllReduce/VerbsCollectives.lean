import RingAllReduce.VerbsRequests

/-!
The collectives over a ring of `VerbsTransport`s. What a rank sends next is the piece its successor
has announced, so no descriptor is refused; then no post and no wait fails.
-/

namespace RingAllReduce.VerbsRing

open Exchange Rotation VerbsTransport

variable {Value : Type} {setup : Setup Value} {rank : Nat}

/-- All ranks have the same transfer mode, one of the enumeration, cut blocks into pieces of the
same size, and no piece is too large for a descriptor. -/
structure Uniform (setup : Setup Value) : Prop where
  samePieces : setup.SamePieces
  mode : ∃ mode, (∀ bytes, ∃ chosen, chooseMode mode bytes = .ok chosen) ∧
    ∀ rank < setup.worldSize, (effectiveConfig (setup.config rank)).transferMode = mode
  small : ∀ rank < setup.worldSize, ∀ piece ∈ setup.sent rank, piece.bytes ≤ maxUInt32

section Plan

theorem flowPost_sized {context : Context} {phase : CollectivePhase}
    {step elementSize pieceElements : Nat} {flow : Flow} {post : Post}
    (positive : 0 < pieceElements) (sized : 0 < elementSize)
    (member : post ∈ flowPosts context phase step elementSize pieceElements flow) :
    post.mode = context.config.transferMode ∧ 0 < post.bytes := by
  obtain ⟨piece, bound, made⟩ := mem_flowPosts.mp member
  rw [pieceCountFor_eq positive, Tiling.lt_tiles_iff _ positive] at bound
  obtain ⟨tag, -, rfl⟩ := postFor_ok made
  exact ⟨rfl, Nat.mul_pos (by omega) sized⟩

theorem plan_sized {batch : Batch Post} (member : batch ∈ setup.plan rank) {post : Post}
    (postIn : post ∈ batch.items) :
    post.mode = (effectiveConfig (setup.config rank)).transferMode ∧ 0 < post.bytes := by
  obtain ⟨call, args, stage, index, -, typed, -, rfl⟩ := setup.mem_plan member
  have sized : 0 < datatypeSize args.datatype := by
    have known : datatypeSize args.datatype ≠ 0 := by simp [datatypeSize_eq_zero, typed]
    omega
  obtain ⟨recvs, sends⟩ := stageBatch_subset (setup.context rank (setup.sequenceAt call) call)
    args.count args.datatype stage index
  rcases List.mem_append.mp postIn with recv | send
  · exact flowPost_sized (pieceElementsFor_pos _ _) sized (recvs recv)
  · exact flowPost_sized (pieceElementsFor_pos _ _) sized (sends send)

theorem Uniform.postable (uniform : Uniform setup) (bound : rank < setup.worldSize)
    {batch : Batch Post} (member : batch ∈ setup.plan rank) {post : Post}
    (postIn : post ∈ batch.items) (small : post.bytes ≤ maxUInt32) :
    ∃ mode, Postable post mode := by
  obtain ⟨isMode, positive⟩ := plan_sized member postIn
  obtain ⟨requested, valid, same⟩ := uniform.mode
  obtain ⟨chosen, isChosen⟩ := valid post.bytes
  exact ⟨chosen, positive, small, by rw [isMode, same rank bound, isChosen]⟩

end Plan

structure VerbsInvariant (setup : Setup Value) (world : VerbsWorld Value) : Prop where
  sound : FabricSound setup.worldSize world.net
  kept : AllKept setup world

section Invariant

variable {world : VerbsWorld Value} {room : Nat → Bool} {post : Post} {rest : List Instr}

/-- The receive the next send is for is that of the same piece. -/
theorem VerbsInvariant.next_recv (inv : VerbsInvariant setup world) (uniform : Uniform setup)
    (onSchedule : ∀ rank, OnSchedule setup rank (world.rank rank)) (bound : rank < setup.worldSize)
    (todo : (world.rank rank).todo = .postSend post :: rest) {recv : RecvWork}
    (found : (world.net.recvs (next setup.worldSize rank))[(world.net.sends rank).length]? =
      some recv) : recv.post.toPiece = post.toPiece := by
  have nextBound := next_lt setup.positive rank
  have sent := (onSchedule rank).next_sent bound todo
  have expected := (onSchedule (next setup.worldSize rank)).recvs_isPrefix nextBound
  rw [← setup.sent_eq_expected bound (uniform.samePieces rank bound),
    ← (inv.kept _ nextBound).recvWorks] at expected
  rw [← (inv.kept rank bound).sendWorks, List.length_map] at sent
  have inside := (List.getElem?_eq_some_iff.mp found).1
  have here := Splits.prefix_getElem? expected (by simpa using inside)
  rw [sent, List.getElem?_map, List.getElem?_map, found] at here
  exact (Option.some.inj here).symm

theorem mem_plan_of_todo (onSchedule : OnSchedule setup rank (world.rank rank))
    (bound : rank < setup.worldSize) {instr : Instr} {event : Event Post}
    (todo : (world.rank rank).todo = instr :: rest) (isEvent : instr.event = some event) :
    ∃ batch ∈ setup.plan rank, event.item ∈ batch.items := by
  obtain ⟨after, split⟩ := onSchedule.events_next bound todo isEvent
  exact item_of_run (by rw [split]; simp)

theorem VerbsInvariant.postRecv_done (uniform : Uniform setup)
    (onSchedule : OnSchedule setup rank (world.rank rank)) (bound : rank < setup.worldSize)
    (todo : (world.rank rank).todo = .postRecv post :: rest)
    (hasRoom : room (unpolledRecvs (world.net.recvs rank)) = true) :
    ∃ mode, Postable post mode ∧
      perform setup (verbsTransport Value room setup.worldSize) rank (world.rank rank).vars world.net
          (world.memory rank) (.postRecv post) =
        .done (world.net.addRecv rank (world.net.receiveWork rank post mode), world.memory rank)
          (.next ((world.rank rank).vars.assign (.recv post.pieceIndex)
            (some (.receive, (world.net.recvs rank).length)))) := by
  obtain ⟨batch, member, postIn⟩ := mem_plan_of_todo onSchedule bound todo rfl
  change post ∈ batch.items at postIn
  obtain ⟨prev, prevBound, rfl⟩ := exists_prev bound
  have planned : post ∈ allRecvs (setup.plan (next setup.worldSize prev)) := by
    obtain ⟨after, split⟩ := onSchedule.events_next bound todo rfl
    rw [← recvPosts_run, split]
    simp [Event.postedRecv]
  have small : post.bytes ≤ maxUInt32 := by
    apply uniform.small prev prevBound post.toPiece
    rw [setup.sent_eq_expected prevBound (uniform.samePieces prev prevBound)]
    exact List.mem_map_of_mem planned
  obtain ⟨mode, postable⟩ := uniform.postable bound member postIn small
  refine ⟨mode, postable, ?_⟩
  simp only [perform, verbsTransport]
  rw [postReceivePrevious_ok postable hasRoom]
  rfl

/-- A send waits for a descriptor, and then finds that of its own piece. -/
theorem VerbsInvariant.postSend_done (inv : VerbsInvariant setup world) (uniform : Uniform setup)
    (onSchedule : ∀ rank, OnSchedule setup rank (world.rank rank)) (bound : rank < setup.worldSize)
    (todo : (world.rank rank).todo = .postSend post :: rest)
    (hasRoom : room (unpolledSends (world.net.sends rank)) = true) :
    ∃ mode, Postable post mode ∧
      ((world.net.control (next setup.worldSize rank) = [] ∧
          perform setup (verbsTransport Value room setup.worldSize) rank (world.rank rank).vars
            world.net (world.memory rank) (.postSend post) = .blocked) ∨
        ∃ recv unread, recv ∈ world.net.recvs (next setup.worldSize rank) ∧
          recv.post.toPiece = post.toPiece ∧
          world.net.control (next setup.worldSize rank) = recv.descriptor :: unread ∧
          ¬ Mismatch recv.descriptor post mode ∧
          perform setup (verbsTransport Value room setup.worldSize) rank (world.rank rank).vars
              world.net (world.memory rank) (.postSend post) =
            .done ((world.net.read (next setup.worldSize rank) unread).addSend rank
                ((world.net.read (next setup.worldSize rank) unread).sendWork rank post mode
                  recv.descriptor), world.memory rank)
              (.next ((world.rank rank).vars.assign (.send post.pieceIndex)
                (some (.send, (world.net.sends rank).length))))) := by
  obtain ⟨batch, member, postIn⟩ := mem_plan_of_todo (onSchedule rank) bound todo rfl
  change post ∈ batch.items at postIn
  have small : post.bytes ≤ maxUInt32 := uniform.small rank bound post.toPiece
    (List.mem_of_getElem? ((onSchedule rank).next_sent bound todo))
  obtain ⟨mode, postable⟩ := uniform.postable bound member postIn small
  refine ⟨mode, postable, ?_⟩
  have link := inv.sound.links rank bound
  have nextBound := next_lt setup.positive rank
  cases control : world.net.control (next setup.worldSize rank) with
  | nil =>
      left
      have sized : ¬ (post.bytes = 0 ∨ post.bytes > maxUInt32) := by
        have positive := postable.1
        omega
      simp [perform, verbsTransport, postSendNext, sized, postable.2.2, control, Outcome.map]
  | cons head unread =>
      right
      rw [control] at link
      obtain ⟨recv, found, rfl⟩ := link.waiting
      have samePiece := inv.next_recv uniform onSchedule bound todo found
      have recvIn := List.mem_of_getElem? found
      have matched : ¬ Mismatch recv.descriptor post mode := by
        apply not_mismatch ((inv.sound.ranks _ nextBound).soundRecvs recv recvIn) postable
        · exact (congrArg Piece.tag samePiece).symm
        · exact (congrArg Piece.bytes samePiece).symm
        · obtain ⟨requested, -, same⟩ := uniform.mode
          obtain ⟨recvBatch, recvMember, recvPostIn⟩ : ∃ batch ∈ setup.plan
              (next setup.worldSize rank), recv.post ∈ batch.items := by
            have posted : recv.post ∈ recvPosts
                (events (world.rank (next setup.worldSize rank)).log) := by
              rw [← (inv.kept _ nextBound).recvWorks]
              exact List.mem_map_of_mem recvIn
            obtain ⟨event, eventIn, isPost⟩ := List.mem_filterMap.mp posted
            obtain ⟨batch, batchIn, itemIn⟩ :=
              item_of_run (((onSchedule _).events_log nextBound).subset eventIn)
            refine ⟨batch, batchIn, ?_⟩
            cases event <;> simp_all [Event.postedRecv, Event.item]
          rw [(plan_sized member postIn).1, (plan_sized recvMember recvPostIn).1, same rank bound,
            same _ nextBound]
      refine ⟨recv, unread, recvIn, samePiece, rfl, matched, ?_⟩
      simp only [perform, verbsTransport]
      rw [postSendNext_ok postable control matched hasRoom]
      rfl

theorem FabricSound.status_zero {worldSize : Nat} {fabric : Fabric}
    (sound : FabricSound worldSize fabric) (bound : rank < worldSize) {handle : Handle}
    {state : VerbsTransport.RequestState} (found : fabric.stateOf rank handle = some state) :
    state.status = 0 := by
  obtain ⟨kind, place⟩ := handle
  have here := sound.ranks rank bound
  cases kind with
  | send =>
      obtain ⟨work, isWork, rfl⟩ := Option.map_eq_some_iff.mp found
      exact (here.soundSends work (List.mem_of_getElem? isWork)).status
  | receive =>
      obtain ⟨work, isWork, rfl⟩ := Option.map_eq_some_iff.mp found
      exact (here.soundRecvs work (List.mem_of_getElem? isWork)).status

/-- A wait for a request of the rank that returns reports success. -/
theorem FabricSound.wait_succeeds {worldSize : Nat} {fabric : Fabric} {memory : Memory Value}
    (sound : FabricSound worldSize fabric) (bound : rank < worldSize) {handle : Handle}
    {request : VerbsTransport.RequestState} (found : fabric.stateOf rank handle = some request)
    {after : Fabric × Memory Value} {ok : Bool}
    (done : waitRequest rank handle fabric memory = .done after ok) : ok = true := by
  have status := sound.status_zero bound found
  simp only [waitRequest, found] at done
  split at done
  · simp only [status, decide_true, Outcome.done.injEq] at done
    exact done.2.symm
  · split at done <;> simp at done

/-- No post and no wait of a rank with room on its queues fails. -/
theorem VerbsInvariant.not_stop (inv : VerbsInvariant setup world) (uniform : Uniform setup)
    (onSchedule : ∀ rank, OnSchedule setup rank (world.rank rank)) (bound : rank < setup.worldSize)
    (recvRoom : room (unpolledRecvs (world.net.recvs rank)) = true)
    (sendRoom : room (unpolledSends (world.net.sends rank)) = true) {instr : Instr}
    (todo : (world.rank rank).todo = instr :: rest) {fabric : Fabric} {memory : Memory Value}
    {status : Status}
    (stopped : perform setup (verbsTransport Value room setup.worldSize) rank
      (world.rank rank).vars world.net (world.memory rank) instr =
        .done (fabric, memory) (.stop status)) : instr.event = none := by
  have scheduled := onSchedule rank
  cases instr with
  | postRecv post =>
      obtain ⟨mode, -, done⟩ := VerbsInvariant.postRecv_done uniform scheduled bound todo recvRoom
      simp [stopped] at done
  | postSend post =>
      obtain ⟨mode, -, ⟨-, blocked⟩ | ⟨recv, unread, -, -, -, -, done⟩⟩ :=
        inv.postSend_done uniform onSchedule bound todo sendRoom
      · simp [stopped] at blocked
      · simp [stopped] at done
  | waitRecv post =>
      obtain ⟨inside, slot⟩ := (inv.kept rank bound).waitRecv_handle scheduled bound todo
      have found : world.net.stateOf rank (.receive, _) = some _ :=
        congrArg (Option.map RecvWork.state) (List.getElem?_eq_getElem inside)
      simp only [perform, slot] at stopped
      obtain ⟨ok, waited, answered⟩ := Outcome.map_eq_done stopped
      simp [inv.sound.wait_succeeds bound found waited] at answered
  | waitSend post =>
      obtain ⟨inside, slot⟩ := (inv.kept rank bound).waitSend_handle scheduled bound todo
      have found : world.net.stateOf rank (.send, _) = some _ :=
        congrArg (Option.map SendWork.state) (List.getElem?_eq_getElem inside)
      simp only [perform, slot] at stopped
      obtain ⟨ok, waited, answered⟩ := Outcome.map_eq_done stopped
      simp [inv.sound.wait_succeeds bound found waited] at answered
  | _ => rfl

theorem FabricSound.performed {vars vars' : Variables Handle} {fabric fabric' : Fabric}
    {instr : Instr} (sound : FabricSound setup.worldSize fabric) (bound : rank < setup.worldSize)
    (performed : Performed setup room rank vars fabric instr fabric' vars') :
    FabricSound setup.worldSize fabric' := by
  cases performed with
  | postRecv post mode postable => exact sound.addRecv bound postable
  | postSend post mode control unread postable available matched =>
      exact sound.addSend bound postable available matched
  | waitRecv | waitSend | between => exact sound

theorem VerbsInvariant.sound_step (inv : VerbsInvariant setup world) (uniform : Uniform setup)
    (onSchedule : ∀ rank, OnSchedule setup rank (world.rank rank)) (bound : rank < setup.worldSize)
    (recvRoom : room (unpolledRecvs (world.net.recvs rank)) = true)
    (sendRoom : room (unpolledSends (world.net.sends rank)) = true) {after : VerbsWorld Value}
    (taken : RankStep setup (verbsTransport Value room setup.worldSize) rank world after) :
    FabricSound setup.worldSize after.net := by
  cases taken with
  | enter call idle succeeded next => exact inv.sound
  | busy instr rest fabric memory todo outcome =>
      exact inv.sound.poll bound (perform_busy outcome).1
  | next instr rest fabric memory vars todo outcome =>
      exact inv.sound.performed bound (perform_next outcome)
  | stop instr rest fabric memory status todo outcome =>
      have noEvent := inv.not_stop uniform onSchedule bound recvRoom sendRoom todo outcome
      obtain ⟨rfl, -⟩ := perform_local_stop noEvent outcome
      exact inv.sound

end Invariant

/-- The invariant of every run in which each rank has room on its queues for what it posts. -/
theorem verbsInvariant_of_reachable {room : Nat → Bool} (uniform : Uniform setup)
    (roomy : ∀ world : VerbsWorld Value, VerbsReachable room setup world →
      ∀ rank < setup.worldSize, room (unpolledRecvs (world.net.recvs rank)) = true ∧
        room (unpolledSends (world.net.sends rank)) = true)
    {world : VerbsWorld Value} (reachable : VerbsReachable room setup world) :
    VerbsInvariant setup world := by
  refine ⟨?_, allKept_of_reachable reachable⟩
  apply Runs.Reachable.strengthen (fun world => FabricSound setup.worldSize world.net) reachable
    (idle_sound _)
  intro before after earlier sound step
  cases step with
  | rank rank bound taken =>
      have inv : VerbsInvariant setup before := ⟨sound, allKept_of_reachable earlier⟩
      obtain ⟨recvRoom, sendRoom⟩ := roomy before earlier rank bound
      exact inv.sound_step uniform (onSchedule_of_reachable earlier) bound recvRoom sendRoom
        (rankStep_cases taken)
  | background done => exact sound.device done

end RingAllReduce.VerbsRing
