import RingAllReduce.DescriptorMatching
import RingAllReduce.PostSizes

/-!
Ranks that agree on nothing but the ring. Each one has a configuration and calls of its own, and
queues that may be full. What they disagree on makes a post fail; a rank whose post has failed makes
no other, so the one descriptor it may have read in vain misleads nobody.
-/

namespace RingAllReduce.VerbsRing

open Rotation VerbsTransport

variable {Value : Type} {setup : Setup Value} {worldSize rank : Nat} {room : Nat → Bool}
  {fabric fabric' : Fabric} {memory memory' : Memory Value} {lost : Nat → List Descriptor}

def Stopped (state : RankState Handle) : Prop :=
  state.todo = [] ∧ ∃ status ∈ state.results, status ≠ .success

theorem not_stopped {transport : Transport Value Fabric Handle} {before after : VerbsWorld Value}
    (taken : RankStep setup transport rank before after) : ¬ Stopped (before.rank rank) := by
  rintro ⟨idle, status, member, failed⟩
  cases taken with
  | enter call todo succeeded next => exact failed (succeeded status member)
  | busy instr rest net memory todo | next instr rest net memory vars todo
  | stop instr rest net memory status todo => simp [idle] at todo

/-- The fabric with what was read in vain put back in front of what is still to be read. -/
def Fabric.putBack (fabric : Fabric) (lost : Nat → List Descriptor) : Fabric :=
  { fabric with control := fun rank => lost rank ++ fabric.control rank }

@[simp] theorem putBack_stateOf (handle : Handle) :
    (fabric.putBack lost).stateOf rank handle = fabric.stateOf rank handle := by
  obtain ⟨kind, place⟩ := handle
  cases kind <;> rfl

theorem putBack_addRecv (post : Post) (mode : TransferMode) :
    (fabric.addRecv rank (fabric.receiveWork rank post mode)).putBack lost =
      (fabric.putBack lost).addRecv rank ((fabric.putBack lost).receiveWork rank post mode) := by
  simp only [Fabric.addRecv, Fabric.putBack, Fabric.mk.injEq, and_true, true_and]
  refine ⟨?_, rfl⟩
  funext other
  by_cases here : other = rank
  · subst here
    simp [Fabric.receiveWork, Fabric.newState]
  · simp [here]

theorem putBack_addSend {writer : Nat} (nothing : lost writer = []) (post : Post)
    (mode : TransferMode) (control : Descriptor) (unread : List Descriptor) :
    ((fabric.read writer unread).addSend rank
        ((fabric.read writer unread).sendWork rank post mode control)).putBack lost =
      ((fabric.putBack lost).read writer unread).addSend rank
        (((fabric.putBack lost).read writer unread).sendWork rank post mode control) := by
  simp only [Fabric.addSend, Fabric.read, Fabric.putBack, Fabric.mk.injEq, and_true]
  refine ⟨?_, rfl⟩
  funext other
  by_cases here : other = writer
  · subst here
    simp [nothing]
  · simp [here]

theorem putBack_read {writer : Nat} (nothing : lost writer = []) {control : Descriptor}
    {unread : List Descriptor} (available : fabric.control writer = control :: unread) :
    (fabric.read writer unread).putBack (Function.update lost writer [control]) =
      fabric.putBack lost := by
  simp only [Fabric.read, Fabric.putBack, Fabric.mk.injEq, and_true]
  funext other
  by_cases here : other = writer
  · subst here
    simp [nothing, available]
  · simp [here]

theorem putBack_performed {vars vars' : Variables Handle} {instr : Instr}
    (nothing : lost (next setup.worldSize rank) = [])
    (performed : Performed setup room rank vars fabric instr fabric' vars') :
    Performed setup room rank vars (fabric.putBack lost) instr (fabric'.putBack lost) vars' := by
  cases performed with
  | postRecv post mode postable hasRoom =>
      rw [putBack_addRecv]
      exact .postRecv post mode postable hasRoom
  | postSend post mode control unread postable available matched hasRoom =>
      rw [putBack_addSend nothing]
      exact .postSend post mode control unread postable
        (by simp [Fabric.putBack, nothing, available]) matched hasRoom
  | waitRecv post handle request slot found completed =>
      exact .waitRecv post handle request slot (by simpa using found) completed
  | waitSend post handle request slot found completed =>
      exact .waitSend post handle request slot (by simpa using found) completed
  | between instr noEvent vars' requests => exact .between instr noEvent vars' requests

theorem putBack_poll (polled : fabric.poll rank = some fabric') :
    (fabric.putBack lost).poll rank = some (fabric'.putBack lost) := by
  unfold Fabric.poll at polled ⊢
  split at polled
  · simp at polled
  · rename_i handle completion rest queue
    obtain ⟨kind, place⟩ := handle
    cases kind <;> obtain rfl := Option.some.inj polled <;> simp [Fabric.putBack, queue]

theorem putBack_device {memory memory' : Nat → Memory Value}
    (step : DeviceStep worldSize fabric memory fabric' memory') :
    DeviceStep worldSize (fabric.putBack lost) memory (fabric'.putBack lost) memory' := by
  cases step with
  | execute sender place target send recv bound isSend unexecuted sendsBefore isRecv unconsumed
      recvsBefore =>
      exact .execute sender place target send recv bound isSend unexecuted sendsBefore isRecv
        unconsumed recvsBefore
  | acknowledge sender place send bound isSend executed unacknowledged =>
      exact .acknowledge sender place send bound isSend executed unacknowledged

/-- A post that fails leaves the fabric as it is, or reads a descriptor in vain. -/
theorem perform_failed {vars : Variables Handle} {instr : Instr} {status : Status}
    (outcome : perform setup (verbsTransport Value room setup.worldSize) rank vars fabric memory
      instr = .done (fabric', memory') (.stop status)) :
    fabric' = fabric ∨ status ≠ .success ∧ ∃ control unread,
      fabric.control (next setup.worldSize rank) = control :: unread ∧
        fabric' = fabric.read (next setup.worldSize rank) unread := by
  cases instr with
  | postRecv post =>
      obtain ⟨answer, posted, answered⟩ := Outcome.map_eq_done outcome
      obtain ⟨-, ⟨-, same⟩ | ⟨mode, -, -, rfl, -⟩⟩ := postReceivePrevious_done posted
      · exact Or.inl same
      · simp at answered
  | postSend post =>
      obtain ⟨answer, posted, answered⟩ := Outcome.map_eq_done outcome
      have failed : status ≠ .success := by
        cases answer <;> simp at answered
        rw [← answered]
        decide
      simp only [verbsTransport, postSendNext] at posted
      split at posted
      · simp only [Outcome.done.injEq, Prod.mk.injEq] at posted
        exact Or.inl posted.1.1.symm
      split at posted
      · simp only [Outcome.done.injEq, Prod.mk.injEq] at posted
        exact Or.inl posted.1.1.symm
      split at posted
      · simp at posted
      · rename_i control unread available
        refine Or.inr ⟨failed, control, unread, available, ?_⟩
        split at posted
        · simp only [Outcome.done.injEq, Prod.mk.injEq] at posted
          exact posted.1.1.symm
        split at posted
        · simp only [Outcome.done.injEq, Prod.mk.injEq] at posted
          exact posted.1.1.symm
        · simp only [Outcome.done.injEq] at posted
          simp [← posted.2] at answered
  | waitRecv post | waitSend post =>
      simp only [perform] at outcome
      split at outcome
      · simp only [Outcome.done.injEq, Prod.mk.injEq] at outcome
        exact Or.inl outcome.1.1.symm
      · obtain ⟨ok, waited, -⟩ := Outcome.map_eq_done outcome
        exact Or.inl (waitRequest_done waited).1
  | _ => exact Or.inl (perform_local_stop rfl outcome).1

/-- All links are in order but for what ranks that have stopped read in vain. -/
structure Contained (worldSize : Nat) (world : VerbsWorld Value) (lost : Nat → List Descriptor) :
    Prop where
  sound : FabricSound worldSize (world.net.putBack lost)
  stopped : ∀ rank < worldSize, lost (next worldSize rank) ≠ [] → Stopped (world.rank rank)

theorem Contained.put {world : VerbsWorld Value} (contained : Contained worldSize world lost)
    (nothing : lost (next worldSize rank) = []) {state : RankState Handle}
    (sound : FabricSound worldSize (fabric.putBack lost)) :
    Contained worldSize (world.put rank state fabric memory) lost := by
  refine ⟨sound, fun other bound some => ?_⟩
  have different : other ≠ rank := fun same => some (same ▸ nothing)
  rw [World.put_rank_other _ _ _ _ _ different]
  exact contained.stopped other bound some

theorem Contained.rank_step {before after : VerbsWorld Value}
    (contained : Contained setup.worldSize before lost) (bound : rank < setup.worldSize)
    (taken : RankStep setup (verbsTransport Value room setup.worldSize) rank before after) :
    ∃ lost, Contained setup.worldSize after lost := by
  have nothing : lost (next setup.worldSize rank) = [] := by
    by_contra some
    exact not_stopped taken (contained.stopped rank bound some)
  cases taken with
  | enter call idle succeeded next => exact ⟨lost, contained.put nothing contained.sound⟩
  | busy instr rest fabric memory todo outcome =>
      exact ⟨lost, contained.put nothing
        (contained.sound.poll bound (putBack_poll (perform_busy outcome).1))⟩
  | next instr rest fabric memory vars todo outcome =>
      exact ⟨lost, contained.put nothing
        (contained.sound.performed bound (putBack_performed nothing (perform_next outcome)))⟩
  | stop instr rest fabric memory status todo outcome =>
      rcases perform_failed outcome with rfl | ⟨failed, control, unread, available, rfl⟩
      · exact ⟨lost, contained.put nothing contained.sound⟩
      · refine ⟨Function.update lost (next setup.worldSize rank) [control], ?_, ?_⟩
        · rw [World.put, putBack_read nothing available]
          exact contained.sound
        · intro other otherBound some
          by_cases here : other = rank
          · subst here
            rw [World.put_rank_same]
            exact ⟨rfl, status, by simp [RankState.leave], failed⟩
          · have different : next setup.worldSize other ≠ next setup.worldSize rank := fun eq =>
              here (next_injective otherBound bound eq)
            rw [Function.update_of_ne different] at some
            rw [World.put_rank_other _ _ _ _ _ here]
            exact contained.stopped other otherBound some

theorem Contained.device {before : VerbsWorld Value} (contained : Contained worldSize before lost)
    {fabric : Fabric} {memory : Nat → Memory Value}
    (step : DeviceStep worldSize before.net before.memory fabric memory) :
    Contained worldSize { before with net := fabric, memory := memory } lost :=
  ⟨contained.sound.device (putBack_device step), contained.stopped⟩

/-! Rings whose ranks have a setup and a queue size each. -/

inductive ApartStep (room : Nat → Nat → Bool) (worldSize : Nat) (setup : Nat → Setup Value) :
    VerbsWorld Value → VerbsWorld Value → Prop
  | rank {before after : VerbsWorld Value} (rank : Nat) (bound : rank < worldSize)
      (taken : rankStep (setup rank) (verbsTransport Value (room rank) worldSize) rank before =
        some after) : ApartStep room worldSize setup before after
  | device {before : VerbsWorld Value} {fabric : Fabric} {memory : Nat → Memory Value}
      (done : DeviceStep worldSize before.net before.memory fabric memory) :
      ApartStep room worldSize setup before { before with net := fabric, memory := memory }

def apartStart (setup : Nat → Setup Value) : VerbsWorld Value :=
  { rank := fun _ => initialRank, memory := fun rank => (setup rank).memory rank,
    net := idleFabric }

def ApartReachable (room : Nat → Nat → Bool) (worldSize : Nat) (setup : Nat → Setup Value)
    (world : VerbsWorld Value) : Prop :=
  Runs.Reachable (ApartStep room worldSize setup) (apartStart setup) world

inductive Move where
  | rank (rank : Nat)
  /-- The oldest send of a rank that is not executed. -/
  | execute (sender : Nat)
  /-- The oldest send of a rank that is executed and not acknowledged. -/
  | acknowledge (sender : Nat)

def apartMove (room : Nat → Nat → Bool) (worldSize : Nat) (setup : Nat → Setup Value) :
    Move → VerbsWorld Value → Option (VerbsWorld Value)
  | .rank rank, world =>
      if rank < worldSize then
        rankStep (setup rank) (verbsTransport Value (room rank) worldSize) rank world
      else none
  | .execute sender, world =>
      let receiver := next worldSize sender
      let place := (world.net.sends sender).findIdx fun work => !work.executed
      let target := (world.net.recvs receiver).findIdx fun work => !work.consumed
      match (world.net.sends sender)[place]?, (world.net.recvs receiver)[target]? with
      | some send, some recv =>
          if sender < worldSize then
            some { world with
              net := world.net.execute sender receiver place target send recv
              memory := Function.update world.memory receiver
                (moveData (world.memory sender) (world.memory receiver) send recv) }
          else none
      | _, _ => none
  | .acknowledge sender, world =>
      let place := (world.net.sends sender).findIdx fun work => work.executed && !work.acknowledged
      match (world.net.sends sender)[place]? with
      | some send =>
          if sender < worldSize then some { world with net := world.net.acknowledge sender place send }
          else none
      | none => none

theorem findIdx_found {Work : Type} {works : List Work} {wanted : Work → Bool} {work : Work}
    (found : works[works.findIdx wanted]? = some work) : wanted work = true := by
  obtain ⟨inside, rfl⟩ := List.getElem?_eq_some_iff.mp found
  exact List.findIdx_getElem

theorem findIdx_before {Work : Type} {works : List Work} {wanted : Work → Bool} {place : Nat}
    {work : Work} (less : place < works.findIdx wanted) (found : works[place]? = some work) :
    wanted work = false := by
  obtain ⟨inside, rfl⟩ := List.getElem?_eq_some_iff.mp found
  exact List.not_of_lt_findIdx less

theorem apartMove_step {room : Nat → Nat → Bool} {setup : Nat → Setup Value} {move : Move}
    {before after : VerbsWorld Value}
    (moved : apartMove room worldSize setup move before = some after) :
    ApartStep room worldSize setup before after := by
  cases move with
  | rank rank =>
      simp only [apartMove] at moved
      split at moved
      · exact .rank rank ‹_› moved
      · simp at moved
  | execute sender =>
      simp only [apartMove] at moved
      split at moved
      · rename_i send recv isSend isRecv
        split at moved
        · rename_i bound
          obtain rfl := Option.some.inj moved
          refine .device (.execute sender _ _ send recv bound isSend ?_ ?_ isRecv ?_ ?_)
          · simpa using findIdx_found isSend
          · exact fun earlier less work found => by simpa using findIdx_before less found
          · simpa using findIdx_found isRecv
          · exact fun earlier less work found => by simpa using findIdx_before less found
        · simp at moved
      · simp at moved
  | acknowledge sender =>
      simp only [apartMove] at moved
      split at moved
      · rename_i send isSend
        split at moved
        · rename_i bound
          obtain rfl := Option.some.inj moved
          have executed := findIdx_found isSend
          simp only [Bool.and_eq_true, Bool.not_eq_true'] at executed
          exact .device (.acknowledge sender _ send bound isSend executed.1 executed.2)
        · simp at moved
      · simp at moved

theorem apartReachable_of_follow {room : Nat → Nat → Bool} {setup : Nat → Setup Value}
    {moves : List Move} {world : VerbsWorld Value}
    (followed : Runs.follow (apartMove room worldSize setup) moves (apartStart setup) = some world) :
    ApartReachable room worldSize setup world :=
  Runs.reachable_of_follow (fun _ _ _ => apartMove_step) followed

theorem contained_of_reachable {room : Nat → Nat → Bool} {setup : Nat → Setup Value}
    (sizes : ∀ rank < worldSize, (setup rank).worldSize = worldSize) {world : VerbsWorld Value}
    (reachable : ApartReachable room worldSize setup world) :
    ∃ lost, Contained worldSize world lost := by
  apply Runs.Reachable.invariant (fun world => ∃ lost, Contained worldSize world lost) reachable
  · exact ⟨fun _ => [], idle_sound worldSize, fun rank bound some => absurd rfl some⟩
  · rintro before after ⟨lost, contained⟩ step
    cases step with
    | device done => exact ⟨lost, contained.device done⟩
    | rank rank bound taken =>
        obtain size := sizes rank bound
        subst size
        exact contained.rank_step bound (rankStep_cases taken)

theorem measured_of_reachable {room : Nat → Nat → Bool} {setup : Nat → Setup Value} {size : Nat}
    (sizes : ∀ rank < worldSize, (setup rank).worldSize = worldSize)
    (elements : ∀ rank < worldSize, ∀ args ∈ (setup rank).calls, args.datatype.supported = true →
      datatypeSize args.datatype = size) {world : VerbsWorld Value}
    (reachable : ApartReachable room worldSize setup world) : AllMeasured size worldSize world := by
  apply Runs.Reachable.invariant (AllMeasured size worldSize) reachable
  · exact ⟨fun rank bound event member => by simp [apartStart, initialRank] at member,
      fun rank bound post member => by simp [apartStart, idleFabric, Fabric.posts] at member⟩
  · intro before after measured step
    cases step with
    | device done => exact measured.device done
    | rank rank bound taken =>
        have own := elements rank bound
        obtain size := sizes rank bound
        subst size
        exact measured.rank_step bound own (rankStep_cases taken)

/-- A send and the receive at its place are executed: that receive is the one whose descriptor the
sender has read, it is still open, and the payload is as long as its range and lands there. -/
def Announced (worldSize : Nat) (world : VerbsWorld Value) (fabric : Fabric)
    (memory : Nat → Memory Value) : Prop :=
  ∃ sender < worldSize, ∃ place send recv, (world.net.sends sender)[place]? = some send ∧
    (world.net.recvs (next worldSize sender))[place]? = some recv ∧ send.executed = false ∧
    recv.state.completed = false ∧ send.Answers recv ∧ send.fits recv = true ∧
    send.destination recv = (recv.post.buffer, recv.post.start) ∧
    send.post.elementCount = recv.post.elementCount ∧
    (∀ buffer index, ¬ recv.post.covers buffer index →
      memory (next worldSize sender) buffer index =
        world.memory (next worldSize sender) buffer index) ∧
    fabric = world.net.execute sender (next worldSize sender) place place send recv ∧
    memory = Function.update world.memory (next worldSize sender)
      (moveData (world.memory sender) (world.memory (next worldSize sender)) send recv)

/-- What a transfer can come to between ranks that may disagree: `payloads` when the device moves
data, `completions` when a rank polls and `waits` when it waits. -/
structure Harmless (worldSize : Nat) (world : VerbsWorld Value) : Prop where
  payloads : ∀ fabric memory, DeviceStep worldSize world.net world.memory fabric memory →
    Acknowledged worldSize world fabric memory ∨ Announced worldSize world fabric memory
  completions : ∀ rank < worldSize, ∀ handle completion state,
    (handle, completion) ∈ world.net.cq rank → world.net.stateOf rank handle = some state →
      Succeeded state completion
  waits : ∀ rank < worldSize, ∀ handle state after ok, world.net.stateOf rank handle = some state →
    waitRequest rank handle world.net (world.memory rank) = .done after ok → ok = true

theorem Contained.harmless {world : VerbsWorld Value} (contained : Contained worldSize world lost)
    {size : Nat} (measured : AllMeasured size worldSize world) : Harmless worldSize world := by
  have sound := contained.sound
  constructor
  · intro fabric memory step
    cases step with
    | acknowledge sender place send bound isSend executed unacknowledged =>
        exact Or.inl ⟨sender, bound, place, send, isSend, executed, rfl, rfl⟩
    | execute sender place target send recv bound isSend unexecuted sendsBefore isRecv unconsumed
        recvsBefore =>
        obtain ⟨rfl, answers, -⟩ := sound.moves bound isSend unexecuted sendsBefore isRecv unconsumed
          recvsBefore
        have receiverBound := next_lt (show 0 < worldSize by omega) sender
        have destination := destination_of_answers answers
        have count := Measured.count_eq
          (measured.posted sender bound _ (send_posted (List.mem_of_getElem? isSend)))
          (measured.posted _ receiverBound _ (recv_posted (List.mem_of_getElem? isRecv)))
          answers.bytes
        refine Or.inr ⟨sender, bound, target, send, recv, isSend, isRecv, unexecuted, ?_, answers,
          fits_of_answers answers, destination, count, fun buffer index outside => ?_, rfl, rfl⟩
        · have works := (sound.ranks _ receiverBound).soundRecvs recv (List.mem_of_getElem? isRecv)
          rw [Bool.eq_false_iff]
          intro completed
          simp [works.completed completed] at unconsumed
        · rw [Function.update_self]
          exact moveData_outside _ _ destination count outside
  · intro rank bound handle completion state member found
    exact sound.completion_succeeded bound member (by simpa using found)
  · intro rank bound handle state after ok found waited
    have zero : state.status = 0 := sound.status_zero bound (by simpa using found)
    simp only [waitRequest, found] at waited
    split at waited
    · simp only [zero, decide_true, Outcome.done.injEq] at waited
      exact waited.2.symm
    · split at waited <;> simp at waited

/-- Ranks that disagree on their configurations, on their calls or on what their queues take do each
other no harm: data only goes to the receive it was announced for, which has its tag, its size and
its mode, and neither a completion nor a wait ever reports an error. -/
theorem disagreement_harmless {room : Nat → Nat → Bool} {setup : Nat → Setup Value} {size : Nat}
    (sizes : ∀ rank < worldSize, (setup rank).worldSize = worldSize)
    (elements : ∀ rank < worldSize, ∀ args ∈ (setup rank).calls, args.datatype.supported = true →
      datatypeSize args.datatype = size) {world : VerbsWorld Value}
    (reachable : ApartReachable room worldSize setup world) : Harmless worldSize world := by
  obtain ⟨lost, contained⟩ := contained_of_reachable sizes reachable
  exact contained.harmless (measured_of_reachable sizes elements reachable)

/-- Two ranks of which the first one reduces three elements and the other one two. -/
def apartSetup (rank : Nat) : Setup Nat :=
  { pairSetup 1 with
    calls := (pairSetup 1).calls.map fun args => { args with count := 3 - rank } }

/-- The first rank has failed, and the device has moved what the other one sent to it. -/
theorem disagreement_harmless_pair : ∃ world,
    ApartReachable (fun _ _ => true) 2 apartSetup world ∧
      (world.rank 0).results = [.transport] ∧ world.memory 0 .temporary 0 = 11 ∧
      Harmless 2 world := by
  have ran : (Runs.follow (apartMove (fun _ _ => true) 2 apartSetup)
      [.rank 0, .rank 0, .rank 0, .rank 1, .rank 1, .rank 1, .rank 1, .rank 0, .execute 1]
      (apartStart apartSetup)).map (fun world =>
        ((world.rank 0).results, world.memory 0 .temporary 0)) = some ([.transport], 11) := by
    decide +kernel
  obtain ⟨world, followed, shown⟩ := Option.map_eq_some_iff.mp ran
  have reachable := apartReachable_of_follow followed
  simp only [Prod.mk.injEq] at shown
  have sizes : ∀ rank < 2, (apartSetup rank).worldSize = 2 := fun _ _ => rfl
  have elements : ∀ rank < 2, ∀ args ∈ (apartSetup rank).calls,
      args.datatype.supported = true → datatypeSize args.datatype = 4 := by
    intro rank bound args member typed
    obtain rfl := List.mem_singleton.mp member
    rfl
  exact ⟨world, reachable, shown.1, shown.2, disagreement_harmless sizes elements reachable⟩

end RingAllReduce.VerbsRing
