import RingAllReduce.AllReduceValue
import RingAllReduce.VerbsCollectives

/-! The collectives over Verbs endpoints whose queues have room: descriptors, sends and receives of a
link never part, and no check of the transport fails. -/

namespace RingAllReduce.VerbsRing

open Exchange Rotation VerbsTransport

variable {Value : Type} {setup : Setup Value} {rank : Nat}

/-- The sender learns that a send was executed; no data moves. -/
def Acknowledged (worldSize : Nat) (world : VerbsWorld Value) (fabric : Fabric)
    (memory : Nat → Memory Value) : Prop :=
  ∃ sender < worldSize, ∃ place send, (world.net.sends sender)[place]? = some send ∧
    send.executed = true ∧ fabric = world.net.acknowledge sender place send ∧ memory = world.memory

/-- A send and the receive at its place are executed; they are of the same piece, and the payload lands
in the buffer of the receive. -/
def Moved (worldSize : Nat) (world : VerbsWorld Value) (fabric : Fabric)
    (memory : Nat → Memory Value) : Prop :=
  ∃ sender < worldSize, ∃ place send recv, (world.net.sends sender)[place]? = some send ∧
    (world.net.recvs (next worldSize sender))[place]? = some recv ∧ send.executed = false ∧
    recv.consumed = false ∧ recv.post.toPiece = send.post.toPiece ∧
    fabric = world.net.execute sender (next worldSize sender) place place send recv ∧
    memory = Function.update world.memory (next worldSize sender)
      ((world.memory (next worldSize sender)).store recv.post.buffer recv.post.start
        ((world.memory sender).load send.post.buffer send.post.start send.post.elementCount))

/-- What the transport finds in a state: `descriptors` when it reads one, `calls` when a rank posts or
waits, `payloads` when the device moves data, `completions` and `statuses` when it polls. -/
structure TransfersMatch (room : Nat → Bool) (setup : Setup Value) (world : VerbsWorld Value) :
    Prop where
  descriptors : ∀ rank < setup.worldSize, ∀ post rest control unread,
    (world.rank rank).todo = .postSend post :: rest →
    world.net.control (next setup.worldSize rank) = control :: unread →
      ∃ recv, (world.net.recvs (next setup.worldSize rank))[(world.net.sends rank).length]? =
          some recv ∧ control = recv.descriptor ∧ recv.post.toPiece = post.toPiece ∧
        ∃ mode, chooseMode post.mode post.bytes = .ok mode ∧ ¬ Mismatch control post mode
  calls : ∀ rank < setup.worldSize, ∀ instr event rest, instr.event = some event →
    (world.rank rank).todo = instr :: rest → ∀ fabric memory status,
      perform setup (verbsTransport Value room setup.worldSize) rank (world.rank rank).vars world.net
        (world.memory rank) instr ≠ .done (fabric, memory) (.stop status)
  payloads : ∀ fabric memory, DeviceStep setup.worldSize world.net world.memory fabric memory →
    Acknowledged setup.worldSize world fabric memory ∨ Moved setup.worldSize world fabric memory
  completions : ∀ rank < setup.worldSize, ∀ handle completion state,
    (handle, completion) ∈ world.net.cq rank → world.net.stateOf rank handle = some state →
      Succeeded state completion
  statuses : ∀ rank < setup.worldSize, ∀ handle state,
    world.net.stateOf rank handle = some state → state.status = 0

section Invariant

variable {world : VerbsWorld Value}

theorem VerbsInvariant.same_piece (inv : VerbsInvariant setup world) (uniform : Uniform setup)
    (onSchedule : ∀ rank, OnSchedule setup rank (world.rank rank)) (bound : rank < setup.worldSize)
    {place : Nat} {send : SendWork} {recv : RecvWork}
    (isSend : (world.net.sends rank)[place]? = some send)
    (isRecv : (world.net.recvs (next setup.worldSize rank))[place]? = some recv) :
    recv.post.toPiece = send.post.toPiece := by
  have nextBound := next_lt setup.positive rank
  have sent := (onSchedule rank).sends_isPrefix bound
  have expected := (onSchedule (next setup.worldSize rank)).recvs_isPrefix nextBound
  rw [← (inv.kept rank bound).sendWorks] at sent
  rw [← setup.sent_eq_expected bound (uniform.samePieces rank bound),
    ← (inv.kept _ nextBound).recvWorks] at expected
  have sendInside := (List.getElem?_eq_some_iff.mp isSend).1
  have recvInside := (List.getElem?_eq_some_iff.mp isRecv).1
  have sendHere := Splits.prefix_getElem? sent (by simpa using sendInside)
  have recvHere := Splits.prefix_getElem? expected (by simpa using recvInside)
  rw [sendHere, List.getElem?_map, List.getElem?_map, List.getElem?_map, List.getElem?_map, isSend,
    isRecv] at recvHere
  exact (Option.some.inj recvHere).symm

theorem FabricSound.completion_succeeded {worldSize : Nat} {fabric : Fabric}
    (sound : FabricSound worldSize fabric) (bound : rank < worldSize) {handle : Handle}
    {completion : WorkCompletion} {state : VerbsTransport.RequestState}
    (member : (handle, completion) ∈ fabric.cq rank) (found : fabric.stateOf rank handle = some state) :
    Succeeded state completion := by
  obtain ⟨kind, place⟩ := handle
  have here := sound.ranks rank bound
  cases kind with
  | send =>
      obtain ⟨work, isWork, rfl⟩ := Option.map_eq_some_iff.mp found
      exact here.servedSends.good place completion work member isWork
  | receive =>
      obtain ⟨work, isWork, rfl⟩ := Option.map_eq_some_iff.mp found
      exact here.servedRecvs.good place completion work member isWork

/-- The device moves a send's data into the buffer of the receive of the same piece. -/
theorem VerbsInvariant.payload (inv : VerbsInvariant setup world) (uniform : Uniform setup)
    (onSchedule : ∀ rank, OnSchedule setup rank (world.rank rank)) {fabric : Fabric}
    {memory : Nat → Memory Value}
    (step : DeviceStep setup.worldSize world.net world.memory fabric memory) :
    Acknowledged setup.worldSize world fabric memory ∨
      Moved setup.worldSize world fabric memory := by
  cases step with
  | acknowledge sender place send bound isSend executed unacknowledged =>
      exact Or.inl ⟨sender, bound, place, send, isSend, executed, rfl, rfl⟩
  | execute sender place target send recv bound isSend unexecuted sendsBefore isRecv unconsumed
      recvsBefore =>
      obtain ⟨rfl, answers, -⟩ := inv.sound.moves bound isSend unexecuted sendsBefore isRecv
        unconsumed recvsBefore
      refine Or.inr ⟨sender, bound, _, send, recv, isSend, isRecv, unexecuted, unconsumed,
        inv.same_piece uniform onSchedule bound isSend isRecv, rfl, ?_⟩
      rw [moveData, if_pos (fits_of_answers answers), destination_of_answers answers]

end Invariant

/-- Over Verbs endpoints a rank reads exactly the descriptor of the piece it is about to send, the
device writes each payload into the receive of the same piece, and no completion reports an error,
whatever the mode, the bounds on requests in flight and the interleaving. -/
theorem transfers_match {setup : Setup Value} (uniform : Uniform setup) {world : VerbsWorld Value}
    (reachable : VerbsReachable (fun _ => true) setup world) :
    TransfersMatch (fun _ => true) setup world := by
  have inv := verbsInvariant_of_reachable uniform (fun _ _ _ _ => ⟨rfl, rfl⟩) reachable
  have onSchedule := onSchedule_of_reachable reachable
  constructor
  · intro rank bound post rest control unread todo available
    obtain ⟨mode, postable, ⟨none, -⟩ | ⟨written, later, -, -, head, matched, -⟩⟩ :=
      @VerbsInvariant.postSend_done _ _ rank world (fun _ => true) _ _ inv uniform onSchedule bound
        todo rfl
    · simp [none] at available
    · rw [available, List.cons.injEq] at head
      have link := inv.sound.links rank bound
      rw [available] at link
      obtain ⟨recv, found, isHead⟩ := link.waiting
      refine ⟨recv, found, isHead, inv.next_recv uniform onSchedule bound todo found, mode,
        postable.2.2, head.1 ▸ matched⟩
  · intro rank bound instr event rest isEvent todo fabric memory status stopped
    have noEvent := inv.not_stop uniform onSchedule bound rfl rfl todo stopped
    simp [noEvent] at isEvent
  · exact fun fabric memory step => inv.payload uniform onSchedule step
  · exact fun rank bound handle completion state => inv.sound.completion_succeeded bound
  · exact fun rank bound handle state => inv.sound.status_zero bound

theorem pairSetup_uniform : Uniform (pairSetup 1) := by
  refine ⟨fun rank bound args member => rfl, ⟨.auto, fun bytes => ?_, fun rank bound => rfl⟩, ?_⟩
  · exact ⟨_, rfl⟩
  · decide +kernel

/-- Rank 0 is about to send, and has the descriptor it needs. -/
theorem transfers_match_pair : ∃ world, VerbsReachable (fun _ => true) (pairSetup 1) world ∧
    world.net.control 1 ≠ [] ∧ TransfersMatch (fun _ => true) (pairSetup 1) world := by
  have ran : (verbsFollow (fun _ => true) (pairSetup 1) [0, 0, 0, 1, 1, 1]).map
      (fun world => (world.net.control 1).length) = some 1 := by
    decide +kernel
  obtain ⟨world, followed, written⟩ := Option.map_eq_some_iff.mp ran
  have reachable := verbsReachable_of_follow followed
  exact ⟨world, reachable, List.length_pos_iff.mp (by omega),
    transfers_match pairSetup_uniform reachable⟩

end RingAllReduce.VerbsRing
