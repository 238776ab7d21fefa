import RingAllReduce.Acceptance
import RingAllReduce.Advance
import RingAllReduce.DescriptorMatching

/-!
All-Reduces over Verbs endpoints end. Every step uses up work a rank or the device has yet to do. In
a state without a next step the device is done with all sends, and a rank that has not returned
could only wait for its predecessor or for its successor, and so on round the ring.
-/

namespace RingAllReduce.VerbsRing

open Exchange Rotation VerbsTransport

variable {Value : Type} {setup : Setup Value} {rank : Nat} {world after : VerbsWorld Value}
  {room : Nat → Bool}

section Success

theorem OnSchedule.todo_code {state : RankState Handle} (onSchedule : OnSchedule setup rank state)
    {instr : Instr} {rest : List Instr} (todo : state.todo = instr :: rest) :
    ∃ call, instr ∈ setup.code rank call := by
  cases onSchedule.control with
  | inside call args found done code busy results sequence log =>
      exact ⟨call, by rw [code, todo]; simp⟩
  | between calls callsBound idle results sequence log => simp [idle] at todo
  | failed call args found done other rest code idle status error results log =>
      simp [idle] at todo

theorem results_success (uniform : Uniform setup) (accepted : AllReduces setup)
    (reachable : VerbsReachable (fun _ => true) setup world) :
    ∀ rank < setup.worldSize, ∀ status ∈ (world.rank rank).results, status = .success := by
  apply Runs.Reachable.strengthen (fun world : VerbsWorld Value => ∀ rank < setup.worldSize,
    ∀ status ∈ (world.rank rank).results, status = .success) reachable
  · simp [initialWorld, initialRank]
  · intro before after earlier succeeded step
    cases step with
    | background done => exact succeeded
    | rank mover moverBound taken =>
        intro rank bound
        by_cases here : rank = mover
        · subst here
          have steps := rankStep_cases taken
          cases steps with
          | enter call idle all next => simpa [RankState.enter] using succeeded rank bound
          | busy instr rest fabric memory todo outcome => simpa using succeeded rank bound
          | next instr rest fabric memory vars todo outcome =>
              simpa [RankState.advance] using succeeded rank bound
          | stop instr rest fabric memory status todo outcome =>
              have inv := verbsInvariant_of_reachable uniform (fun _ _ _ _ => ⟨rfl, rfl⟩) earlier
              have onSchedule := onSchedule_of_reachable earlier
              have noEvent := inv.not_stop uniform onSchedule bound rfl rfl todo outcome
              obtain ⟨call, inCode⟩ := OnSchedule.todo_code (onSchedule rank) todo
              have ended := perform_clear (accepted.code_clear bound call instr inCode) noEvent outcome
              rw [World.put_rank_same, RankState.leave]
              exact Splits.forall_snoc (succeeded rank bound) ended
        · have kept : after.rank rank = before.rank rank := by
            cases rankStep_cases taken <;> exact World.put_rank_other _ _ _ _ _ here
          rw [kept]
          exact succeeded rank bound

end Success

section Measure

def deviceWork (sends : List SendWork) : Nat :=
  2 * sends.countP (fun work => !work.executed) + 2 * sends.countP (fun work => !work.acknowledged)

/-- Work that is left, of the ranks, of the device and for polls. A rank pays for what its operation
gives to the device, and the device for the completion it leaves. -/
def workLeft (setup : Setup Value) (world : VerbsWorld Value) : Nat :=
  (∑ rank ∈ Finset.range setup.worldSize, 5 * (effort setup rank - progressOf (world.rank rank))) +
    (∑ rank ∈ Finset.range setup.worldSize, deviceWork (world.net.sends rank)) +
    ∑ rank ∈ Finset.range setup.worldSize, (world.net.cq rank).length

theorem deviceWork_modify (change : SendWork → SendWork)
    (executed : ∀ work, (change work).executed = work.executed)
    (acknowledged : ∀ work, (change work).acknowledged = work.acknowledged)
    (sends : List SendWork) (place : Nat) :
    deviceWork (sends.modify place change) = deviceWork sends := by
  unfold deviceWork
  rw [Splits.countP_modify_same _ change (fun work => by rw [executed]),
    Splits.countP_modify_same _ change (fun work => by rw [acknowledged])]

theorem poll_work {fabric fabric' : Fabric} (polled : fabric.poll rank = some fabric') :
    (∀ other, deviceWork (fabric'.sends other) = deviceWork (fabric.sends other)) ∧
      (∀ other, other ≠ rank → fabric'.cq other = fabric.cq other) ∧
      (fabric'.cq rank).length + 1 = (fabric.cq rank).length := by
  unfold Fabric.poll at polled
  split at polled
  · simp at polled
  rename_i handle completion rest queue
  obtain ⟨kind, place⟩ := handle
  cases kind with
  | send =>
      obtain rfl := Option.some.inj polled
      refine ⟨?_, fun other different => by simp [different], by simp [queue]⟩
      intro other
      by_cases here : other = rank
      · subst here
        simp only [Function.update_self]
        exact deviceWork_modify _ (by exact fun _ => rfl) (by exact fun _ => rfl) _ _
      · simp [here]
  | receive =>
      obtain rfl := Option.some.inj polled
      exact ⟨fun _ => rfl, fun other different => by simp [different], by simp [queue]⟩

theorem Performed.work {vars vars' : Variables Handle} {fabric fabric' : Fabric} {instr : Instr}
    (performed : Performed setup room rank vars fabric instr fabric' vars') :
    fabric'.cq = fabric.cq ∧
      (∀ other, other ≠ rank → deviceWork (fabric'.sends other) = deviceWork (fabric.sends other)) ∧
      deviceWork (fabric'.sends rank) ≤ deviceWork (fabric.sends rank) + 4 := by
  cases performed with
  | postRecv post mode => exact ⟨rfl, fun _ _ => rfl, Nat.le_add_right _ _⟩
  | postSend post mode control unread =>
      refine ⟨rfl, fun other different => by simp [Fabric.addSend, Fabric.read, different], ?_⟩
      simp [Fabric.addSend, Fabric.read, Fabric.sendWork, deviceWork]
      omega
  | waitRecv | waitSend | between => exact ⟨rfl, fun _ _ => rfl, Nat.le_add_right _ _⟩

theorem device_work {worldSize : Nat} {fabric fabric' : Fabric} {memory memory' : Nat → Memory Value}
    (step : DeviceStep worldSize fabric memory fabric' memory') :
    ∃ sender < worldSize, ∃ receiver < worldSize,
      (∀ other, other ≠ sender →
        deviceWork (fabric'.sends other) = deviceWork (fabric.sends other)) ∧
      deviceWork (fabric'.sends sender) + 2 = deviceWork (fabric.sends sender) ∧
      (∀ other, other ≠ receiver → fabric'.cq other = fabric.cq other) ∧
      (fabric'.cq receiver).length = (fabric.cq receiver).length + 1 := by
  cases step with
  | execute sender place target send recv bound isSend unexecuted =>
      refine ⟨sender, bound, next worldSize sender, next_lt (by omega) sender, ?_, ?_, ?_, ?_⟩
      · exact fun other different => by simp [Fabric.execute, different]
      · have executed := Splits.countP_modify (fun work : SendWork => !work.executed)
          (fun work => { work with
            executed := true, outcome := if send.fits recv then 0 else 11 }) isSend
        have same := Splits.countP_modify_same (fun work : SendWork => !work.acknowledged)
          (fun work => { work with
            executed := true, outcome := if send.fits recv then 0 else 11 }) (fun _ => rfl)
          (fabric.sends sender) place
        simp only [unexecuted, Bool.not_false, Bool.not_true, if_true, Bool.false_eq_true, if_false]
          at executed
        simp only [Fabric.execute, Function.update_self, deviceWork, same]
        omega
      · exact fun other different => by simp [Fabric.execute, different]
      · simp [Fabric.execute]
  | acknowledge sender place send bound isSend executed unacknowledged =>
      refine ⟨sender, bound, sender, bound, ?_, ?_, ?_, ?_⟩
      · exact fun other different => by simp [Fabric.acknowledge, different]
      · have acknowledged := Splits.countP_modify (fun work : SendWork => !work.acknowledged)
          (fun work => { work with acknowledged := true }) isSend
        have same := Splits.countP_modify_same (fun work : SendWork => !work.executed)
          (fun work => { work with acknowledged := true }) (fun _ => rfl) (fabric.sends sender) place
        simp only [unacknowledged, Bool.not_false, Bool.not_true, if_true, Bool.false_eq_true,
          if_false] at acknowledged
        simp only [Fabric.acknowledge, Function.update_self, deviceWork, same]
        omega
      · exact fun other different => by simp [Fabric.acknowledge, different]
      · simp [Fabric.acknowledge]

theorem workLeft_decreases {before after : VerbsWorld Value}
    (reachable : VerbsReachable room setup before)
    (step : Step setup (verbsTransport Value room setup.worldSize) before after) :
    workLeft setup after < workLeft setup before := by
  have later := fun rank => (onSchedule_of_reachable (reachable.next step) rank).progress_le
  unfold workLeft
  cases step with
  | @background fabric memory done =>
      obtain ⟨sender, bound, receiver, receiverBound, sends, less, cqs, more⟩ := device_work done
      have sendsSum := Runs.sum_change (fun rank => deviceWork (before.net.sends rank)) _ bound sends
      have cqSum := Runs.sum_change (fun rank => (before.net.cq rank).length)
        (fun rank => (fabric.cq rank).length) receiverBound
        fun other different => by rw [cqs other different]
      simp only at sendsSum cqSum ⊢
      omega
  | rank rank bound taken =>
      have finished := later rank
      cases rankStep_cases taken with
      | enter call idle succeeded next =>
          rw [World.put_rank_same] at finished
          have less := rank_progress 5 before.net (before.memory rank) bound
            (progress_enter idle call) finished
          simp only [World.put_net]
          omega
      | busy instr rest fabric memory todo outcome =>
          obtain ⟨works, cqs, polled⟩ := poll_work (perform_busy outcome).1
          have cqSum := Runs.sum_change (fun rank => (before.net.cq rank).length)
            (fun rank => (fabric.cq rank).length) bound fun other different => by
              rw [cqs other different]
          have same : (before.put rank (before.rank rank) fabric memory).rank = before.rank :=
            Function.update_eq_self rank before.rank
          simp only [World.put_net, same, works] at cqSum ⊢
          omega
      | next instr rest fabric memory vars todo outcome =>
          rw [World.put_rank_same] at finished
          obtain ⟨cqs, works, more⟩ := Performed.work (perform_next outcome)
          have less := rank_progress 5 fabric memory bound (progress_advance _ vars instr rest) finished
          have sendsSum := Runs.sum_change (fun rank => deviceWork (before.net.sends rank)) _ bound
            works
          simp only [World.put_net, cqs]
          omega
      | stop instr rest fabric memory status todo outcome =>
          rw [World.put_rank_same] at finished
          obtain ⟨⟨control, rfl⟩, -⟩ := perform_stop outcome
          have less := rank_progress 5 { before.net with control := control } memory bound
            (progress_leave _ instr status) finished
          dsimp only [World.put_net] at less ⊢
          omega

end Measure

section Quiet

variable {worldSize : Nat} {fabric : Fabric} {memory : Nat → Memory Value}

/-- A device with nothing to do has executed all sends. -/
theorem FabricSound.all_executed (sound : FabricSound worldSize fabric)
    (quiet : ∀ fabric' memory', ¬ DeviceStep worldSize fabric memory fabric' memory')
    (bound : rank < worldSize) : ∀ send ∈ fabric.sends rank, send.executed = true := by
  have link := sound.links rank bound
  have order := link.le
  obtain ⟨count, le, executed, consumed⟩ := link.moved
  have whole : count = (fabric.sends rank).length := by
    by_contra different
    have isSend := List.getElem?_eq_getElem (show count < (fabric.sends rank).length by omega)
    have isRecv := List.getElem?_eq_getElem
      (show count < (fabric.recvs (next worldSize rank)).length by omega)
    apply quiet _ _ (.execute rank count count _ _ bound isSend ?_ ?_ isRecv ?_ ?_)
    · simpa using (executed count _ isSend).not.mpr (Nat.lt_irrefl _)
    · exact fun earlier less work found => (executed earlier work found).mpr less
    · simpa using (consumed count _ isRecv).not.mpr (Nat.lt_irrefl _)
    · exact fun earlier less work found => (consumed earlier work found).mpr less
  intro send member
  obtain ⟨place, found⟩ := List.mem_iff_getElem?.mp member
  have inside := (List.getElem?_eq_some_iff.mp found).1
  exact (executed place send found).mpr (by omega)

theorem FabricSound.all_acknowledged (sound : FabricSound worldSize fabric)
    (quiet : ∀ fabric' memory', ¬ DeviceStep worldSize fabric memory fabric' memory')
    (bound : rank < worldSize) : ∀ send ∈ fabric.sends rank, send.acknowledged = true := by
  intro send member
  by_contra unacknowledged
  obtain ⟨place, found⟩ := List.mem_iff_getElem?.mp member
  exact quiet _ _ (.acknowledge rank place send bound found
    (sound.all_executed quiet bound send member) (by simpa using unacknowledged))

theorem FabricSound.unsent (sound : FabricSound worldSize fabric)
    (quiet : ∀ fabric' memory', ¬ DeviceStep worldSize fabric memory fabric' memory')
    (bound : rank < worldSize) {place : Nat} {recv : RecvWork}
    (found : (fabric.recvs (next worldSize rank))[place]? = some recv)
    (unconsumed : recv.consumed = false) : (fabric.sends rank).length ≤ place := by
  obtain ⟨count, le, executed, consumed⟩ := (sound.links rank bound).moved
  have late : ¬ place < count := fun less => by
    simp [(consumed place recv found).mpr less] at unconsumed
  by_contra early
  have isSend := List.getElem?_eq_getElem (show place < (fabric.sends rank).length by omega)
  have done := sound.all_executed quiet bound _ (List.mem_of_getElem? isSend)
  exact late ((executed place _ isSend).mp done)

theorem waitRequest_blocked {handle : Handle} {memory : Memory Value}
    {request : VerbsTransport.RequestState} (found : fabric.stateOf rank handle = some request)
    (blocked : waitRequest rank handle fabric memory = .blocked) :
    request.completed = false ∧ fabric.cq rank = [] := by
  simp only [waitRequest, found] at blocked
  split at blocked
  · simp at blocked
  · rename_i incomplete
    split at blocked
    · rename_i polled
      refine ⟨by simpa using incomplete, ?_⟩
      unfold Fabric.poll at polled
      split at polled
      · assumption
      · rename_i handle completion rest queue
        obtain ⟨kind, place⟩ := handle
        cases kind <;> simp at polled
    · simp at blocked

end Quiet

section Stuck

/-- A rank is held up by a receive its successor has yet to post. -/
def Held (setup : Setup Value) (world : VerbsWorld Value) (rank : Nat) : Prop :=
  ∃ post rest, (world.rank rank).todo = .postSend post :: rest ∧
    (world.net.sends rank).length = (world.net.recvs (next setup.worldSize rank)).length

/-- What keeps a rank from going on while the device has nothing to do. -/
inductive Stuck (setup : Setup Value) (world : VerbsWorld Value) (rank : Nat) : Prop
  | ended (idle : (world.rank rank).todo = [])
      (results : (world.rank rank).results.length = setup.calls.length)
  | held (held : Held setup world rank)
  | waits (waiting : Waiting setup world.rank rank)

theorem stuck_of_noStep (inv : VerbsInvariant setup world) (uniform : Uniform setup)
    (onSchedule : ∀ rank, OnSchedule setup rank (world.rank rank)) (bound : rank < setup.worldSize)
    (succeeded : ∀ status ∈ (world.rank rank).results, status = .success)
    (quiet : ∀ fabric memory, ¬ DeviceStep setup.worldSize world.net world.memory fabric memory)
    (noStep : rankStep setup (verbsTransport Value (fun _ => true) setup.worldSize) rank world =
      none) : Stuck setup world rank := by
  have scheduled := onSchedule rank
  have link := inv.sound.links rank bound
  cases todo : (world.rank rank).todo with
  | nil =>
      refine .ended todo ?_
      have all : (world.rank rank).results.all (· = .success) = true := by simpa using succeeded
      simp only [rankStep, todo, all, if_true] at noStep
      split at noStep
      · simp at noStep
      · rename_i none
        have most := List.getElem?_eq_none_iff.mp none
        cases scheduled.control with
        | between calls callsBound idle results sequence log =>
            rw [results, List.length_replicate] at most ⊢
            omega
        | inside call args found done code busy results sequence log => exact absurd todo busy
        | failed call args found done instr rest code idle status error results log =>
            exact absurd (succeeded status (by simp [results])) error
  | cons instr rest =>
      have blocked := rankStep_eq_none todo noStep
      cases instr with
      | postRecv post =>
          obtain ⟨mode, -, done⟩ := @VerbsInvariant.postRecv_done _ _ rank world (fun _ => true) _ _
            uniform scheduled bound todo rfl
          simp [blocked] at done
      | postSend post =>
          refine .held ⟨post, rest, todo, ?_⟩
          obtain ⟨mode, -, ⟨empty, -⟩ | ⟨recv, unread, -, -, -, -, done⟩⟩ :=
            @VerbsInvariant.postSend_done _ _ rank world (fun _ => true) _ _ inv uniform onSchedule
              bound todo rfl
          · have control := link.control
            rw [empty, eq_comm, List.map_eq_nil_iff, List.drop_eq_nil_iff] at control
            exact Nat.le_antisymm link.le control
          · simp [blocked] at done
      | waitRecv post =>
          refine .waits ⟨post, rest, todo, ?_⟩
          obtain ⟨inside, slot⟩ := (inv.kept rank bound).waitRecv_handle scheduled bound todo
          have isWork := List.getElem?_eq_getElem inside
          have found : world.net.stateOf rank (.receive, _) = some _ :=
            congrArg (Option.map RecvWork.state) isWork
          simp only [perform, slot] at blocked
          obtain ⟨incomplete, empty⟩ := waitRequest_blocked found (Outcome.map_eq_blocked blocked)
          have owed := (inv.sound.ranks rank bound).servedRecvs.owed
            (recvWaits (events (world.rank rank).log)).length
          rintro prev prevBound rfl
          rw [← (inv.kept prev prevBound).sendWorks, List.length_map]
          apply inv.sound.unsent quiet prevBound isWork
          by_contra consumed
          rw [empty] at owed
          simpa using owed.mpr ⟨_, isWork, by simpa using consumed, incomplete⟩
      | waitSend post =>
          obtain ⟨inside, slot⟩ := (inv.kept rank bound).waitSend_handle scheduled bound todo
          have isWork := List.getElem?_eq_getElem inside
          have found : world.net.stateOf rank (.send, _) = some _ :=
            congrArg (Option.map SendWork.state) isWork
          simp only [perform, slot] at blocked
          obtain ⟨incomplete, empty⟩ := waitRequest_blocked found (Outcome.map_eq_blocked blocked)
          have owed := (inv.sound.ranks rank bound).servedSends.owed
            (sendWaits (events (world.rank rank).log)).length
          have acknowledged := inv.sound.all_acknowledged quiet bound _
            (List.mem_of_getElem? isWork)
          rw [empty] at owed
          simpa using owed.mpr ⟨_, isWork, acknowledged, incomplete⟩
      | _ =>
          exact absurd blocked
            (@perform_local_busy _ _ _ _ _ _ _ _ world.net _ (world.memory rank) _ rfl).2

/-- A rank that has made all calls has posted all sends and all receives. -/
theorem Stuck.counts (inv : VerbsInvariant setup world) (onSchedule : OnSchedule setup rank
    (world.rank rank)) (bound : rank < setup.worldSize) (idle : (world.rank rank).todo = [])
    (results : (world.rank rank).results.length = setup.calls.length)
    (succeeded : ∀ status ∈ (world.rank rank).results, status = .success) :
    (world.net.sends rank).length = (setup.sent rank).length ∧
      (world.net.recvs rank).length = (setup.expected rank).length := by
  obtain ⟨control, noError⟩ := onSchedule
  have whole : events (world.rank rank).log = run (setup.plan rank) := by
    cases control with
    | between calls callsBound idle results' sequence log =>
        rw [results', List.length_replicate] at results
        rw [log] at noError ⊢
        rw [results] at noError ⊢
        exact events_codeUpTo bound (Nat.le_refl _) noError
    | inside call args found done code busy results' sequence log => exact absurd idle busy
    | failed call args found done instr rest code todo status error results' log =>
        exact absurd (succeeded status (by simp [results'])) error
  have sends := congrArg List.length (inv.kept rank bound).sendWorks
  have recvs := congrArg List.length (inv.kept rank bound).recvWorks
  rw [whole, sendPosts_run, List.length_map] at sends
  rw [whole, recvPosts_run, List.length_map] at recvs
  rw [Setup.sent, Setup.expected, List.length_map, List.length_map]
  exact ⟨sends, recvs⟩

end Stuck

section Circle

variable (inv : VerbsInvariant setup world) (uniform : Uniform setup)
  (onSchedule : ∀ rank, OnSchedule setup rank (world.rank rank))

include inv uniform onSchedule

theorem not_all_held (held : ∀ rank < setup.worldSize, Held setup world rank) : False := by
  obtain ⟨any, -, -, -⟩ := held 0 setup.positive
  have known : ∀ rank, ∃ post after, rank < setup.worldSize →
      run (setup.plan rank) = events (world.rank rank).log ++ .postSend post :: after ∧
      (setup.sent rank)[(world.net.sends rank).length]? = some post.toPiece ∧
      (world.net.sends rank).length = (world.net.recvs (next setup.worldSize rank)).length := by
    intro rank
    by_cases bound : rank < setup.worldSize
    · obtain ⟨post, rest, todo, all⟩ := held rank bound
      obtain ⟨after, split⟩ := (onSchedule rank).events_next bound todo rfl
      have sent := (onSchedule rank).next_sent bound todo
      rw [← (inv.kept rank bound).sendWorks, List.length_map] at sent
      exact ⟨post, after, fun _ => ⟨split, sent, all⟩⟩
    · exact ⟨any, [], fun inside => absurd inside bound⟩
  choose blocked after facts using known
  apply no_send_cycle setup.positive (fun rank _ => setup.plan_ordered rank)
    (fun rank bound => (facts rank bound).1)
  · intro rank bound
    have wanted := (facts rank bound).2.1
    rw [setup.sent_eq_expected bound (uniform.samePieces rank bound)] at wanted
    exact List.mem_of_getElem? wanted
  · intro rank bound
    obtain ⟨-, wanted, all⟩ := facts rank bound
    have nextBound := next_lt setup.positive rank
    have ahead := (onSchedule (next setup.worldSize rank)).recvs_isPrefix nextBound
    rw [← setup.sent_eq_expected bound (uniform.samePieces rank bound)] at ahead
    apply Splits.not_mem_of_prefix ahead (setup.sent_nodup rank) wanted
    rw [← (inv.kept _ nextBound).recvWorks, List.length_map, List.length_map, all]

variable (succeeded : ∀ rank < setup.worldSize,
    ∀ status ∈ (world.rank rank).results, status = .success)
  (stuck : ∀ rank < setup.worldSize, Stuck setup world rank)

include succeeded stuck

/-- Waiting spreads to the predecessor, which has something to send but no descriptor to wait for. -/
theorem waiting_back (bound : rank < setup.worldSize)
    (waiting : Waiting setup world.rank (next setup.worldSize rank)) :
    Waiting setup world.rank rank := by
  have nextBound := next_lt setup.positive rank
  obtain ⟨post, rest, todo, unsent⟩ := waiting
  have late := unsent rank bound rfl
  rw [← (inv.kept rank bound).sendWorks, List.length_map] at late
  have inside := ((inv.kept _ nextBound).waitRecv_handle (onSchedule _) nextBound todo).1
  have posted := (inv.kept _ nextBound).recvWorks
  have expected := ((onSchedule (next setup.worldSize rank)).recvs_isPrefix nextBound).length_le
  rw [← posted, List.length_map, List.length_map,
    ← setup.sent_eq_expected bound (uniform.samePieces rank bound)] at expected
  cases stuck rank bound with
  | ended idle results =>
      have counts :=
        (Stuck.counts inv (onSchedule rank) bound idle results (succeeded rank bound)).1
      omega
  | held held =>
      obtain ⟨post, rest, todo, all⟩ := held
      omega
  | waits waiting => exact waiting

theorem held_next (none : ∀ rank < setup.worldSize, ¬ Waiting setup world.rank rank)
    (bound : rank < setup.worldSize) (held : Held setup world rank) :
    Held setup world (next setup.worldSize rank) := by
  have nextBound := next_lt setup.positive rank
  obtain ⟨post, rest, todo, all⟩ := held
  have sent := (onSchedule rank).next_sent bound todo
  rw [← (inv.kept rank bound).sendWorks, List.length_map,
    setup.sent_eq_expected bound (uniform.samePieces rank bound)] at sent
  have inside := (List.getElem?_eq_some_iff.mp sent).1
  cases stuck _ nextBound with
  | ended idle results =>
      have counts := (Stuck.counts inv (onSchedule _) nextBound idle results
        (succeeded _ nextBound)).2
      omega
  | held held => exact held
  | waits waiting => exact absurd waiting (none _ nextBound)

/-- Where no rank and not the device can go on, all ranks have made all calls. -/
theorem all_ended : ∀ rank < setup.worldSize, (world.rank rank).todo = [] ∧
    (world.rank rank).results.length = setup.calls.length := by
  have noneWaits : ∀ rank < setup.worldSize, ¬ Waiting setup world.rank rank := by
    intro rank bound waiting
    apply not_all_waiting uniform.samePieces onSchedule
    exact spreads_back bound waiting fun place placeBound waits =>
      waiting_back inv uniform onSchedule succeeded stuck placeBound waits
  intro rank bound
  cases stuck rank bound with
  | ended idle results => exact ⟨idle, results⟩
  | waits waiting => exact absurd waiting (noneWaits rank bound)
  | held held =>
      exfalso
      apply not_all_held inv uniform onSchedule
      exact spreads bound held fun place placeBound held =>
        held_next inv uniform onSchedule succeeded stuck noneWaits placeBound held

end Circle

/-- Whatever the interleaving, All-Reduces over Verbs endpoints do not deadlock: there is always a
next step of a rank or of the device, each step leaves less work, and in the end all calls have
returned successfully on all ranks. -/
theorem all_reduces_terminate {setup : Setup Value} (uniform : Uniform setup)
    (accepted : AllReduces setup) :
    (∀ before after, VerbsReachable (fun _ => true) setup before →
      Step setup (verbsTransport Value (fun _ => true) setup.worldSize) before after →
        workLeft setup after < workLeft setup before) ∧
    (∀ world, VerbsReachable (fun _ => true) setup world →
      (∃ rank < setup.worldSize, (world.rank rank).results.length < setup.calls.length) →
        (∃ rank < setup.worldSize, (rankStep setup
          (verbsTransport Value (fun _ => true) setup.worldSize) rank world).isSome) ∨
        ∃ fabric memory, DeviceStep setup.worldSize world.net world.memory fabric memory) ∧
    (∀ run : Nat → VerbsWorld Value, run 0 = initialWorld setup idleFabric →
      ¬ ∀ index, Step setup (verbsTransport Value (fun _ => true) setup.worldSize) (run index)
        (run (index + 1))) ∧
    ∀ world, VerbsReachable (fun _ => true) setup world →
      Runs.Terminal (Step setup (verbsTransport Value (fun _ => true) setup.worldSize)) world →
        ∀ rank < setup.worldSize, (world.rank rank).todo = [] ∧
          (world.rank rank).results = List.replicate setup.calls.length .success := by
  have ended : ∀ world, VerbsReachable (fun _ => true) setup world →
      (∀ rank < setup.worldSize, rankStep setup
        (verbsTransport Value (fun _ => true) setup.worldSize) rank world = none) →
      (∀ fabric memory, ¬ DeviceStep setup.worldSize world.net world.memory fabric memory) →
      ∀ rank < setup.worldSize, (world.rank rank).todo = [] ∧
        (world.rank rank).results.length = setup.calls.length := by
    intro world reachable noStep quiet
    have inv := verbsInvariant_of_reachable uniform (fun _ _ _ _ => ⟨rfl, rfl⟩) reachable
    have onSchedule := onSchedule_of_reachable reachable
    have succeeded := results_success uniform accepted reachable
    exact all_ended inv uniform onSchedule succeeded fun rank bound =>
      stuck_of_noStep inv uniform onSchedule bound (succeeded rank bound) quiet (noStep rank bound)
  refine ⟨fun before after reachable step => workLeft_decreases reachable step, ?_, ?_, ?_⟩
  · rintro world reachable ⟨rank, bound, unfinished⟩
    by_contra none
    simp only [not_or, not_exists, not_and, Bool.not_eq_true, Option.isSome_eq_false_iff,
      Option.isNone_iff_eq_none] at none
    have done := (ended world reachable none.1 none.2 rank bound).2
    omega
  · intro run start
    exact Runs.no_infinite (workLeft setup)
      (fun before after reachable step => workLeft_decreases reachable step) run start
  · intro world reachable terminal rank bound
    have done := ended world reachable
      (fun rank bound => by
        cases taken : rankStep setup (verbsTransport Value (fun _ => true) setup.worldSize) rank
            world with
        | none => rfl
        | some after => exact absurd (.rank rank bound taken) (terminal after))
      (fun fabric memory step => terminal _ (.background step)) rank bound
    refine ⟨done.1, List.eq_replicate_iff.mpr ⟨done.2, ?_⟩⟩
    exact results_success uniform accepted reachable rank bound

theorem pairSetup_accepted : AllReduces (pairSetup 1) := by
  refine ⟨by decide, ?_, ?_⟩
  · intro args member
    rw [List.mem_singleton.mp member]
    decide
  · intro args member rank rankBound block blockBound
    rw [List.mem_singleton.mp member]
    revert block rank
    decide +kernel

theorem all_reduces_terminate_pair :
    (¬ ∃ run : Nat → VerbsWorld Nat, run 0 = initialWorld (pairSetup 1) idleFabric ∧
      ∀ index, Step (pairSetup 1) (verbsTransport Nat (fun _ => true) 2) (run index)
        (run (index + 1))) ∧
    ∀ world, VerbsReachable (fun _ => true) (pairSetup 1) world →
      Runs.Terminal (Step (pairSetup 1) (verbsTransport Nat (fun _ => true) 2)) world →
        (world.rank 0).results = [.success] ∧ (world.rank 1).results = [.success] := by
  obtain ⟨-, -, noInfinite, ends⟩ := all_reduces_terminate pairSetup_uniform pairSetup_accepted
  constructor
  · rintro ⟨run, start, steps⟩
    exact noInfinite run start steps
  · intro world reachable terminal
    have ended := ends world reachable terminal
    exact ⟨(ended 0 (by decide)).2, (ended 1 (by decide)).2⟩

end RingAllReduce.VerbsRing
