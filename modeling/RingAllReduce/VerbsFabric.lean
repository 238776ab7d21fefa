import RingAllReduce.VerbsCompletions

/-! The fabric as a whole: every post that succeeds, every poll and every step of the device keep
all links and all completion queues in order. -/

namespace RingAllReduce.VerbsRing

open Rotation VerbsTransport

variable {Value : Type} {room : Nat → Bool} {worldSize rank : Nat} {fabric fabric' : Fabric}
  {memory memory' : Memory Value} {post : Post} {mode : TransferMode}

structure FabricSound (worldSize : Nat) (fabric : Fabric) : Prop where
  links : ∀ rank < worldSize, LinkSound (fabric.sends rank) (fabric.recvs (next worldSize rank))
    (fabric.control (next worldSize rank))
  ranks : ∀ rank < worldSize, RankSound (fabric.sends rank) (fabric.recvs rank) (fabric.cq rank)

theorem idle_sound (worldSize : Nat) : FabricSound worldSize idleFabric :=
  ⟨fun _ _ => .empty, fun _ _ => .empty⟩

/-- What a post checks before it reaches the device or the control socket. -/
def Postable (post : Post) (mode : TransferMode) : Prop :=
  0 < post.bytes ∧ post.bytes ≤ maxUInt32 ∧ chooseMode post.mode post.bytes = .ok mode

/-- The next descriptor on a link is that of the receive the next send is for. -/
theorem LinkSound.head {sends : List SendWork} {recvs : List RecvWork} {control : List Descriptor}
    (link : LinkSound sends recvs control) {recv : RecvWork}
    (found : recvs[sends.length]? = some recv) :
    ∃ unread, control = recv.descriptor :: unread := by
  obtain ⟨bound, rfl⟩ := List.getElem?_eq_some_iff.mp found
  exact ⟨_, by rw [link.control, List.drop_eq_getElem_cons bound, List.map_cons]⟩

theorem LinkSound.waiting {sends : List SendWork} {recvs : List RecvWork} {head : Descriptor}
    {unread : List Descriptor} (link : LinkSound sends recvs (head :: unread)) :
    ∃ recv, recvs[sends.length]? = some recv ∧ head = recv.descriptor := by
  have control := link.control
  have bound : sends.length < recvs.length := by
    by_contra all
    rw [List.drop_eq_nil_of_le (by omega)] at control
    simp at control
  rw [List.drop_eq_getElem_cons bound, List.map_cons, List.cons.injEq] at control
  exact ⟨_, List.getElem?_eq_getElem bound, control.1⟩

theorem not_mismatch {recv : RecvWork} (sound : recv.Sound) (postable : Postable post mode)
    (tag : post.tag = recv.post.tag) (bytes : post.bytes = recv.post.bytes)
    (requested : post.mode = recv.post.mode) : ¬ Mismatch recv.descriptor post mode := by
  have small := sound.bytes
  have chosen := sound.chosen
  rw [← bytes, ← requested, postable.2.2] at chosen
  simp only [Mismatch, RecvWork.descriptor, not_or, not_not]
  refine ⟨trivial, tag.symm, ?_, by rw [Except.ok.inj chosen]⟩
  rw [UInt32.toNat_ofNat_of_lt' (by simp only [maxUInt32] at small; simp only [UInt32.size]; omega),
    bytes]

section Posts

theorem postReceivePrevious_ok (postable : Postable post mode)
    (hasRoom : room (unpolledRecvs (fabric.recvs rank)) = true) :
    postReceivePrevious room rank post fabric memory =
      .done (fabric.addRecv rank (fabric.receiveWork rank post mode), memory)
        (some (.receive, (fabric.recvs rank).length)) := by
  obtain ⟨positive, small, chosen⟩ := postable
  rw [postReceivePrevious, if_neg (by omega), chosen]
  simp [hasRoom]

theorem postReceivePrevious_done {answer : Option Handle}
    (done : postReceivePrevious room rank post fabric memory = .done (fabric', memory') answer) :
    memory' = memory ∧ ((answer = none ∧ fabric' = fabric) ∨
      ∃ mode, Postable post mode ∧ room (unpolledRecvs (fabric.recvs rank)) = true ∧
        answer = some (.receive, (fabric.recvs rank).length) ∧
        fabric' = fabric.addRecv rank (fabric.receiveWork rank post mode)) := by
  unfold postReceivePrevious at done
  split at done
  · simp only [Outcome.done.injEq, Prod.mk.injEq] at done
    exact ⟨done.1.2.symm, Or.inl ⟨done.2.symm, done.1.1.symm⟩⟩
  · rename_i sized
    split at done
    · simp only [Outcome.done.injEq, Prod.mk.injEq] at done
      exact ⟨done.1.2.symm, Or.inl ⟨done.2.symm, done.1.1.symm⟩⟩
    · rename_i mode chosen
      split at done
      · simp only [Outcome.done.injEq, Prod.mk.injEq] at done
        exact ⟨done.1.2.symm, Or.inl ⟨done.2.symm, done.1.1.symm⟩⟩
      · rename_i hasRoom
        simp only [Outcome.done.injEq, Prod.mk.injEq] at done
        exact ⟨done.1.2.symm, Or.inr ⟨mode, ⟨by omega, by omega, chosen⟩, by simpa using hasRoom,
          done.2.symm, done.1.1.symm⟩⟩

theorem postSendNext_ok (postable : Postable post mode) {control : Descriptor}
    {unread : List Descriptor} (available : fabric.control (next worldSize rank) = control :: unread)
    (matched : ¬ Mismatch control post mode)
    (hasRoom : room (unpolledSends (fabric.sends rank)) = true) :
    postSendNext room worldSize rank post fabric memory =
      .done ((fabric.read (next worldSize rank) unread).addSend rank
          ((fabric.read (next worldSize rank) unread).sendWork rank post mode control), memory)
        (some (.send, (fabric.sends rank).length)) := by
  obtain ⟨positive, small, chosen⟩ := postable
  rw [postSendNext, if_neg (by omega), chosen]
  simp [available, matched, hasRoom, Fabric.read]

theorem postSendNext_done {answer : Option Handle}
    (done : postSendNext room worldSize rank post fabric memory = .done (fabric', memory') answer) :
    memory' = memory ∧ ((answer = none ∧ ∃ control, fabric' = { fabric with control := control }) ∨
      ∃ mode control unread, Postable post mode ∧
        fabric.control (next worldSize rank) = control :: unread ∧ ¬ Mismatch control post mode ∧
        room (unpolledSends (fabric.sends rank)) = true ∧
        answer = some (.send, (fabric.sends rank).length) ∧
        fabric' = (fabric.read (next worldSize rank) unread).addSend rank
          ((fabric.read (next worldSize rank) unread).sendWork rank post mode control)) := by
  unfold postSendNext at done
  split at done
  · simp only [Outcome.done.injEq, Prod.mk.injEq] at done
    exact ⟨done.1.2.symm, Or.inl ⟨done.2.symm, _, done.1.1.symm⟩⟩
  · rename_i sized
    split at done
    · simp only [Outcome.done.injEq, Prod.mk.injEq] at done
      exact ⟨done.1.2.symm, Or.inl ⟨done.2.symm, _, done.1.1.symm⟩⟩
    · rename_i mode chosen
      split at done
      · simp at done
      · rename_i control unread available
        simp only at done
        split at done
        · simp only [Outcome.done.injEq, Prod.mk.injEq] at done
          exact ⟨done.1.2.symm, Or.inl ⟨done.2.symm, _, done.1.1.symm⟩⟩
        · rename_i matched
          split at done
          · simp only [Outcome.done.injEq, Prod.mk.injEq] at done
            exact ⟨done.1.2.symm, Or.inl ⟨done.2.symm, _, done.1.1.symm⟩⟩
          · rename_i hasRoom
            simp only [Outcome.done.injEq, Prod.mk.injEq] at done
            exact ⟨done.1.2.symm, Or.inr ⟨mode, control, unread, ⟨by omega, by omega, chosen⟩,
              available, matched, by simpa [Fabric.read] using hasRoom, done.2.symm,
              done.1.1.symm⟩⟩

end Posts

theorem poll_onLink (polled : fabric.poll rank = some fabric') (other : Nat) :
    (fabric'.sends other).map SendWork.onLink = (fabric.sends other).map SendWork.onLink ∧
      (fabric'.recvs other).map RecvWork.onLink = (fabric.recvs other).map RecvWork.onLink ∧
      fabric'.control other = fabric.control other := by
  unfold Fabric.poll at polled
  split at polled
  · simp at polled
  rename_i handle completion rest queue
  obtain ⟨kind, place⟩ := handle
  cases kind with
  | send =>
      obtain rfl := Option.some.inj polled
      refine ⟨?_, rfl, rfl⟩
      by_cases here : other = rank
      · subst here
        simp only [Function.update_self]
        exact Splits.map_modify_same SendWork.onLink (by exact fun _ => rfl) _ _
      · simp [here]
  | receive =>
      obtain rfl := Option.some.inj polled
      refine ⟨rfl, ?_, rfl⟩
      by_cases here : other = rank
      · subst here
        simp only [Function.update_self]
        exact Splits.map_modify_same RecvWork.onLink (by exact fun _ => rfl) _ _
      · simp [here]

section Sound

variable (sound : FabricSound worldSize fabric) (bound : rank < worldSize)

include sound bound

theorem FabricSound.addRecv (postable : Postable post mode) :
    FabricSound worldSize (fabric.addRecv rank (fabric.receiveWork rank post mode)) := by
  constructor
  · intro sender senderBound
    have link := sound.links sender senderBound
    by_cases here : next worldSize sender = rank
    · subst here
      simpa [Fabric.addRecv] using link.addRecv rfl
    · simpa [Fabric.addRecv, here] using link
  · intro other otherBound
    have before := sound.ranks other otherBound
    by_cases here : other = rank
    · subst here
      have work : (fabric.receiveWork other post mode).Sound :=
        ⟨rfl, rfl, rfl, postable.2.2, postable.2.1, by simp [Fabric.receiveWork, Fabric.newState]⟩
      simpa [Fabric.addRecv] using before.addRecv work rfl
    · simpa [Fabric.addRecv, here] using before

theorem FabricSound.addSend (postable : Postable post mode) {control : Descriptor}
    {unread : List Descriptor} (available : fabric.control (next worldSize rank) = control :: unread)
    (matched : ¬ Mismatch control post mode) :
    FabricSound worldSize ((fabric.read (next worldSize rank) unread).addSend rank
      ((fabric.read (next worldSize rank) unread).sendWork rank post mode control)) := by
  have known := chooseMode_ok postable.2.2
  have positive : 0 < worldSize := by omega
  constructor
  · intro sender senderBound
    have link := sound.links sender senderBound
    by_cases here : sender = rank
    · subst here
      rw [available] at link
      have added : LinkSound (fabric.sends sender ++
          [(fabric.read (next worldSize sender) unread).sendWork sender post mode control])
          (fabric.recvs (next worldSize sender)) unread :=
        link.addSend rfl rfl known matched (sound.ranks _ (next_lt positive sender)).soundRecvs
      simpa [Fabric.read, Fabric.addSend] using added
    · have different : next worldSize sender ≠ next worldSize rank := fun eq =>
        here (next_injective senderBound bound eq)
      simpa [Fabric.read, Fabric.addSend, here, different] using link
  · intro other otherBound
    have before := sound.ranks other otherBound
    by_cases here : other = rank
    · subst here
      have work : ((fabric.read (next worldSize other) unread).sendWork other post mode
          control).Sound :=
        ⟨rfl, rfl, rfl, rfl, postable.2.2, postable.2.1,
          by simp [Fabric.sendWork, Fabric.newState], by simp [Fabric.sendWork]⟩
      simpa [Fabric.read, Fabric.addSend] using before.addSend work rfl
    · simpa [Fabric.read, Fabric.addSend, here] using before

theorem FabricSound.poll (polled : fabric.poll rank = some fabric') :
    FabricSound worldSize fabric' := by
  constructor
  · intro sender senderBound
    obtain ⟨sends, -, -⟩ := poll_onLink polled sender
    obtain ⟨-, recvs, control⟩ := poll_onLink polled (next worldSize sender)
    rw [control]
    exact (sound.links sender senderBound).congr sends recvs
  · intro other otherBound
    have mine := sound.ranks rank bound
    have before := sound.ranks other otherBound
    unfold Fabric.poll at polled
    split at polled
    · simp at polled
    rename_i handle completion rest queue
    rw [queue] at mine
    obtain ⟨kind, place⟩ := handle
    cases kind with
    | send =>
        obtain rfl := Option.some.inj polled
        by_cases here : other = rank
        · subst here
          simpa using mine.pollSend
        · simpa [here] using before
    | receive =>
        obtain rfl := Option.some.inj polled
        by_cases here : other = rank
        · subst here
          simpa using mine.pollRecv
        · simpa [here] using before

end Sound

/-- What the device moves next on a link: the data of a send to the receive it answers. -/
theorem FabricSound.moves (sound : FabricSound worldSize fabric) {sender place target : Nat}
    {send : SendWork} {recv : RecvWork} (bound : sender < worldSize)
    (isSend : (fabric.sends sender)[place]? = some send) (unexecuted : send.executed = false)
    (sendsBefore : ∀ earlier < place, ∀ work, (fabric.sends sender)[earlier]? = some work →
      work.executed = true)
    (isRecv : (fabric.recvs (next worldSize sender))[target]? = some recv)
    (unconsumed : recv.consumed = false)
    (recvsBefore : ∀ earlier < target, ∀ work,
      (fabric.recvs (next worldSize sender))[earlier]? = some work → work.consumed = true) :
    target = place ∧ send.Answers recv ∧
      FabricSound worldSize (fabric.execute sender (next worldSize sender) place target send recv) := by
  have link := sound.links sender bound
  have receiverBound := next_lt (show 0 < worldSize by omega) sender
  obtain ⟨rfl, answers⟩ := link.oldest isSend unexecuted sendsBefore isRecv unconsumed recvsBefore
  refine ⟨rfl, answers, ?_, ?_⟩
  · intro other otherBound
    by_cases here : other = sender
    · subst here
      simpa [Fabric.execute] using link.execute isSend unexecuted sendsBefore _
    · have different : next worldSize other ≠ next worldSize sender := fun eq =>
        here (next_injective otherBound bound eq)
      simpa [Fabric.execute, here, different] using sound.links other otherBound
  · intro other otherBound
    have before := sound.ranks other otherBound
    -- the sender's queue first, then the receiver's, which may be the same rank
    have sent : RankSound ((fabric.execute sender (next worldSize sender) target target send
        recv).sends other) (fabric.recvs other) (fabric.cq other) := by
      by_cases here : other = sender
      · subst here
        simpa [Fabric.execute, fits_of_answers answers] using before.execute target
      · simpa [Fabric.execute, here] using before
    by_cases here : other = next worldSize sender
    · subst here
      have succeeded := recvCompletion_succeeded answers
        (before.soundRecvs recv (List.mem_of_getElem? isRecv)) target
      have received := sent.consume isRecv unconsumed succeeded
      simpa [Fabric.execute] using received
    · simpa [Fabric.execute, here] using sent

theorem FabricSound.acknowledges (sound : FabricSound worldSize fabric) {sender place : Nat}
    {send : SendWork} (isSend : (fabric.sends sender)[place]? = some send)
    (executed : send.executed = true) (unacknowledged : send.acknowledged = false) :
    FabricSound worldSize (fabric.acknowledge sender place send) := by
  constructor
  · intro other otherBound
    refine (sound.links other otherBound).congr ?_ rfl
    by_cases here : other = sender
    · subst here
      simp only [Fabric.acknowledge, Function.update_self]
      exact Splits.map_modify_same SendWork.onLink (by exact fun _ => rfl) _ _
    · simp [Fabric.acknowledge, here]
  · intro other otherBound
    have before := sound.ranks other otherBound
    by_cases here : other = sender
    · subst here
      simpa [Fabric.acknowledge] using before.acknowledge isSend executed unacknowledged
    · simpa [Fabric.acknowledge, here] using before

theorem FabricSound.device (sound : FabricSound worldSize fabric)
    {memory memory' : Nat → Memory Value}
    (step : DeviceStep worldSize fabric memory fabric' memory') : FabricSound worldSize fabric' := by
  cases step with
  | execute sender place target send recv bound isSend unexecuted sendsBefore isRecv unconsumed
      recvsBefore =>
      exact (sound.moves bound isSend unexecuted sendsBefore isRecv unconsumed recvsBefore).2.2
  | acknowledge sender place send bound isSend executed unacknowledged =>
      exact sound.acknowledges isSend executed unacknowledged

end RingAllReduce.VerbsRing
