import RingAllReduce.Library.Splits
import RingAllReduce.VerbsRing

/-!
What holds on every link and on every completion queue, whatever the ranks post. A link has three
orders: that of the descriptors, that of the sends and that of the receives. As long as no post has
failed they are one.
-/

namespace RingAllReduce.VerbsRing

open Rotation VerbsTransport

/-- A send answers the descriptor of a receive of the same data. -/
structure SendWork.Answers (send : SendWork) (recv : RecvWork) : Prop where
  control : send.control = recv.descriptor
  tag : send.post.tag = recv.post.tag
  bytes : send.post.bytes = recv.post.bytes
  mode : send.state.mode = recv.state.mode

theorem chooseMode_ok {requested mode : TransferMode} {bytes : Nat}
    (chosen : chooseMode requested bytes = .ok mode) : mode = .eager ∨ mode = .rendezvous := by
  unfold chooseMode at chosen
  split at chosen
  · exact Or.inl (Except.ok.inj chosen).symm
  · exact Or.inr (Except.ok.inj chosen).symm
  · simp at chosen
  · split at chosen
    · exact Or.inl (Except.ok.inj chosen).symm
    · exact Or.inr (Except.ok.inj chosen).symm

structure SendWork.Sound (work : SendWork) : Prop where
  kind : work.state.kind = .send
  tag : work.state.tag = work.post.tag
  status : work.state.status = 0
  outcome : work.outcome = 0
  chosen : chooseMode work.post.mode work.post.bytes = .ok work.state.mode
  bytes : work.post.bytes ≤ maxUInt32
  completed : work.state.completed = true → work.acknowledged = true
  acknowledged : work.acknowledged = true → work.executed = true

structure RecvWork.Sound (work : RecvWork) : Prop where
  kind : work.state.kind = .receive
  tag : work.state.tag = work.post.tag
  status : work.state.status = 0
  chosen : chooseMode work.post.mode work.post.bytes = .ok work.state.mode
  bytes : work.post.bytes ≤ maxUInt32
  completed : work.state.completed = true → work.consumed = true

/-- The work requests of both ends of a link, and the descriptors still unread. -/
structure LinkSound (sends : List SendWork) (recvs : List RecvWork) (control : List Descriptor) :
    Prop where
  le : sends.length ≤ recvs.length
  control : control = (recvs.drop sends.length).map RecvWork.descriptor
  answers : ∀ (place : Nat) send recv, sends[place]? = some send → recvs[place]? = some recv →
    send.Answers recv
  moved : ∃ count ≤ sends.length,
    (∀ (place : Nat) send, sends[place]? = some send → (send.executed = true ↔ place < count)) ∧
    ∀ (place : Nat) recv, recvs[place]? = some recv → (recv.consumed = true ↔ place < count)

section Link

variable {sends sends' : List SendWork} {recvs recvs' : List RecvWork} {control : List Descriptor}

theorem LinkSound.empty : LinkSound [] [] [] :=
  ⟨Nat.le_refl _, rfl, by simp, 0, Nat.le_refl _, by simp, by simp⟩

theorem LinkSound.addRecv (link : LinkSound sends recvs control) {work : RecvWork}
    (fresh : work.consumed = false) :
    LinkSound sends (recvs ++ [work]) (control ++ [work.descriptor]) := by
  obtain ⟨count, le, executed, consumed⟩ := link.moved
  have sent := link.le
  refine ⟨by simp; omega, ?_, ?_, count, le, executed, ?_⟩
  · rw [List.drop_append_of_le_length sent, List.map_append, ← link.control]
    rfl
  · intro place send recv isSend isRecv
    have bound := (List.getElem?_eq_some_iff.mp isSend).1
    rw [List.getElem?_append_left (by omega)] at isRecv
    exact link.answers place send recv isSend isRecv
  · intro place recv isRecv
    rcases Splits.getElem?_snoc isRecv with old | ⟨rfl, rfl⟩
    · exact consumed place recv old
    · simp only [fresh, Bool.false_eq_true, false_iff]
      omega

theorem answers_of_match {work : SendWork} {recv : RecvWork} (control : work.control = recv.descriptor)
    (mode : work.state.mode = .eager ∨ work.state.mode = .rendezvous) (sound : recv.Sound)
    (matched : ¬ Mismatch work.control work.post work.state.mode) : work.Answers recv := by
  rw [control] at matched
  simp only [Mismatch, RecvWork.descriptor, not_or, not_not] at matched
  obtain ⟨-, tag, bytes, code⟩ := matched
  refine ⟨control, tag.symm, ?_, ?_⟩
  · have small := sound.bytes
    rw [UInt32.toNat_ofNat_of_lt' (by simp only [maxUInt32] at small; simp only [UInt32.size]; omega)]
      at bytes
    exact bytes.symm
  · rcases mode with mode | mode <;> rcases chooseMode_ok sound.chosen with mode' | mode' <;>
      simp_all [TransferMode.code]

theorem LinkSound.addSend {head : Descriptor} {unread : List Descriptor}
    (link : LinkSound sends recvs (head :: unread)) {work : SendWork} (isHead : work.control = head)
    (fresh : work.executed = false)
    (mode : work.state.mode = .eager ∨ work.state.mode = .rendezvous)
    (matched : ¬ Mismatch work.control work.post work.state.mode)
    (sound : ∀ recv ∈ recvs, recv.Sound) : LinkSound (sends ++ [work]) recvs unread := by
  obtain ⟨count, le, executed, consumed⟩ := link.moved
  have control := link.control
  have bound : sends.length < recvs.length := by
    by_contra all
    rw [List.drop_eq_nil_of_le (by omega)] at control
    simp at control
  rw [List.drop_eq_getElem_cons bound, List.map_cons, List.cons.injEq] at control
  have answers := answers_of_match (isHead.trans control.1) mode
    (sound _ (List.getElem_mem bound)) matched
  refine ⟨by simp; omega, by simpa using control.2, ?_, count, by simp; omega, ?_, consumed⟩
  · intro place send recv isSend isRecv
    rcases Splits.getElem?_snoc isSend with old | ⟨rfl, rfl⟩
    · exact link.answers place send recv old isRecv
    · rw [List.getElem?_eq_getElem bound, Option.some.injEq] at isRecv
      exact isRecv ▸ answers
  · intro place send isSend
    rcases Splits.getElem?_snoc isSend with old | ⟨rfl, rfl⟩
    · exact executed place send old
    · simp only [fresh, Bool.false_eq_true, false_iff]
      omega

/-- What the other end of the link can tell of a work request. -/
def SendWork.onLink (work : SendWork) : Post × Descriptor × TransferMode × Bool :=
  (work.post, work.control, work.state.mode, work.executed)

def RecvWork.onLink (work : RecvWork) : Post × TransferMode × Bool :=
  (work.post, work.state.mode, work.consumed)

theorem LinkSound.congr (link : LinkSound sends recvs control)
    (sendsEq : sends'.map SendWork.onLink = sends.map SendWork.onLink)
    (recvsEq : recvs'.map RecvWork.onLink = recvs.map RecvWork.onLink) :
    LinkSound sends' recvs' control := by
  have sendsLength : sends'.length = sends.length := by simpa using congrArg List.length sendsEq
  have recvsLength : recvs'.length = recvs.length := by simpa using congrArg List.length recvsEq
  have sendAt : ∀ {place : Nat} {send' : SendWork}, sends'[place]? = some send' →
      ∃ send, sends[place]? = some send ∧ send.onLink = send'.onLink := by
    intro place send' found
    have same := congrArg (fun list => list[place]?) sendsEq
    simp only [List.getElem?_map, found, Option.map_some] at same
    obtain ⟨send, isSend, eq⟩ := Option.map_eq_some_iff.mp same.symm
    exact ⟨send, isSend, eq⟩
  have recvAt : ∀ {place : Nat} {recv' : RecvWork}, recvs'[place]? = some recv' →
      ∃ recv, recvs[place]? = some recv ∧ recv.onLink = recv'.onLink := by
    intro place recv' found
    have same := congrArg (fun list => list[place]?) recvsEq
    simp only [List.getElem?_map, found, Option.map_some] at same
    obtain ⟨recv, isRecv, eq⟩ := Option.map_eq_some_iff.mp same.symm
    exact ⟨recv, isRecv, eq⟩
  obtain ⟨count, le, executed, consumed⟩ := link.moved
  refine ⟨by rw [sendsLength, recvsLength]; exact link.le, ?_, ?_, count, by omega, ?_, ?_⟩
  · rw [link.control, sendsLength]
    apply List.ext_getElem?
    intro index
    have same := congrArg (fun list => list[sends.length + index]?) recvsEq
    simp only [List.getElem?_map] at same
    rw [List.getElem?_map, List.getElem?_map, List.getElem?_drop, List.getElem?_drop]
    cases found : recvs'[sends.length + index]? with
    | none => simpa [found] using same.symm
    | some recv' =>
        obtain ⟨recv, isRecv, eq⟩ := recvAt found
        simp only [RecvWork.onLink, Prod.mk.injEq] at eq
        rw [isRecv, Option.map_some, Option.map_some, RecvWork.descriptor, RecvWork.descriptor, eq.1,
          eq.2.1]
  · intro place send' recv' isSend isRecv
    obtain ⟨send, found, sendEq⟩ := sendAt isSend
    obtain ⟨recv, found', recvEq⟩ := recvAt isRecv
    obtain ⟨controlEq, tag, bytes, mode⟩ := link.answers place send recv found found'
    simp only [SendWork.onLink, RecvWork.onLink, Prod.mk.injEq] at sendEq recvEq
    obtain ⟨sendPost, sendControl, sendMode, -⟩ := sendEq
    obtain ⟨recvPost, recvMode, -⟩ := recvEq
    refine ⟨?_, by rw [← sendPost, ← recvPost, tag], by rw [← sendPost, ← recvPost, bytes],
      by rw [← sendMode, ← recvMode, mode]⟩
    rw [← sendControl, controlEq, RecvWork.descriptor, RecvWork.descriptor, recvPost, recvMode]
  · intro place send' isSend
    obtain ⟨send, found, sendEq⟩ := sendAt isSend
    simp only [SendWork.onLink, Prod.mk.injEq] at sendEq
    rw [← sendEq.2.2.2]
    exact executed place send found
  · intro place recv' isRecv
    obtain ⟨recv, found, recvEq⟩ := recvAt isRecv
    simp only [RecvWork.onLink, Prod.mk.injEq] at recvEq
    rw [← recvEq.2.2]
    exact consumed place recv found

/-- Where the marked entries are a front part of a list, the oldest unmarked one is next to it. -/
theorem oldest_unmarked {Work : Type} {marked : Work → Bool} {works : List Work} {count place : Nat}
    {work : Work} (le : count ≤ works.length)
    (marks : ∀ (place : Nat) work, works[place]? = some work → (marked work = true ↔ place < count))
    (found : works[place]? = some work) (unmarked : marked work = false)
    (before : ∀ earlier < place, ∀ work, works[earlier]? = some work → marked work = true) :
    place = count := by
  have bound := (List.getElem?_eq_some_iff.mp found).1
  have lower : ¬ place < count := by simpa [unmarked] using (marks place work found).not
  by_contra different
  have inside : count < works.length := by omega
  have early := before count (by omega) _ (List.getElem?_eq_getElem inside)
  exact absurd ((marks count _ (List.getElem?_eq_getElem inside)).mp early) (by omega)

/-- The oldest send that is not executed and the oldest receive that is not consumed are at the same
place. -/
theorem LinkSound.oldest (link : LinkSound sends recvs control) {place target : Nat}
    {send : SendWork} {recv : RecvWork} (isSend : sends[place]? = some send)
    (unexecuted : send.executed = false)
    (sendsBefore : ∀ earlier < place, ∀ work, sends[earlier]? = some work → work.executed = true)
    (isRecv : recvs[target]? = some recv) (unconsumed : recv.consumed = false)
    (recvsBefore : ∀ earlier < target, ∀ work, recvs[earlier]? = some work → work.consumed = true) :
    target = place ∧ send.Answers recv := by
  obtain ⟨count, le, executed, consumed⟩ := link.moved
  obtain rfl := oldest_unmarked le executed isSend unexecuted sendsBefore
  obtain rfl := oldest_unmarked (le.trans link.le) consumed isRecv unconsumed recvsBefore
  exact ⟨rfl, link.answers _ send recv isSend isRecv⟩

theorem LinkSound.execute (link : LinkSound sends recvs control) {place : Nat} {send : SendWork}
    (isSend : sends[place]? = some send) (unexecuted : send.executed = false)
    (sendsBefore : ∀ earlier < place, ∀ work, sends[earlier]? = some work → work.executed = true)
    (outcome : Int) :
    LinkSound (sends.modify place fun work => { work with executed := true, outcome := outcome })
      (recvs.modify place fun work => { work with consumed := true }) control := by
  obtain ⟨count, le, executed, consumed⟩ := link.moved
  have bound := (List.getElem?_eq_some_iff.mp isSend).1
  have here := oldest_unmarked le executed isSend unexecuted sendsBefore
  refine ⟨by simpa using link.le, ?_, ?_, count + 1, by simp; omega, ?_, ?_⟩
  · rw [link.control, List.length_modify, List.map_drop, List.map_drop]
    exact congrArg _ (Splits.map_modify_same RecvWork.descriptor (by exact fun _ => rfl) _ _).symm
  · intro index send' recv' isSend' isRecv'
    obtain ⟨old, oldSend, rfl⟩ := Splits.getElem?_modify_some isSend'
    obtain ⟨old', oldRecv, rfl⟩ := Splits.getElem?_modify_some isRecv'
    have answers := link.answers index old old' oldSend oldRecv
    split <;> exact ⟨answers.control, answers.tag, answers.bytes, answers.mode⟩
  · intro index send' isSend'
    obtain ⟨old, oldSend, rfl⟩ := Splits.getElem?_modify_some isSend'
    have before := executed index old oldSend
    split
    · simp only [true_iff]
      omega
    · rw [before]
      omega
  · intro index recv' isRecv'
    obtain ⟨old, oldRecv, rfl⟩ := Splits.getElem?_modify_some isRecv'
    have before := consumed index old oldRecv
    split
    · simp only [true_iff]
      omega
    · rw [before]
      omega

end Link

end RingAllReduce.VerbsRing
