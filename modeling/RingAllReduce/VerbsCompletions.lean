import RingAllReduce.VerbsLinks

/-! The completion queue of a rank: every completion is of one of its requests, each request has at
most one, and none reports a failure. -/

namespace RingAllReduce.VerbsRing

open Rotation VerbsTransport

/-- The completions of the requests of one kind. `view` shows the `RequestState` of a work request
and whether its completion has been generated. -/
structure Served {Work : Type} (view : Work → VerbsTransport.RequestState × Bool)
    (kind : RequestKind) (works : List Work) (cq : List (Handle × WorkCompletion)) : Prop where
  owed : ∀ place, (kind, place) ∈ cq.map Prod.fst ↔ ∃ work, works[place]? = some work ∧
    (view work).2 = true ∧ (view work).1.completed = false
  good : ∀ (place : Nat) completion work, ((kind, place), completion) ∈ cq →
    works[place]? = some work → Succeeded (view work).1 completion

section Served

variable {Work : Type} {view : Work → VerbsTransport.RequestState × Bool} {kind : RequestKind}
  {works : List Work} {cq : List (Handle × WorkCompletion)} {place : Nat} {change : Work → Work}
  {completion : WorkCompletion}

theorem Served.append (served : Served view kind works cq) {work : Work}
    (fresh : (view work).2 = false) : Served view kind (works ++ [work]) cq := by
  constructor
  · intro place
    rw [served.owed]
    constructor
    · rintro ⟨found, isFound, generated⟩
      have bound := (List.getElem?_eq_some_iff.mp isFound).1
      exact ⟨found, by rwa [List.getElem?_append_left bound], generated⟩
    · rintro ⟨found, isFound, generated, running⟩
      rcases Splits.getElem?_snoc isFound with old | ⟨-, rfl⟩
      · exact ⟨found, old, generated, running⟩
      · simp [fresh] at generated
  · intro place completion found member isFound
    obtain ⟨old, isOld, -⟩ := (served.owed place).mp (List.mem_map_of_mem (f := Prod.fst) member)
    rw [List.getElem?_append_left (List.getElem?_eq_some_iff.mp isOld).1] at isFound
    exact served.good place completion found member isFound

theorem Served.modify (served : Served view kind works cq)
    (same : ∀ work, view (change work) = view work) :
    Served view kind (works.modify place change) cq := by
  constructor
  · intro index
    rw [served.owed, List.getElem?_modify]
    cases works[index]? with
    | none => simp
    | some work => by_cases here : place = index <;> simp [here, same]
  · intro index completion work member found
    obtain ⟨old, isOld, rfl⟩ := Splits.getElem?_modify_some found
    have good := served.good index completion old member isOld
    split
    · rwa [same]
    · exact good

theorem Served.push_other (served : Served view kind works cq) {handle : Handle}
    (other : handle.1 ≠ kind) (completion : WorkCompletion) :
    Served view kind works (cq ++ [(handle, completion)]) := by
  constructor
  · intro place
    rw [← served.owed, List.map_append, List.mem_append, List.map_singleton, List.mem_singleton]
    simp [Prod.ext_iff, other.symm]
  · intro place entry work member found
    rcases List.mem_append.mp member with old | new
    · exact served.good place entry work old found
    · rw [List.mem_singleton, Prod.mk.injEq] at new
      exact absurd (congrArg Prod.fst new.1).symm other

theorem Served.pop_other {handle : Handle}
    (served : Served view kind works ((handle, completion) :: cq)) (other : handle.1 ≠ kind) :
    Served view kind works cq := by
  constructor
  · intro place
    rw [← served.owed, List.map_cons, List.mem_cons]
    simp [Prod.ext_iff, other.symm]
  · intro place entry work member found
    exact served.good place entry work (List.mem_cons_of_mem _ member) found

theorem Served.push (served : Served view kind works cq) {work : Work}
    (found : works[place]? = some work) (running : (view work).1.completed = false)
    (changed : view (change work) = ((view work).1, true))
    (succeeded : Succeeded (view work).1 completion) :
    Served view kind (works.modify place change) (cq ++ [((kind, place), completion)]) := by
  constructor
  · intro index
    rw [List.map_append, List.mem_append, served.owed, List.map_singleton, List.mem_singleton,
      List.getElem?_modify]
    by_cases here : index = place
    · subst here
      simp [found, changed, running]
    · simp [here, Ne.symm here]
  · intro index entry other member isOther
    obtain ⟨old, isOld, rfl⟩ := Splits.getElem?_modify_some isOther
    rcases List.mem_append.mp member with earlier | new
    · have good := served.good index entry old earlier isOld
      split
      · rename_i same
        subst same
        obtain rfl := Option.some.inj (found.symm.trans isOld)
        rwa [changed]
      · exact good
    · simp only [List.mem_singleton, Prod.mk.injEq, true_and] at new
      obtain ⟨rfl, rfl⟩ := new
      obtain rfl := Option.some.inj (found.symm.trans isOld)
      rwa [if_pos rfl, changed]

theorem Served.pop (served : Served view kind works (((kind, place), completion) :: cq))
    (fresh : (kind, place) ∉ cq.map Prod.fst)
    (changed : ∀ work, (view (change work)).1.completed = true) :
    Served view kind (works.modify place change) cq := by
  constructor
  · intro index
    have owed := served.owed index
    rw [List.map_cons, List.mem_cons] at owed
    rw [List.getElem?_modify]
    by_cases here : index = place
    · subst here
      simp only [fresh, if_true, false_iff, not_exists, not_and]
      intro work isWork
      obtain ⟨old, -, rfl⟩ := Option.map_eq_some_iff.mp isWork
      simp [changed]
    · simpa [here, Ne.symm here] using owed
  · intro index entry work member found
    obtain ⟨old, isOld, rfl⟩ := Splits.getElem?_modify_some found
    have different : index ≠ place := by
      rintro rfl
      exact fresh (List.mem_map_of_mem (f := Prod.fst) member)
    rw [if_neg different]
    exact served.good index entry old (List.mem_cons_of_mem _ member) isOld

end Served

/-- The work requests of a rank and its completion queue. -/
structure RankSound (sends : List SendWork) (recvs : List RecvWork)
    (cq : List (Handle × WorkCompletion)) : Prop where
  soundSends : ∀ work ∈ sends, work.Sound
  soundRecvs : ∀ work ∈ recvs, work.Sound
  nodup : (cq.map Prod.fst).Nodup
  servedSends : Served (fun work : SendWork => (work.state, work.acknowledged)) .send sends cq
  servedRecvs : Served (fun work : RecvWork => (work.state, work.consumed)) .receive recvs cq

theorem RankSound.empty : RankSound [] [] [] :=
  ⟨by simp, by simp, by simp, ⟨by simp, by simp⟩, ⟨by simp, by simp⟩⟩

theorem fits_of_answers {send : SendWork} {recv : RecvWork} (answers : send.Answers recv) :
    send.fits recv = true := by
  simp only [SendWork.fits, decide_eq_true_eq]
  by_cases eager : send.state.mode = .eager
  · exact Or.inr ⟨answers.mode ▸ eager, answers.bytes.le⟩
  · exact Or.inl eager

theorem destination_of_answers {send : SendWork} {recv : RecvWork} (answers : send.Answers recv) :
    send.destination recv = (recv.post.buffer, recv.post.start) := by
  unfold SendWork.destination
  split
  · rfl
  · rw [answers.control]
    rfl

theorem recvCompletion_succeeded {send : SendWork} {recv : RecvWork} (answers : send.Answers recv)
    (sound : recv.Sound) (place : Nat) :
    Succeeded recv.state (recvCompletion send recv place) := by
  refine ⟨by simp [recvCompletion, fits_of_answers answers], ?_, ?_⟩
  · rw [sound.kind]
    rcases chooseMode_ok sound.chosen with mode | mode <;>
      simp [recvCompletion, expectedOpcode, mode, answers.mode]
  · intro _
    exact ⟨rfl, by rw [sound.tag, ← answers.tag]; rfl⟩

theorem sendCompletion_succeeded {send : SendWork} (sound : send.Sound) (place : Nat) :
    Succeeded send.state (sendCompletion send place) := by
  refine ⟨sound.outcome, ?_, by simp [sound.kind]⟩
  rw [sound.kind]
  rcases chooseMode_ok sound.chosen with mode | mode <;> simp [sendCompletion, expectedOpcode, mode]

section Rank

variable {sends : List SendWork} {recvs : List RecvWork} {cq : List (Handle × WorkCompletion)}
  {place : Nat} {completion : WorkCompletion}

theorem RankSound.addRecv (rank : RankSound sends recvs cq) {work : RecvWork} (sound : work.Sound)
    (fresh : work.consumed = false) : RankSound sends (recvs ++ [work]) cq :=
  { rank with
    soundRecvs := Splits.forall_snoc rank.soundRecvs sound
    servedRecvs := rank.servedRecvs.append fresh }

theorem RankSound.addSend (rank : RankSound sends recvs cq) {work : SendWork} (sound : work.Sound)
    (fresh : work.acknowledged = false) : RankSound (sends ++ [work]) recvs cq :=
  { rank with
    soundSends := Splits.forall_snoc rank.soundSends sound
    servedSends := rank.servedSends.append fresh }

theorem RankSound.execute (rank : RankSound sends recvs cq) (place : Nat) :
    RankSound (sends.modify place fun work => { work with executed := true, outcome := 0 }) recvs
      cq := by
  refine { rank with soundSends := ?_, servedSends := rank.servedSends.modify fun _ => rfl }
  apply Splits.forall_modify rank.soundSends
  intro work found
  have before := rank.soundSends work (List.mem_of_getElem? found)
  exact { before with outcome := rfl, acknowledged := fun _ => rfl }

theorem push_nodup {handle : Handle} (nodup : (cq.map Prod.fst).Nodup)
    (absent : handle ∉ cq.map Prod.fst) :
    ((cq ++ [(handle, completion)]).map Prod.fst).Nodup := by
  rw [List.map_append, List.map_singleton, List.nodup_append]
  refine ⟨nodup, List.nodup_singleton _, ?_⟩
  rintro other member last isLast rfl
  rw [List.mem_singleton.mp isLast] at member
  exact absent member

theorem RankSound.acknowledge (rank : RankSound sends recvs cq) {send : SendWork}
    (isSend : sends[place]? = some send) (executed : send.executed = true)
    (unacknowledged : send.acknowledged = false) :
    RankSound (sends.modify place fun work => { work with acknowledged := true }) recvs
      (cq ++ [((.send, place), sendCompletion send place)]) := by
  have sound := rank.soundSends send (List.mem_of_getElem? isSend)
  have running : send.state.completed = false := by
    by_contra completed
    simp [sound.completed (by simpa using completed)] at unacknowledged
  refine ⟨?_, rank.soundRecvs, ?_, ?_, rank.servedRecvs.push_other (by simp) _⟩
  · apply Splits.forall_modify rank.soundSends
    intro work found
    obtain rfl := Option.some.inj (isSend.symm.trans found)
    exact { sound with completed := fun _ => rfl, acknowledged := fun _ => executed }
  · apply push_nodup rank.nodup
    rw [rank.servedSends.owed]
    rintro ⟨found, isFound, acknowledged, -⟩
    obtain rfl := Option.some.inj (isSend.symm.trans isFound)
    simp [unacknowledged] at acknowledged
  · exact rank.servedSends.push isSend running rfl (sendCompletion_succeeded sound place)

theorem RankSound.consume (rank : RankSound sends recvs cq) {recv : RecvWork}
    (isRecv : recvs[place]? = some recv) (unconsumed : recv.consumed = false)
    (succeeded : Succeeded recv.state completion) :
    RankSound sends (recvs.modify place fun work => { work with consumed := true })
      (cq ++ [((.receive, place), completion)]) := by
  have sound := rank.soundRecvs recv (List.mem_of_getElem? isRecv)
  have running : recv.state.completed = false := by
    by_contra completed
    simp [sound.completed (by simpa using completed)] at unconsumed
  refine ⟨rank.soundSends, ?_, ?_, rank.servedSends.push_other (by simp) _, ?_⟩
  · apply Splits.forall_modify rank.soundRecvs
    intro work found
    exact { rank.soundRecvs work (List.mem_of_getElem? found) with completed := fun _ => rfl }
  · apply push_nodup rank.nodup
    rw [rank.servedRecvs.owed]
    rintro ⟨found, isFound, consumed, -⟩
    obtain rfl := Option.some.inj (isRecv.symm.trans isFound)
    simp [unconsumed] at consumed
  · exact rank.servedRecvs.push isRecv running rfl succeeded

theorem RankSound.pollSend (rank : RankSound sends recvs (((.send, place), completion) :: cq)) :
    RankSound (sends.modify place fun work =>
      { work with state := work.state.recorded completion }) recvs cq := by
  have fresh := rank.nodup
  rw [List.map_cons, List.nodup_cons] at fresh
  refine ⟨?_, rank.soundRecvs, fresh.2, rank.servedSends.pop fresh.1 fun _ => rfl,
    rank.servedRecvs.pop_other (by simp)⟩
  obtain ⟨send, isSend, acknowledged, -⟩ := (rank.servedSends.owed place).mp (by simp)
  apply Splits.forall_modify rank.soundSends
  intro work found
  obtain rfl := Option.some.inj (isSend.symm.trans found)
  have good := rank.servedSends.good place completion send (by simp) isSend
  exact { rank.soundSends send (List.mem_of_getElem? isSend) with
    status := if_pos good, completed := fun _ => acknowledged }

theorem RankSound.pollRecv (rank : RankSound sends recvs (((.receive, place), completion) :: cq)) :
    RankSound sends (recvs.modify place fun work =>
      { work with state := work.state.recorded completion }) cq := by
  have fresh := rank.nodup
  rw [List.map_cons, List.nodup_cons] at fresh
  refine ⟨rank.soundSends, ?_, fresh.2, rank.servedSends.pop_other (by simp),
    rank.servedRecvs.pop fresh.1 fun _ => rfl⟩
  obtain ⟨recv, isRecv, consumed, -⟩ := (rank.servedRecvs.owed place).mp (by simp)
  apply Splits.forall_modify rank.soundRecvs
  intro work found
  obtain rfl := Option.some.inj (isRecv.symm.trans found)
  have good := rank.servedRecvs.good place completion recv (by simp) isRecv
  exact { rank.soundRecvs recv (List.mem_of_getElem? isRecv) with
    status := if_pos good, completed := fun _ => consumed }

end Rank

end RingAllReduce.VerbsRing
