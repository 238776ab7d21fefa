import RingAllReduce.EndpointCalls

/-! A ring of endpoints goes on showing the work requests of its fabric: after every post that
succeeds, every poll and every step of a device. -/

namespace RingAllReduce.EndpointRing

open Exchange Rotation VerbsTransport
open VerbsRing (Handle Fabric FabricSound SendWork RecvWork Descriptor Postable Mismatch)

variable {Value : Type} {platform : Platform} {worldSize rank : Nat} {fabric fabric' : Fabric}
  {ring : Ring} {post : Post} {mode : TransferMode}

theorem forall₂_modify_both {Item Part : Type} {relates : Item → Part → Prop} {items : List Item}
    {parts : List Part} (alongside : List.Forall₂ relates items parts) {place : Nat}
    {change : Item → Item} {alter : Part → Part}
    (holds : ∀ item part, relates item part → relates (change item) (alter part)) :
    List.Forall₂ relates (items.modify place change) (parts.modify place alter) := by
  induction alongside generalizing place with
  | nil => simp
  | cons head tail ih =>
      cases place with
      | zero => exact .cons (holds _ _ head) tail
      | succ place => exact .cons head ih

theorem Offered.mono {entry later : Handle → Option WorkRequest}
    (kept : ∀ handle request, entry handle = some request → later handle = some request)
    {item : Handle × WorkCompletion} {offer : Offer} (offered : Offered entry item offer) :
    Offered later item offer := by
  obtain ⟨request, found, rest⟩ := offered
  exact ⟨request, kept _ _ found, rest⟩

def face (work : RecvWork) : Post × TransferMode := (work.post, work.state.mode)

theorem LinkShown.congr {sender : Nat} {ring' : Ring}
    (link : LinkShown platform worldSize fabric ring sender)
    (lengths : (fabric'.sends sender).length = (fabric.sends sender).length)
    (recvs : (fabric'.recvs (next worldSize sender)).map face =
      (fabric.recvs (next worldSize sender)).map face)
    (control : ring'.control (next worldSize sender) = ring.control (next worldSize sender))
    (requests : (ring'.sends sender).map QueuedSend.request =
      (ring.sends sender).map QueuedSend.request) :
    LinkShown platform worldSize fabric' ring' sender := by
  constructor
  · let announced := fun (shape : Post × TransferMode) control => ∃ key, control = announcement
      (platform.place (next worldSize sender) shape.1) shape.1.bytes shape.1.tag shape.2 key
    have before : List.Forall₂ announced (((fabric.recvs (next worldSize sender)).drop
        (fabric.sends sender).length).map face) (ring.control (next worldSize sender)) :=
      List.forall₂_map_left_iff.mpr link.control
    rw [List.map_drop, ← recvs, ← List.map_drop, ← lengths, ← control] at before
    exact (List.forall₂_map_left_iff (R := announced) (f := face)).mp before
  · intro place queued work isSend isRecv scatterGather immData remoteAddress remoteKey isWrite
    have sameSend := congrArg (fun requests => requests[place]?) requests
    have sameRecv := congrArg (fun faces => faces[place]?) recvs
    simp only [List.getElem?_map, isSend, isRecv, Option.map_some] at sameSend sameRecv
    obtain ⟨old, isOld, request⟩ := Option.map_eq_some_iff.mp sameSend.symm
    obtain ⟨recv, wasRecv, faceEq⟩ := Option.map_eq_some_iff.mp sameRecv.symm
    have aimed := link.aimed place old recv isOld wasRecv scatterGather immData remoteAddress
      remoteKey (by rw [request, isWrite])
    rw [aimed, show recv.post = work.post from congrArg Prod.fst faceEq]

section Shown

variable (shown : Shown platform worldSize fabric ring)

include shown

theorem Shown.lengths (rank : Nat) : (ring.sends rank).length = (fabric.sends rank).length ∧
    (ring.recvs rank).length = (fabric.recvs rank).length :=
  ⟨(shown.sends rank).length_eq.symm, (shown.recvs rank).length_eq.symm⟩

theorem Shown.addRecv (sound : FabricSound worldSize fabric) {id : Nat} {address : Address}
    {region : Region} {key : UInt32} (endpoints : Nat → VerbsTransport) :
    Shown platform worldSize (fabric.addRecv rank (fabric.receiveWork rank post mode))
      { ring with
        endpoints := endpoints
        control := Function.update ring.control rank (ring.control rank ++
          [announcement (platform.place rank post) post.bytes post.tag mode key])
        recvs := Function.update ring.recvs rank (ring.recvs rank ++
          [.new post ⟨address, id, receiveWork (platform.place rank post) post.bytes mode region⟩]) } := by
  constructor
  case sends => exact shown.sends
  case recvs =>
    intro other
    by_cases here : other = rank
    · subst here
      simp only [Fabric.addRecv, Function.update_self]
      exact List.rel_append (shown.recvs other)
        (.cons ⟨rfl, rfl, rfl, region, rfl⟩ .nil)
    · simpa [Fabric.addRecv, here] using shown.recvs other
  case cq =>
    intro other
    refine (shown.cq other).imp fun item offer offered => offered.mono fun handle request found => ?_
    by_cases here : other = rank
    · subst here
      simp only [Ring.entry, Function.update_self, column_snoc, table_update_recv] at found ⊢
      rw [Function.update_of_ne]
      · exact found
      · rintro rfl
        simp [table, column] at found
    · simpa [Ring.entry, here] using found
  case links =>
    intro sender bound
    have link := shown.links sender bound
    by_cases here : next worldSize sender = rank
    · subst here
      have le := (sound.links sender bound).le
      constructor
      · simp only [Fabric.addRecv, Function.update_self, List.drop_append_of_le_length le]
        exact List.rel_append link.control (.cons ⟨key, rfl⟩ .nil)
      · intro place queued work isSend isRecv
        have isSend : (ring.sends sender)[place]? = some queued := isSend
        have inside := (List.getElem?_eq_some_iff.mp isSend).1
        have lengths := (shown.lengths sender).1
        simp only [Fabric.addRecv, Function.update_self] at isRecv
        rw [List.getElem?_append_left (by omega)] at isRecv
        exact link.aimed place queued work isSend isRecv
    · refine ⟨?_, ?_⟩
      · simpa [Fabric.addRecv, here] using link.control
      · simpa [Fabric.addRecv, here] using link.aimed

theorem Shown.addSend (sound : FabricSound worldSize fabric) (bound : rank < worldSize)
    {control : Descriptor} {unread : List Descriptor}
    (available : fabric.control (next worldSize rank) = control :: unread)
    {descriptor : ControlMessage} {unseen : List ControlMessage}
    (isControl : ring.control (next worldSize rank) = descriptor :: unseen) {id : Nat}
    {address : Address} {region : Region} (endpoints : Nat → VerbsTransport) :
    Shown platform worldSize
      ((fabric.read (next worldSize rank) unread).addSend rank
        ((fabric.read (next worldSize rank) unread).sendWork rank post mode control))
      { ring with
        endpoints := endpoints
        control := Function.update ring.control (next worldSize rank) unseen
        sends := Function.update ring.sends rank (ring.sends rank ++ [.new post ⟨address, id,
          sendWork (platform.place rank post) post.bytes post.tag mode descriptor region⟩]) } := by
  constructor
  case sends =>
    intro other
    by_cases here : other = rank
    · subst here
      simp only [Fabric.addSend, Fabric.read, Function.update_self]
      exact List.rel_append (shown.sends other)
        (.cons ⟨rfl, rfl, rfl, rfl, rfl, descriptor, region, rfl⟩ .nil)
    · simpa [Fabric.addSend, Fabric.read, here] using shown.sends other
  case recvs => exact shown.recvs
  case cq =>
    intro other
    refine (shown.cq other).imp fun item offer offered => offered.mono fun handle request found => ?_
    by_cases here : other = rank
    · subst here
      simp only [Ring.entry, Function.update_self, column_snoc, table_update_send] at found ⊢
      rw [Function.update_of_ne]
      · exact found
      · rintro rfl
        simp [table, column] at found
    · simpa [Ring.entry, here] using found
  case links =>
    intro sender senderBound
    have link := shown.links sender senderBound
    by_cases here : sender = rank
    · subst here
      have before := link.control
      rw [isControl] at before
      obtain ⟨recv, inside⟩ : ∃ recv, (fabric.recvs (next worldSize sender))[
          (fabric.sends sender).length]? = some recv := by
        have waiting := sound.links sender bound
        rw [available] at waiting
        obtain ⟨recv, found, -⟩ := waiting.waiting
        exact ⟨recv, found⟩
      obtain ⟨within, recvEq⟩ := List.getElem?_eq_some_iff.mp inside
      rw [List.drop_eq_getElem_cons within, recvEq] at before
      cases before with
      | cons announced rest =>
          obtain ⟨key, announced⟩ := announced
          constructor
          · simpa [Fabric.addSend, Fabric.read] using rest
          · intro place queued work isSend isRecv
            simp only [Function.update_self] at isSend
            rcases Splits.getElem?_snoc isSend with old | ⟨rfl, rfl⟩
            · exact link.aimed place queued work old isRecv
            · intro scatterGather immData remoteAddress remoteKey isWrite
              have isRecv : (fabric.recvs (next worldSize sender))[(ring.sends sender).length]? =
                some work := isRecv
              rw [(shown.lengths sender).1, inside] at isRecv
              obtain rfl := Option.some.inj isRecv
              simp only [QueuedSend.new, sendWork] at isWrite
              split at isWrite
              · simp at isWrite
              · simp only [Work.rdmaWriteWithImm.injEq] at isWrite
                rw [← isWrite.2.2.1, announced]
                rfl
    · have different : next worldSize sender ≠ next worldSize rank := fun same =>
        here (next_injective senderBound bound same)
      refine ⟨?_, ?_⟩
      · simpa [Fabric.addSend, Fabric.read, here, different] using link.control
      · simpa [Fabric.addSend, Fabric.read, here, different] using link.aimed

theorem Shown.poll {handle : Handle} {completion : WorkCompletion}
    {rest : List (Handle × WorkCompletion)} (queue : fabric.cq rank = (handle, completion) :: rest)
    (polled : fabric.poll rank = some fabric') :
    ∃ offer waiting, ring.cq rank = offer :: waiting ∧
      Offered (ring.entry rank) (handle, completion) offer ∧
      ∀ endpoints, Shown platform worldSize fabric'
        { ring with endpoints := endpoints, cq := Function.update ring.cq rank waiting } := by
  have before := shown.cq rank
  rw [queue] at before
  cases isQueue : ring.cq rank with
  | nil => simp [isQueue] at before
  | cons offer waiting =>
      rw [isQueue] at before
      cases before with
      | cons offered later =>
          refine ⟨offer, waiting, rfl, offered, fun endpoints => ?_⟩
          have cq : ∀ other, List.Forall₂ (Offered (ring.entry other))
              (Function.update fabric.cq rank rest other)
              (Function.update ring.cq rank waiting other) := by
            intro other
            by_cases here : other = rank
            · subst here
              simpa using later
            · simpa [here] using shown.cq other
          obtain ⟨kind, place⟩ := handle
          simp only [Fabric.poll, queue] at polled
          cases kind with
          | send =>
              obtain rfl := Option.some.inj polled
              refine ⟨fun other => ?_, shown.recvs, cq, fun sender bound => ?_⟩
              · by_cases here : other = rank
                · subst here
                  simp only [Function.update_self]
                  exact Splits.forall₂_modify (shown.sends other) fun work queued same =>
                    ⟨same.call, same.elementCount, same.executed, same.outcome, same.acknowledged,
                      same.work⟩
                · simpa [here] using shown.sends other
              · refine (shown.links sender bound).congr ?_ rfl rfl rfl
                by_cases here : sender = rank
                · subst here
                  simp
                · simp [here]
          | receive =>
              obtain rfl := Option.some.inj polled
              refine ⟨shown.sends, fun other => ?_, cq, fun sender bound => ?_⟩
              · by_cases here : other = rank
                · subst here
                  simp only [Function.update_self]
                  exact Splits.forall₂_modify (shown.recvs other) fun work queued same =>
                    ⟨same.call, same.elementCount, same.consumed, same.work⟩
                · simpa [here] using shown.recvs other
              · refine (shown.links sender bound).congr rfl ?_ rfl rfl
                by_cases here : next worldSize sender = rank
                · subst here
                  simp only [Function.update_self]
                  exact Splits.map_modify_same face (by exact fun _ => rfl) _ _
                · simp [here]

end Shown

/-! The devices. -/

section Devices

variable {sender place : Nat} {send : SendWork} {recv : RecvWork} {queued : QueuedSend}
  {target : QueuedRecv}

theorem SendShown.facts (same : SendShown platform rank send queued) :
    source queued.request.work = platform.place rank send.post ∧
      opcodes queued.request.work = (if send.state.mode = .eager then (.send, .recv)
        else (.rdmaWrite, .recvRdmaWithImm)) ∧
      immediate queued.request.work = htonl send.post.tag := by
  obtain ⟨control, region, work⟩ := same.work
  rw [work, sendWork]
  by_cases eager : send.state.mode = .eager
  · simp only [eager, if_true]
    exact ⟨rfl, rfl, rfl⟩
  · simp only [eager, if_false]
    exact ⟨rfl, rfl, rfl⟩

theorem fits_shown (sends : SendShown platform sender send queued)
    (recvs : RecvShown platform rank recv target) (answers : send.Answers recv) :
    fits queued.request.work target.request.work = true := by
  obtain ⟨control, region, isSend⟩ := sends.work
  obtain ⟨other, isRecv⟩ := recvs.work
  rw [isSend, isRecv, sendWork, receiveWork, ← answers.mode]
  by_cases eager : send.state.mode = .eager
  · simp [eager, fits, answers.bytes]
  · simp [eager, fits]

theorem column_update {Item Known : Type} (known : Item → Known) (lists : Nat → List Item)
    (changed place other : Nat) {change : Item → Item}
    (same : ∀ item, known (change item) = known item) :
    column known (Function.update lists changed ((lists changed).modify place change) other) =
      column known (lists other) := by
  by_cases here : other = changed
  · subst here
    rw [Function.update_self, column_modify_same known _ _ same]
  · rw [Function.update_of_ne here]

@[simp] theorem entry_execute (receiver goal other : Nat) :
    (ring.execute sender receiver place goal queued target).entry other = ring.entry other := by
  simp only [Ring.entry, Ring.execute]
  rw [column_update QueuedSend.request ring.sends sender place other (by exact fun _ => rfl),
    column_update QueuedRecv.request ring.recvs receiver goal other (by exact fun _ => rfl)]

@[simp] theorem entry_acknowledge (other : Nat) :
    (ring.acknowledge sender place queued).entry other = ring.entry other := by
  simp only [Ring.entry, Ring.acknowledge]
  rw [column_update QueuedSend.request ring.sends sender place other (by exact fun _ => rfl)]

@[simp] theorem stateOf_execute (receiver goal other : Nat) :
    (fabric.execute sender receiver place goal send recv).stateOf other = fabric.stateOf other := by
  simp only [stateOf_eq, Fabric.execute]
  rw [column_update SendWork.state fabric.sends sender place other (by exact fun _ => rfl),
    column_update RecvWork.state fabric.recvs receiver goal other (by exact fun _ => rfl)]

@[simp] theorem stateOf_acknowledge (other : Nat) :
    (fabric.acknowledge sender place send).stateOf other = fabric.stateOf other := by
  simp only [stateOf_eq, Fabric.acknowledge]
  rw [column_update SendWork.state fabric.sends sender place other (by exact fun _ => rfl)]

variable (shown : Shown platform worldSize fabric ring)

include shown

theorem Shown.destination (bound : sender < worldSize)
    (isSend : (fabric.sends sender)[place]? = some send)
    (isRecv : (fabric.recvs (next worldSize sender))[place]? = some recv)
    (isQueued : (ring.sends sender)[place]? = some queued)
    (isTarget : (ring.recvs (next worldSize sender))[place]? = some target)
    (answers : send.Answers recv) : destination queued.request.work target.request.work =
      platform.place (next worldSize sender) recv.post := by
  obtain ⟨_, found, same⟩ := Splits.forall₂_getElem? (shown.sends sender) isSend
  obtain rfl := Option.some.inj (isQueued.symm.trans found)
  obtain ⟨_, found, sameRecv⟩ := Splits.forall₂_getElem? (shown.recvs _) isRecv
  obtain rfl := Option.some.inj (isTarget.symm.trans found)
  obtain ⟨control, region, work⟩ := same.work
  obtain ⟨other, recvWork⟩ := sameRecv.work
  by_cases eager : send.state.mode = .eager
  · rw [work, recvWork, sendWork, receiveWork, if_pos eager, ← answers.mode, if_pos eager]
    rfl
  · rw [sendWork, if_neg eager] at work
    rw [work]
    exact (shown.links sender bound).aimed place _ recv isQueued isRecv _ _ _ _ work

theorem Shown.execute (bound : sender < worldSize)
    (isSend : (fabric.sends sender)[place]? = some send)
    (isRecv : (fabric.recvs (next worldSize sender))[place]? = some recv)
    (isQueued : (ring.sends sender)[place]? = some queued)
    (isTarget : (ring.recvs (next worldSize sender))[place]? = some target)
    (answers : send.Answers recv) :
    Shown platform worldSize (fabric.execute sender (next worldSize sender) place place send recv)
      (ring.execute sender (next worldSize sender) place place queued target) := by
  obtain ⟨_, found, same⟩ := Splits.forall₂_getElem? (shown.sends sender) isSend
  obtain rfl := Option.some.inj (isQueued.symm.trans found)
  obtain ⟨_, found, sameRecv⟩ := Splits.forall₂_getElem? (shown.recvs _) isRecv
  obtain rfl := Option.some.inj (isTarget.symm.trans found)
  have fit := fits_shown same sameRecv answers
  have fitted := VerbsRing.fits_of_answers answers
  obtain ⟨-, codes, imm⟩ := same.facts
  constructor
  case sends =>
    intro other
    by_cases here : other = sender
    · subst here
      simp only [Fabric.execute, Ring.execute, Function.update_self, fit, fitted, if_true]
      exact forall₂_modify_both (shown.sends other) fun work queued same =>
        ⟨same.call, same.elementCount, rfl, rfl, same.acknowledged, same.work⟩
    · simpa [Fabric.execute, Ring.execute, here] using shown.sends other
  case recvs =>
    intro other
    by_cases here : other = next worldSize sender
    · subst here
      simp only [Fabric.execute, Ring.execute, Function.update_self]
      exact forall₂_modify_both (shown.recvs _) fun work queued same =>
        ⟨same.call, same.elementCount, rfl, same.work⟩
    · simpa [Fabric.execute, Ring.execute, here] using shown.recvs other
  case cq =>
    intro other
    rw [entry_execute]
    by_cases here : other = next worldSize sender
    · subst here
      simp only [Fabric.execute, Ring.execute, Function.update_self]
      refine List.rel_append (shown.cq _) (.cons ⟨target.request, ?_, rfl, ?_, ?_, rfl, ?_⟩ .nil)
      · simp [Ring.entry, table, column, isTarget]
      · simp [VerbsRing.recvCompletion, recvOffer, fit, fitted]
      · simp only [VerbsRing.recvCompletion, recvOffer, codes]
        split <;> rfl
      · simp only [VerbsRing.recvCompletion, recvOffer, imm]
    · simpa [Fabric.execute, Ring.execute, here] using shown.cq other
  case links =>
    intro other otherBound
    refine (shown.links other otherBound).congr ?_ ?_ rfl ?_
    · by_cases here : other = sender
      · subst here
        simp [Fabric.execute]
      · simp [Fabric.execute, here]
    · by_cases here : next worldSize other = next worldSize sender
      · rw [here]
        simp only [Fabric.execute, Function.update_self]
        exact Splits.map_modify_same face (by exact fun _ => rfl) _ _
      · simp [Fabric.execute, here]
    · by_cases here : other = sender
      · subst here
        simp only [Ring.execute, Function.update_self]
        exact Splits.map_modify_same QueuedSend.request (by exact fun _ => rfl) _ _
      · simp [Ring.execute, here]

theorem Shown.acknowledge (isSend : (fabric.sends sender)[place]? = some send)
    (isQueued : (ring.sends sender)[place]? = some queued) :
    Shown platform worldSize (fabric.acknowledge sender place send)
      (ring.acknowledge sender place queued) := by
  obtain ⟨_, found, same⟩ := Splits.forall₂_getElem? (shown.sends sender) isSend
  obtain rfl := Option.some.inj (isQueued.symm.trans found)
  obtain ⟨-, codes, -⟩ := same.facts
  constructor
  case sends =>
    intro other
    by_cases here : other = sender
    · subst here
      simp only [Fabric.acknowledge, Ring.acknowledge, Function.update_self]
      exact forall₂_modify_both (shown.sends other) fun work queued same =>
        ⟨same.call, same.elementCount, same.executed, same.outcome, rfl, same.work⟩
    · simpa [Fabric.acknowledge, Ring.acknowledge, here] using shown.sends other
  case recvs => exact shown.recvs
  case cq =>
    intro other
    rw [entry_acknowledge]
    by_cases here : other = sender
    · subst here
      simp only [Fabric.acknowledge, Ring.acknowledge, Function.update_self]
      refine List.rel_append (shown.cq _) (.cons ⟨queued.request, ?_, rfl, ?_, ?_, rfl, rfl⟩ .nil)
      · simp [Ring.entry, table, column, isQueued]
      · exact same.outcome.symm
      · simp only [VerbsRing.sendCompletion, sendOffer, codes]
        split <;> rfl
    · simpa [Fabric.acknowledge, Ring.acknowledge, here] using shown.cq other
  case links =>
    intro other otherBound
    refine (shown.links other otherBound).congr ?_ rfl rfl ?_
    · by_cases here : other = sender
      · subst here
        simp [Fabric.acknowledge]
      · simp [Fabric.acknowledge, here]
    · by_cases here : other = sender
      · subst here
        simp only [Ring.acknowledge, Function.update_self]
        exact Splits.map_modify_same QueuedSend.request (by exact fun _ => rfl) _ _
      · simp [Ring.acknowledge, here]

omit shown in
theorem unpolled_update {Item : Type} (test : Item → Bool) (lists : Nat → List Item)
    (changed place other : Nat) {change : Item → Item}
    (same : ∀ item, test (change item) = test item) :
    (Function.update lists changed ((lists changed).modify place change) other).countP test =
      (lists other).countP test := by
  by_cases here : other = changed
  · subst here
    rw [Function.update_self, Splits.countP_modify_same test _ same]
  · rw [Function.update_of_ne here]

omit shown in
theorem unpolled_execute (receiver goal other : Nat) :
    unpolled (fabric.execute sender receiver place goal send recv) other = unpolled fabric other := by
  funext kind
  cases kind with
  | send => exact unpolled_update _ fabric.sends sender place other (by exact fun _ => rfl)
  | receive => exact unpolled_update _ fabric.recvs receiver goal other (by exact fun _ => rfl)

omit shown in
theorem unpolled_acknowledge (other : Nat) :
    unpolled (fabric.acknowledge sender place send) other = unpolled fabric other := by
  funext kind
  cases kind with
  | send => exact unpolled_update _ fabric.sends sender place other (by exact fun _ => rfl)
  | receive => rfl

theorem Shown.moveData (bound : sender < worldSize)
    (isSend : (fabric.sends sender)[place]? = some send)
    (isRecv : (fabric.recvs (next worldSize sender))[place]? = some recv)
    (isQueued : (ring.sends sender)[place]? = some queued)
    (isTarget : (ring.recvs (next worldSize sender))[place]? = some target)
    (answers : send.Answers recv) {origin goal : Buffer × Nat}
    (isOrigin : platform.pointer sender queued.call origin = source queued.request.work)
    (isGoal : platform.pointer (next worldSize sender) target.call goal =
      EndpointRing.destination queued.request.work target.request.work)
    (before after : Memory Value) :
    EndpointRing.moveData before after queued target origin goal =
      VerbsRing.moveData before after send recv := by
  obtain ⟨_, found, same⟩ := Splits.forall₂_getElem? (shown.sends sender) isSend
  obtain rfl := Option.some.inj (isQueued.symm.trans found)
  obtain ⟨_, found, sameRecv⟩ := Splits.forall₂_getElem? (shown.recvs _) isRecv
  obtain rfl := Option.some.inj (isTarget.symm.trans found)
  have fit := fits_shown same sameRecv answers
  have fitted := VerbsRing.fits_of_answers answers
  rw [same.facts.1, Platform.place, same.call] at isOrigin
  rw [shown.destination bound isSend isRecv isQueued isTarget answers, Platform.place,
    sameRecv.call] at isGoal
  obtain rfl := platform.apart _ _ _ _ isOrigin
  obtain rfl := platform.apart _ _ _ _ isGoal
  have lands : send.destination recv = (recv.post.buffer, recv.post.start) := by
    rw [SendWork.destination, answers.control]
    split <;> rfl
  rw [EndpointRing.moveData, VerbsRing.moveData, if_pos fit, if_pos fitted, lands,
    same.elementCount]

/-- The devices of the endpoints do what those of the fabric do. -/
theorem Shown.device (sound : FabricSound worldSize fabric) {memory memory' : Nat → Memory Value}
    {ring' : Ring} (step : DeviceStep platform worldSize ring memory ring' memory') :
    ∃ fabric', VerbsRing.DeviceStep worldSize fabric memory fabric' memory' ∧
      Shown platform worldSize fabric' ring' ∧ ring'.endpoints = ring.endpoints ∧
      ∀ rank, ring'.entry rank = ring.entry rank ∧ fabric'.stateOf rank = fabric.stateOf rank ∧
        unpolled fabric' rank = unpolled fabric rank := by
  cases step with
  | execute sender place goalPlace queued target origin goal bound isQueued unexecuted sendsBefore
      isTarget unconsumed recvsBefore found =>
      obtain ⟨send, isSend, same⟩ := Splits.forall₂_getElem? (shown.sends sender).flip isQueued
      obtain ⟨recv, isRecv, sameRecv⟩ := Splits.forall₂_getElem? (shown.recvs _).flip isTarget
      have fresh : send.executed = false := same.executed.symm.trans unexecuted
      have open' : recv.consumed = false := sameRecv.consumed.symm.trans unconsumed
      have earlierSends : ∀ earlier < place, ∀ work, (fabric.sends sender)[earlier]? = some work →
          work.executed = true := by
        intro earlier less work isWork
        obtain ⟨other, isOther, sameOther⟩ := Splits.forall₂_getElem? (shown.sends sender) isWork
        exact sameOther.executed.symm.trans (sendsBefore earlier less other isOther)
      have earlierRecvs : ∀ earlier < goalPlace, ∀ work,
          (fabric.recvs (next worldSize sender))[earlier]? = some work → work.consumed = true := by
        intro earlier less work isWork
        obtain ⟨other, isOther, sameOther⟩ := Splits.forall₂_getElem? (shown.recvs _) isWork
        exact sameOther.consumed.symm.trans (recvsBefore earlier less other isOther)
      obtain ⟨rfl, answers, -⟩ := sound.moves bound isSend fresh earlierSends isRecv open' earlierRecvs
      obtain ⟨isOrigin, isGoal⟩ := found (fits_shown same sameRecv answers)
      rw [shown.moveData bound isSend isRecv isQueued isTarget answers isOrigin isGoal]
      refine ⟨_, .execute sender goalPlace goalPlace send recv bound isSend fresh earlierSends isRecv
        open' earlierRecvs, shown.execute bound isSend isRecv isQueued isTarget answers, rfl,
        fun rank => ⟨entry_execute .., stateOf_execute .., unpolled_execute ..⟩⟩
  | acknowledge sender place queued bound isQueued executed unacknowledged =>
      obtain ⟨send, isSend, same⟩ := Splits.forall₂_getElem? (shown.sends sender).flip isQueued
      exact ⟨_, .acknowledge sender place send bound isSend (same.executed.symm.trans executed)
        (same.acknowledged.symm.trans unacknowledged), shown.acknowledge isSend isQueued, rfl,
        fun rank => ⟨entry_acknowledge .., stateOf_acknowledge .., unpolled_acknowledge ..⟩⟩

/-- Where the devices of the fabric can do something, those of the endpoints can. -/
theorem Shown.device_enabled (sound : FabricSound worldSize fabric)
    {memory memory' : Nat → Memory Value}
    (step : VerbsRing.DeviceStep worldSize fabric memory fabric' memory') :
    ∃ ring' memory', DeviceStep platform worldSize ring memory ring' memory' := by
  cases step with
  | execute sender place goalPlace send recv bound isSend unexecuted sendsBefore isRecv unconsumed
      recvsBefore =>
      obtain ⟨rfl, answers, -⟩ :=
        sound.moves bound isSend unexecuted sendsBefore isRecv unconsumed recvsBefore
      obtain ⟨queued, isQueued, same⟩ := Splits.forall₂_getElem? (shown.sends sender) isSend
      obtain ⟨target, isTarget, sameRecv⟩ := Splits.forall₂_getElem? (shown.recvs _) isRecv
      refine ⟨_, _, .execute sender goalPlace goalPlace queued target (send.post.buffer, send.post.start)
        (recv.post.buffer, recv.post.start) bound isQueued (same.executed.trans unexecuted) ?_ isTarget
        (sameRecv.consumed.trans unconsumed) ?_ fun _ => ⟨?_, ?_⟩⟩
      · intro earlier less other isOther
        obtain ⟨work, isWork, sameWork⟩ := Splits.forall₂_getElem? (shown.sends sender).flip isOther
        exact sameWork.executed.trans (sendsBefore earlier less work isWork)
      · intro earlier less other isOther
        obtain ⟨work, isWork, sameWork⟩ := Splits.forall₂_getElem? (shown.recvs _).flip isOther
        exact sameWork.consumed.trans (recvsBefore earlier less work isWork)
      · rw [same.facts.1, same.call]
        rfl
      · rw [shown.destination bound isSend isRecv isQueued isTarget answers, sameRecv.call]
        rfl
  | acknowledge sender place send bound isSend executed unacknowledged =>
      obtain ⟨queued, isQueued, same⟩ := Splits.forall₂_getElem? (shown.sends sender) isSend
      exact ⟨_, _, .acknowledge sender place queued bound isQueued (same.executed.trans executed)
        (same.acknowledged.trans unacknowledged)⟩

end Devices

end RingAllReduce.EndpointRing
