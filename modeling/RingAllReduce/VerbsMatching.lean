import RingAllReduce.VerbsFabric

/-!
Whether sends and receives match by tag. A rank posts its sends in one order, and the next rank has
posted its receives in another; the descriptors and the receive queue know one order only.
-/

namespace RingAllReduce.VerbsRing

open Rotation VerbsTransport

variable {Value : Type}

/-- One transfer from a rank to the next, byte by byte: where it is sent from and received to. -/
structure Transfer where
  tag : UInt32
  bytes : Nat
  mode : TransferMode
  source : Nat
  target : Nat
  deriving DecidableEq

def Transfer.post (transfer : Transfer) (start : Nat) : Post :=
  { call := 0, phase := .reduceScatter, step := 0, block := 0, pieceIndex := 0, elementOffset := 0,
    elementCount := transfer.bytes, bytes := transfer.bytes, tag := transfer.tag,
    mode := transfer.mode, buffer := .workbuf, start := start }

def Transfer.sendPost (transfer : Transfer) : Post := transfer.post transfer.source

def Transfer.recvPost (transfer : Transfer) : Post := transfer.post transfer.target

def Transfer.Valid (transfer : Transfer) : Prop := ∃ mode, Postable transfer.sendPost mode

/-- All receives are posted, one after the other; `none` if a post fails. -/
def postReceives (rank : Nat) : List Transfer → Fabric → Memory Value → Option Fabric
  | [], fabric, _ => some fabric
  | transfer :: transfers, fabric, memory =>
      match postReceivePrevious (fun _ => true) rank transfer.recvPost fabric memory with
      | .done (fabric, memory) (some _) => postReceives rank transfers fabric memory
      | _ => none

/-- The sends a rank has yet to post, while the device works and completions are polled. -/
structure Sending (Value : Type) where
  pending : List Transfer
  fabric : Fabric
  memory : Nat → Memory Value

inductive SendingStep (worldSize rank : Nat) : Sending Value → Sending Value → Prop
  | post {state : Sending Value} {transfer : Transfer} {rest : List Transfer} {fabric : Fabric}
      {memory : Memory Value} {handle : Handle} (pending : state.pending = transfer :: rest)
      (done : postSendNext (fun _ => true) worldSize rank transfer.sendPost state.fabric
        (state.memory rank) = .done (fabric, memory) (some handle)) :
      SendingStep worldSize rank state
        { pending := rest, fabric := fabric, memory := Function.update state.memory rank memory }
  | device {state : Sending Value} {fabric : Fabric} {memory : Nat → Memory Value}
      (done : DeviceStep worldSize state.fabric state.memory fabric memory) :
      SendingStep worldSize rank state { state with fabric := fabric, memory := memory }
  | poll {state : Sending Value} {fabric : Fabric} (owner : Nat) (bound : owner < worldSize)
      (polled : state.fabric.poll owner = some fabric) :
      SendingStep worldSize rank state { state with fabric := fabric }

def Fabric.Complete (fabric : Fabric) (sender receiver : Nat) : Prop :=
  (∀ work ∈ fabric.sends sender, work.state.completed = true) ∧
    ∀ work ∈ fabric.recvs receiver, work.state.completed = true

/-- Every post succeeds, and once all requests are complete each receive holds what was sent under
its tag and every wait returns 0. -/
def MatchesByTag (worldSize rank : Nat) (memory : Nat → Memory Value)
    (receives sends : List Transfer) : Prop :=
  ∃ fabric, postReceives (next worldSize rank) receives idleFabric
      (memory (next worldSize rank)) = some fabric ∧
    ∀ state, Runs.Reachable (SendingStep worldSize rank)
        { pending := sends, fabric := fabric, memory := memory } state →
      (∀ transfer rest, state.pending = transfer :: rest → ∃ after handle,
        postSendNext (fun _ => true) worldSize rank transfer.sendPost state.fabric
          (state.memory rank) = .done after (some handle)) ∧
      (state.pending = [] → state.fabric.Complete rank (next worldSize rank) →
        (∀ receive ∈ receives, ∀ send ∈ sends, send.tag = receive.tag →
          (state.memory (next worldSize rank)).load .workbuf receive.target receive.bytes =
            (memory rank).load .workbuf send.source send.bytes) ∧
        (∀ place < receives.length, waitRequest (next worldSize rank) (.receive, place) state.fabric
          (state.memory (next worldSize rank)) =
            .done (state.fabric, state.memory (next worldSize rank)) true) ∧
        ∀ place < sends.length, waitRequest rank (.send, place) state.fabric (state.memory rank) =
          .done (state.fabric, state.memory rank) true)

section Receives

variable {worldSize rank : Nat}

theorem postReceives_some {transfers : List Transfer} {fabric fabric' : Fabric}
    {memory : Memory Value} (sound : FabricSound worldSize fabric) (bound : rank < worldSize)
    (posted : postReceives rank transfers fabric memory = some fabric') :
    FabricSound worldSize fabric' ∧ (∀ transfer ∈ transfers, transfer.Valid) ∧
      (fabric'.recvs rank).map RecvWork.post =
        (fabric.recvs rank).map RecvWork.post ++ transfers.map Transfer.recvPost ∧
      fabric'.sends = fabric.sends ∧
      ∀ work ∈ fabric'.recvs rank, work ∈ fabric.recvs rank ∨ work.consumed = false := by
  induction transfers generalizing fabric memory with
  | nil =>
      obtain rfl := Option.some.inj posted
      exact ⟨sound, by simp, by simp, rfl, fun work member => Or.inl member⟩
  | cons transfer transfers ih =>
      rw [postReceives] at posted
      split at posted
      · rename_i after memory' handle done
        obtain ⟨-, failed | ⟨mode, postable, -, -, rfl⟩⟩ := postReceivePrevious_done done
        · simp at failed
        obtain ⟨sound', valid, posts, sends, fresh⟩ := ih (sound.addRecv bound postable) posted
        refine ⟨sound', ?_, ?_, sends, ?_⟩
        · intro other member
          rcases List.mem_cons.mp member with rfl | later
          · exact ⟨mode, postable⟩
          · exact valid other later
        · rw [posts]
          simp [Fabric.addRecv, Fabric.receiveWork]
        · intro work member
          rcases fresh work member with old | unconsumed
          · simp only [Fabric.addRecv, Function.update_self, List.mem_append,
              List.mem_singleton] at old
            rcases old with old | rfl
            · exact Or.inl old
            · exact Or.inr rfl
          · exact Or.inr unconsumed
      · simp at posted

theorem postReceives_valid (transfers : List Transfer)
    (valid : ∀ transfer ∈ transfers, transfer.Valid) (fabric : Fabric) (memory : Memory Value) :
    ∃ fabric', postReceives rank transfers fabric memory = some fabric' := by
  induction transfers generalizing fabric with
  | nil => exact ⟨fabric, rfl⟩
  | cons transfer transfers ih =>
      obtain ⟨mode, postable⟩ := valid transfer (by simp)
      have done := @postReceivePrevious_ok Value (fun _ => true) rank fabric memory transfer.recvPost
        mode postable rfl
      rw [postReceives, done]
      exact ih (fun other member => valid other (by simp [member])) _

end Receives

section Sends

variable {worldSize rank : Nat} {memory : Nat → Memory Value} {transfers : List Transfer}
  {state state' : Sending Value}

/-- Sends that are posted in the order of the receives. -/
structure Underway (worldSize rank : Nat) (memory : Nat → Memory Value)
    (transfers : List Transfer) (state : Sending Value) : Prop where
  sound : FabricSound worldSize state.fabric
  order : ∃ posted, transfers = posted ++ state.pending ∧
    (state.fabric.sends rank).map SendWork.post = posted.map Transfer.sendPost
  recvs : (state.fabric.recvs (next worldSize rank)).map RecvWork.post =
    transfers.map Transfer.recvPost
  others : ∀ other, other ≠ rank → state.fabric.sends other = []
  source : state.memory rank = memory rank
  landed : ∀ (place : Nat) transfer work, transfers[place]? = some transfer →
    (state.fabric.recvs (next worldSize rank))[place]? = some work → work.consumed = true →
      (state.memory (next worldSize rank)).load .workbuf transfer.target transfer.bytes =
        (memory rank).load .workbuf transfer.source transfer.bytes

theorem Underway.recv_at (underway : Underway worldSize rank memory transfers state) {place : Nat}
    {work : RecvWork} (found : (state.fabric.recvs (next worldSize rank))[place]? = some work) :
    ∃ transfer, transfers[place]? = some transfer ∧ work.post = transfer.recvPost := by
  have same := congrArg (fun posts => posts[place]?) underway.recvs
  simp only [List.getElem?_map, found, Option.map_some] at same
  obtain ⟨transfer, isTransfer, eq⟩ := Option.map_eq_some_iff.mp same.symm
  exact ⟨transfer, isTransfer, eq.symm⟩

theorem Underway.send_at (underway : Underway worldSize rank memory transfers state) {place : Nat}
    {work : SendWork} (found : (state.fabric.sends rank)[place]? = some work) :
    ∃ transfer, transfers[place]? = some transfer ∧ work.post = transfer.sendPost := by
  obtain ⟨posted, split, posts⟩ := underway.order
  have same := congrArg (fun posts => posts[place]?) posts
  simp only [List.getElem?_map, found, Option.map_some] at same
  obtain ⟨transfer, isTransfer, eq⟩ := Option.map_eq_some_iff.mp same.symm
  have bound := (List.getElem?_eq_some_iff.mp isTransfer).1
  exact ⟨transfer, by rw [split, List.getElem?_append_left bound, isTransfer], eq.symm⟩

theorem Underway.next_post (underway : Underway worldSize rank memory transfers state)
    (bound : rank < worldSize) (valid : ∀ transfer ∈ transfers, transfer.Valid)
    {transfer : Transfer} {rest : List Transfer} (pending : state.pending = transfer :: rest) :
    ∃ after handle, postSendNext (fun _ => true) worldSize rank transfer.sendPost state.fabric
      (state.memory rank) = .done after (some handle) := by
  obtain ⟨posted, split, posts⟩ := underway.order
  rw [pending] at split
  have lengths : (state.fabric.sends rank).length = posted.length := by
    simpa using congrArg List.length posts
  have recvLength : (state.fabric.recvs (next worldSize rank)).length = transfers.length := by
    simpa using congrArg List.length underway.recvs
  have inside : (state.fabric.sends rank).length <
      (state.fabric.recvs (next worldSize rank)).length := by
    rw [recvLength, lengths, split]
    simp
  have found := List.getElem?_eq_getElem inside
  obtain ⟨own, isOwn, postEq⟩ := underway.recv_at found
  obtain rfl : own = transfer := by
    rw [lengths, split] at isOwn
    simpa using isOwn.symm
  obtain ⟨unread, control⟩ := (underway.sound.links rank bound).head found
  obtain ⟨mode, postable⟩ := valid own (by rw [split]; simp)
  have sound := (underway.sound.ranks _ (next_lt (by omega) rank)).soundRecvs _
    (List.getElem_mem inside)
  have matched := not_mismatch sound postable (by rw [postEq]; rfl) (by rw [postEq]; rfl)
    (by rw [postEq]; rfl)
  exact ⟨_, _, postSendNext_ok postable control matched rfl⟩

theorem Underway.executed (underway : Underway worldSize rank memory transfers state)
    {place : Nat} {send : SendWork} {recv : RecvWork}
    (sound : FabricSound worldSize
      (state.fabric.execute rank (next worldSize rank) place place send recv))
    (several : next worldSize rank ≠ rank)
    (apart : transfers.Pairwise fun first second =>
      first.target + first.bytes ≤ second.target ∨ second.target + second.bytes ≤ first.target)
    (isSend : (state.fabric.sends rank)[place]? = some send)
    (isRecv : (state.fabric.recvs (next worldSize rank))[place]? = some recv)
    (answers : send.Answers recv) :
    Underway worldSize rank memory transfers { state with
      fabric := state.fabric.execute rank (next worldSize rank) place place send recv
      memory := Function.update state.memory (next worldSize rank)
        (moveData (state.memory rank) (state.memory (next worldSize rank)) send recv) } := by
  obtain ⟨posted, split, posts⟩ := underway.order
  obtain ⟨moved, isMoved, sendEq⟩ := underway.send_at isSend
  obtain ⟨same, isSame, recvEq⟩ := underway.recv_at isRecv
  obtain rfl := Option.some.inj (isMoved.symm.trans isSame)
  refine ⟨sound, ⟨posted, split, ?_⟩, ?_, ?_, ?_, ?_⟩
  · simp only [Fabric.execute, Function.update_self]
    exact (Splits.map_modify_same SendWork.post (by exact fun _ => rfl) _ _).trans posts
  · simp only [Fabric.execute, Function.update_self]
    exact (Splits.map_modify_same RecvWork.post (by exact fun _ => rfl) _ _).trans underway.recvs
  · intro other different
    simpa [Fabric.execute, different] using underway.others other different
  · simpa [Function.update_of_ne several.symm] using underway.source
  · intro index transfer work isTransfer isWork consumed
    simp only [Fabric.execute, Function.update_self] at isWork ⊢
    simp only [moveData, fits_of_answers answers, if_true, destination_of_answers answers, sendEq,
      recvEq, Transfer.sendPost, Transfer.recvPost, Transfer.post, underway.source]
    obtain ⟨old, isOld, rfl⟩ := Splits.getElem?_modify_some isWork
    by_cases here : index = place
    · subst here
      obtain rfl := Option.some.inj (isMoved.symm.trans isTransfer)
      apply List.ext_getElem?
      intro byte
      rw [Memory.load_getElem?, Memory.load_getElem?]
      split
      · rename_i inside
        exact congrArg some (Memory.store_inside _ _ _ _ (by rw [Memory.load_getElem?, if_pos inside]))
      · rfl
    · rw [if_neg here] at consumed
      rw [← underway.landed index transfer old isTransfer isOld consumed]
      apply Memory.load_congr
      intro byte inside
      apply Memory.store_outside
      have disjoint : transfer.target + transfer.bytes ≤ moved.target ∨
          moved.target + moved.bytes ≤ transfer.target := by
        obtain ⟨bound, rfl⟩ := List.getElem?_eq_some_iff.mp isTransfer
        obtain ⟨bound', rfl⟩ := List.getElem?_eq_some_iff.mp isMoved
        rw [List.pairwise_iff_getElem] at apart
        rcases Nat.lt_or_gt_of_ne here with less | less
        · exact apart _ _ bound bound' less
        · exact (apart _ _ bound' bound less).symm
      rw [Memory.load_length]
      omega

theorem Underway.step (underway : Underway worldSize rank memory transfers state)
    (bound : rank < worldSize) (several : next worldSize rank ≠ rank)
    (apart : transfers.Pairwise fun first second =>
      first.target + first.bytes ≤ second.target ∨ second.target + second.bytes ≤ first.target)
    (step : SendingStep worldSize rank state state') :
    Underway worldSize rank memory transfers state' := by
  cases step with
  | post pending done =>
      rename_i transfer rest fabric memory' handle
      obtain ⟨rfl, ⟨failed, -⟩ | ⟨mode, control, unread, postable, available, matched, -, -, rfl⟩⟩ :=
        postSendNext_done done
      · simp at failed
      obtain ⟨posted, split, posts⟩ := underway.order
      refine ⟨underway.sound.addSend bound postable available matched, ?_, underway.recvs, ?_, ?_, ?_⟩
      · refine ⟨posted ++ [transfer], by rw [split, pending]; simp, ?_⟩
        simp [Fabric.addSend, Fabric.read, Fabric.sendWork, posts]
      · intro other different
        simpa [Fabric.addSend, Fabric.read, different] using underway.others other different
      · simpa using underway.source
      · simpa [Function.update_of_ne several, Fabric.addSend, Fabric.read] using underway.landed
  | poll owner ownerBound polled =>
      rename_i fabric
      have sends := fun other => (poll_onLink polled other).1
      have recvs := fun other => (poll_onLink polled other).2.1
      have sendPosts : (fabric.sends rank).map SendWork.post =
          (state.fabric.sends rank).map SendWork.post := by
        simpa [SendWork.onLink, Function.comp_def] using congrArg (List.map Prod.fst) (sends rank)
      have recvPosts : (fabric.recvs (next worldSize rank)).map RecvWork.post =
          (state.fabric.recvs (next worldSize rank)).map RecvWork.post := by
        simpa [RecvWork.onLink, Function.comp_def] using
          congrArg (List.map Prod.fst) (recvs (next worldSize rank))
      obtain ⟨posted, split, posts⟩ := underway.order
      refine ⟨underway.sound.poll ownerBound polled, ⟨posted, split, sendPosts.trans posts⟩,
        recvPosts.trans underway.recvs, ?_, underway.source, ?_⟩
      · intro other different
        have none := sends other
        rwa [underway.others other different, List.map_nil, List.map_eq_nil_iff] at none
      · intro place transfer work isTransfer isWork consumed
        have same := congrArg (fun views => views[place]?) (recvs (next worldSize rank))
        simp only [List.getElem?_map, isWork, Option.map_some] at same
        obtain ⟨old, isOld, eq⟩ := Option.map_eq_some_iff.mp same.symm
        simp only [RecvWork.onLink, Prod.mk.injEq] at eq
        exact underway.landed place transfer old isTransfer isOld (eq.2.2.trans consumed)
  | device done =>
      cases done with
      | acknowledge sender place send senderBound isSend executed unacknowledged =>
          obtain ⟨posted, split, posts⟩ := underway.order
          obtain rfl : sender = rank := by
            by_contra different
            simp [underway.others sender different] at isSend
          refine ⟨underway.sound.acknowledges isSend executed unacknowledged,
            ⟨posted, split, ?_⟩, underway.recvs, ?_, underway.source, underway.landed⟩
          · simp only [Fabric.acknowledge, Function.update_self]
            exact (Splits.map_modify_same SendWork.post (by exact fun _ => rfl) _ _).trans posts
          · intro other different
            simpa [Fabric.acknowledge, different] using underway.others other different
      | execute sender place target send recv senderBound isSend unexecuted sendsBefore isRecv
          unconsumed recvsBefore =>
          obtain rfl : sender = rank := by
            by_contra different
            simp [underway.others sender different] at isSend
          obtain ⟨rfl, answers, sound⟩ := underway.sound.moves bound isSend unexecuted sendsBefore
            isRecv unconsumed recvsBefore
          exact underway.executed sound several apart isSend isRecv answers

theorem Underway.first {fabric : Fabric} (bound : rank < worldSize)
    (posted : postReceives (next worldSize rank) transfers idleFabric
      (memory (next worldSize rank)) = some fabric) :
    Underway worldSize rank memory transfers
      { pending := transfers, fabric := fabric, memory := memory } := by
  obtain ⟨sound, -, recvs, sends, fresh⟩ :=
    postReceives_some (idle_sound worldSize) (next_lt (by omega) rank) posted
  refine ⟨sound, ⟨[], rfl, by simp [sends, idleFabric]⟩, by simpa [idleFabric] using recvs,
    fun other _ => by simp [sends, idleFabric], rfl, ?_⟩
  intro place transfer work _ isWork consumed
  rcases fresh work (List.mem_of_getElem? isWork) with old | unconsumed
  · simp [idleFabric] at old
  · simp [unconsumed] at consumed

theorem Underway.received (underway : Underway worldSize rank memory transfers state)
    (bound : rank < worldSize) (complete : state.fabric.Complete rank (next worldSize rank))
    {transfer : Transfer} (member : transfer ∈ transfers) :
    (state.memory (next worldSize rank)).load .workbuf transfer.target transfer.bytes =
      (memory rank).load .workbuf transfer.source transfer.bytes := by
  obtain ⟨place, inside, rfl⟩ := List.getElem_of_mem member
  have length : (state.fabric.recvs (next worldSize rank)).length = transfers.length := by
    simpa using congrArg List.length underway.recvs
  have isWork := List.getElem?_eq_getElem (length ▸ inside)
  have isIn := List.mem_of_getElem? isWork
  have sound := (underway.sound.ranks _ (next_lt (by omega) rank)).soundRecvs _ isIn
  exact underway.landed place _ _ (List.getElem?_eq_getElem inside) isWork
    (sound.completed (complete.2 _ isIn))

theorem waitRequest_completed {fabric : Fabric} {memory : Memory Value} {handle : Handle}
    {request : VerbsTransport.RequestState} (found : fabric.stateOf rank handle = some request)
    (completed : request.completed = true) (status : request.status = 0) :
    waitRequest rank handle fabric memory = .done (fabric, memory) true := by
  simp [waitRequest, found, completed, status]

theorem Underway.waits (underway : Underway worldSize rank memory transfers state)
    (bound : rank < worldSize) (complete : state.fabric.Complete rank (next worldSize rank)) :
    (∀ place < (state.fabric.recvs (next worldSize rank)).length,
      waitRequest (next worldSize rank) (.receive, place) state.fabric
        (state.memory (next worldSize rank)) =
          .done (state.fabric, state.memory (next worldSize rank)) true) ∧
    ∀ place < (state.fabric.sends rank).length,
      waitRequest rank (.send, place) state.fabric (state.memory rank) =
        .done (state.fabric, state.memory rank) true := by
  constructor
  · intro place inside
    have member := List.getElem_mem inside
    have sound := (underway.sound.ranks _ (next_lt (by omega) rank)).soundRecvs _ member
    exact waitRequest_completed (by simp [Fabric.stateOf, inside]) (complete.2 _ member) sound.status
  · intro place inside
    have member := List.getElem_mem inside
    have sound := (underway.sound.ranks rank bound).soundSends _ member
    exact waitRequest_completed (by simp [Fabric.stateOf, inside]) (complete.1 _ member) sound.status

theorem matchesByTag_of_same_order (several : 2 ≤ worldSize) (bound : rank < worldSize)
    (nodup : (transfers.map Transfer.tag).Nodup)
    (apart : transfers.Pairwise fun first second =>
      first.target + first.bytes ≤ second.target ∨ second.target + second.bytes ≤ first.target)
    (valid : ∀ transfer ∈ transfers, transfer.Valid) :
    MatchesByTag worldSize rank memory transfers transfers := by
  have different : next worldSize rank ≠ rank := next_ne several bound
  obtain ⟨fabric, posted⟩ := @postReceives_valid Value (next worldSize rank) transfers valid
    idleFabric (memory (next worldSize rank))
  refine ⟨fabric, posted, ?_⟩
  intro state reached
  have underway : Underway worldSize rank memory transfers state :=
    reached.invariant _ (Underway.first bound posted)
      fun _ _ holds step => holds.step bound different apart step
  refine ⟨fun transfer rest pending => underway.next_post bound valid pending, ?_⟩
  intro none complete
  obtain ⟨received, sent⟩ := underway.waits bound complete
  have recvLength : (state.fabric.recvs (next worldSize rank)).length = transfers.length := by
    simpa using congrArg List.length underway.recvs
  have sendLength : (state.fabric.sends rank).length = transfers.length := by
    obtain ⟨posts, split, eq⟩ := underway.order
    rw [none, List.append_nil] at split
    simpa [split] using congrArg List.length eq
  rw [recvLength] at received
  rw [sendLength] at sent
  refine ⟨?_, received, sent⟩
  intro receive isReceive send isSend tag
  obtain rfl := List.inj_on_of_nodup_map nodup isSend isReceive tag
  exact underway.received bound complete isReceive

/-- Sends that are all posted carry the tags of the descriptors, in their order. -/
theorem tags_in_order {sends : List Transfer} {fabric : Fabric}
    (posts : ∀ state, Runs.Reachable (SendingStep worldSize rank)
        { pending := sends, fabric := fabric, memory := memory } state →
      ∀ transfer rest, state.pending = transfer :: rest → ∃ after handle,
        postSendNext (fun _ => true) worldSize rank transfer.sendPost state.fabric
          (state.memory rank) = .done after (some handle)) :
    sends.map Transfer.tag <+: (fabric.control (next worldSize rank)).map Descriptor.tag := by
  induction sends generalizing fabric memory with
  | nil => simp
  | cons transfer rest ih =>
      obtain ⟨⟨after, memory'⟩, handle, done⟩ := posts _ Relation.ReflTransGen.refl transfer rest rfl
      have first := SendingStep.post rfl done
      obtain ⟨-, ⟨failed, -⟩ | ⟨mode, control, unread, -, available, matched, -, -, rfl⟩⟩ :=
        postSendNext_done done
      · simp at failed
      have later := ih fun state reached => posts state (Relation.ReflTransGen.head first reached)
      have tag : transfer.tag = control.tag := by
        simp only [Mismatch, not_or, not_not] at matched
        exact matched.2.1.symm
      rw [available, List.map_cons, List.map_cons, tag, List.prefix_cons_inj]
      simpa [Fabric.addSend, Fabric.read] using later

theorem eq_of_tags {sends receives : List Transfer} (same : sends.Perm receives)
    (nodup : (receives.map Transfer.tag).Nodup)
    (tags : sends.map Transfer.tag = receives.map Transfer.tag) : sends = receives := by
  apply List.ext_getElem same.length_eq
  intro place inside inside'
  apply List.inj_on_of_nodup_map nodup (same.subset (List.getElem_mem inside))
    (List.getElem_mem inside')
  simpa [inside, inside'] using congrArg (fun list => list[place]?) tags

theorem same_order_of_matchesByTag {sends receives : List Transfer} (several : 2 ≤ worldSize)
    (same : sends.Perm receives) (nodup : (receives.map Transfer.tag).Nodup)
    (bound : rank < worldSize) (matchesTags : MatchesByTag worldSize rank memory receives sends) :
    sends = receives ∧ ∀ transfer ∈ receives, transfer.Valid := by
  obtain ⟨fabric, posted, runs⟩ := matchesTags
  obtain ⟨sound, valid, recvs, sendsEq, -⟩ :=
    postReceives_some (idle_sound worldSize) (next_lt (by omega) rank) posted
  refine ⟨eq_of_tags same nodup ?_, valid⟩
  have control : (fabric.control (next worldSize rank)).map Descriptor.tag =
      receives.map Transfer.tag := by
    rw [(sound.links rank bound).control, sendsEq]
    have tags := congrArg (List.map fun post => post.tag) recvs
    simpa [idleFabric, Function.comp_def, RecvWork.descriptor, Transfer.recvPost, Transfer.post]
      using tags
  have ordered := tags_in_order fun state reached => (runs state reached).1
  rw [control] at ordered
  exact ordered.eq_of_length (by simp [same.length_eq])

end Sends

/-- Two transfers of four bytes, the first eager and the second by rendezvous. -/
def twoTransfers : List Transfer :=
  [{ tag := 1, bytes := 4, mode := .eager, source := 0, target := 0 },
    { tag := 2, bytes := 4, mode := .rendezvous, source := 4, target := 4 }]

theorem twoTransfers_valid : ∀ transfer ∈ twoTransfers, transfer.Valid := by
  intro transfer member
  simp only [twoTransfers, List.mem_cons, List.not_mem_nil, or_false] at member
  rcases member with rfl | rfl
  · exact ⟨.eager, by decide, by decide, rfl⟩
  · exact ⟨.rendezvous, by decide, by decide, rfl⟩

end RingAllReduce.VerbsRing
