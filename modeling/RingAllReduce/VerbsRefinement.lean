import RingAllReduce.MixedCalls
import RingAllReduce.QueueDepths
import RingAllReduce.VerbsTermination
import RingAllReduce.ZeroCopyRefinement

/-!
The ring of Verbs endpoints refines the zero-copy ring, and with it the mock: what an endpoint does
at once, executing a work request or polling a completion, the zero-copy transport does in several
steps.
-/

namespace RingAllReduce.VerbsRing

open Exchange Rotation VerbsTransport

variable {Value : Type} {setup : Setup Value} {rank : Nat} {room : Nat → Bool}

/-! What the zero-copy transport does on its own, some steps in a row. -/

section Moves

variable {worldSize : Nat} {net : ZeroCopyNet Value} {memory : Nat → Memory Value}

def Moves (worldSize : Nat) (before after : ZeroCopyNet Value × (Nat → Memory Value)) : Prop :=
  Relation.ReflTransGen (fun before after =>
    ZeroCopyStep (Parts.whole Value) worldSize before.1 before.2 after.1 after.2) before after

theorem Moves.reachable {before after : ZeroCopyNet Value × (Nat → Memory Value)}
    (moves : Moves setup.worldSize before after) (states : Nat → RankState ZeroCopyRequest) :
    Runs.Reachable (Step setup (zeroCopyTransport (Parts.whole Value) setup.worldSize))
      { rank := states, memory := before.2, net := before.1 }
      { rank := states, memory := after.2, net := after.1 } := by
  induction moves with
  | refl => exact .refl
  | tail _ done ih => exact ih.next (.background done)

theorem setSend_self {sender place : Nat} {cell : SendCell Value}
    (found : (net.sends sender)[place]? = some cell) : net.setSend sender place cell = net := by
  have same : (net.sends sender).set place cell = net.sends sender := by
    obtain ⟨inside, rfl⟩ := List.getElem?_eq_some_iff.mp found
    exact List.set_getElem_self inside
  rw [ZeroCopyNet.setSend, same, Function.update_eq_self]

theorem setRecv_self {receiver place : Nat} {cell : RecvCell}
    (found : (net.recvs receiver)[place]? = some cell) : net.setRecv receiver place cell = net := by
  have same : (net.recvs receiver).set place cell = net.recvs receiver := by
    obtain ⟨inside, rfl⟩ := List.getElem?_eq_some_iff.mp found
    exact List.set_getElem_self inside
  rw [ZeroCopyNet.setRecv, same, Function.update_eq_self]

theorem setSend_setSend (sender place : Nat) (first second : SendCell Value) :
    (net.setSend sender place first).setSend sender place second =
      net.setSend sender place second := by
  simp [ZeroCopyNet.setSend]

theorem setRecv_setRecv (receiver place : Nat) (first second : RecvCell) :
    (net.setRecv receiver place first).setRecv receiver place second =
      net.setRecv receiver place second := by
  simp [ZeroCopyNet.setRecv]

theorem setSend_found {sender place : Nat} {cell : SendCell Value}
    (found : (net.sends sender)[place]? = some cell) (new : SendCell Value) :
    ((net.setSend sender place new).sends sender)[place]? = some new := by
  simp [ZeroCopyNet.setSend, (List.getElem?_eq_some_iff.mp found).1]

/-- All of a send is read at one moment. -/
theorem fetch_all {sender place : Nat} {cell : SendCell Value} (bound : sender < worldSize)
    (found : (net.sends sender)[place]? = some cell) (underway : cell.completed = false) :
    ∀ count ≤ cell.post.elementCount, ∃ cell',
      Moves worldSize (net, memory) (net.setSend sender place cell', memory) ∧
      cell'.post = cell.post ∧ cell'.completed = false ∧
      ∀ index < count, cell'.fetched index 0 =
        some (memory sender cell.post.buffer (cell.post.start + index)) := by
  intro count
  induction count with
  | zero =>
      intro _
      refine ⟨cell, ?_, rfl, underway, by simp⟩
      rw [setSend_self found]
      exact .refl
  | succ count ih =>
      intro inside
      obtain ⟨cell', moves, post, underway', fetched⟩ := ih (by omega)
      refine ⟨cell'.fetch count 0 ((Parts.whole Value).get
        (memory sender cell'.post.buffer (cell'.post.start + count)) 0), ?_, post, underway', ?_⟩
      · have step := @ZeroCopyStep.fetch _ _ (Parts.whole Value) worldSize _ memory sender place
          cell' count 0 bound (setSend_found found cell') underway' (by rw [post]; omega)
          Nat.zero_lt_one
        rw [setSend_setSend] at step
        exact moves.tail step
      · intro index less
        by_cases last : index = count
        · subst last
          simp [SendCell.fetch, Parts.whole, post]
        · simpa [SendCell.fetch, last] using fetched index (by omega)

theorem paired_setRecv {sender receiver place target : Nat} {send : SendCell Value}
    {recv new : RecvCell} (paired : Paired net sender receiver place target send recv)
    (post : new.post = recv.post) :
    Paired (net.setRecv receiver target new) sender receiver place target send new := by
  have bound := (List.getElem?_eq_some_iff.mp paired.isRecv).1
  refine ⟨paired.isSend, ?_, by rw [post]; exact paired.tag, ?_⟩
  · simp [ZeroCopyNet.setRecv, bound]
  · have posts : ((net.setRecv receiver target new).recvs receiver).map RecvCell.post =
        (net.recvs receiver).map RecvCell.post := by
      simp only [ZeroCopyNet.setRecv, Function.update_self]
      exact Splits.map_set_same _ paired.isRecv post
    rw [posts, post]
    exact paired.order

theorem paired_setSend {sender receiver place target : Nat} {send new : SendCell Value}
    {recv : RecvCell} (paired : Paired net sender receiver place target send recv)
    (post : new.post = send.post) :
    Paired (net.setSend sender place new) sender receiver place target new recv := by
  refine ⟨setSend_found paired.isSend new, paired.isRecv, by rw [post]; exact paired.tag, ?_⟩
  have posts : ((net.setSend sender place new).sends sender).map SendCell.post =
      (net.sends sender).map SendCell.post := by
    simp only [ZeroCopyNet.setSend, Function.update_self]
    exact Splits.map_set_same _ paired.isSend post
  rw [posts, post]
  exact paired.order

theorem store_snoc (memory : Memory Value) (buffer : Buffer) (start count : Nat)
    (content : Nat → Value) :
    (memory.store buffer start ((List.range count).map content)).writePart (Parts.whole Value) buffer
        (start + count) 0 (content count) =
      memory.store buffer start ((List.range (count + 1)).map content) := by
  funext target index
  rw [Memory.store_eq_ite, Memory.writePart]
  by_cases here : target = buffer ∧ index = start + count
  · obtain ⟨rfl, rfl⟩ := here
    simp [Parts.whole]
  · rw [if_neg here, Memory.store_eq_ite]
    congr 1
    apply propext
    constructor <;> rintro ⟨rfl, lower, upper⟩ <;> refine ⟨rfl, lower, ?_⟩ <;> simp at here <;> omega

/-- All of a receive is written at one moment. -/
theorem deliver_all {sender place target : Nat} {send : SendCell Value} {recv : RecvCell}
    {content : Nat → Value} (bound : sender < worldSize)
    (paired : Paired net sender (next worldSize sender) place target send recv)
    (sizes : send.post.bytes = recv.post.bytes) (underway : recv.completed = false)
    (fetched : ∀ index < recv.post.elementCount, send.fetched index 0 = some (content index)) :
    ∀ count ≤ recv.post.elementCount, ∃ recv',
      Moves worldSize (net, memory) (net.setRecv (next worldSize sender) target recv',
        Function.update memory (next worldSize sender) ((memory (next worldSize sender)).store
          recv.post.buffer recv.post.start ((List.range count).map content))) ∧
      recv'.post = recv.post ∧ recv'.completed = false ∧
      ∀ index < count, recv'.delivered index 0 = true := by
  intro count
  induction count with
  | zero =>
      intro _
      refine ⟨recv, ?_, rfl, underway, by simp⟩
      have same : (memory (next worldSize sender)).store recv.post.buffer recv.post.start
          ((List.range 0).map content) = memory (next worldSize sender) := by
        funext target index
        exact Memory.store_outside _ (Or.inr (by simp; omega))
      rw [setRecv_self paired.isRecv, same, Function.update_eq_self]
      exact .refl
  | succ count ih =>
      intro inside
      obtain ⟨recv', moves, post, underway', delivered⟩ := ih (by omega)
      refine ⟨recv'.deliver count 0, ?_, post, underway', ?_⟩
      · have step := @ZeroCopyStep.deliver _ _ (Parts.whole Value) worldSize _ (Function.update memory
            (next worldSize sender) ((memory (next worldSize sender)).store recv.post.buffer
              recv.post.start ((List.range count).map content))) sender place target send recv' count 0
            (content count) bound (paired_setRecv paired post) (by rw [sizes, post]) underway'
            (by rw [post]; omega) Nat.zero_lt_one (fetched count (by omega))
        rw [setRecv_setRecv, Function.update_self, Function.update_idem, post, store_snoc] at step
        exact moves.tail step
      · intro index less
        by_cases last : index = count
        · simp [RecvCell.deliver, last]
        · simpa [RecvCell.deliver, last] using delivered index (by omega)

end Moves

/-! The zero-copy ring in the place of a fabric. -/

structure SendShown (work : SendWork) (cell : SendCell Value) : Prop where
  post : cell.post = work.post
  completed : cell.completed = work.state.completed
  fetched : work.executed = true → ∀ index < work.post.elementCount,
    (cell.fetched index 0).isSome = true

structure RecvShown (work : RecvWork) (cell : RecvCell) : Prop where
  post : cell.post = work.post
  completed : cell.completed = work.state.completed
  delivered : work.consumed = true → ∀ index < work.post.elementCount, cell.delivered index 0 = true

structure Shown (fabric : Fabric) (net : ZeroCopyNet Value) : Prop where
  sends : ∀ rank, List.Forall₂ SendShown (fabric.sends rank) (net.sends rank)
  recvs : ∀ rank, List.Forall₂ RecvShown (fabric.recvs rank) (net.recvs rank)

/-- The two rings at the same point of their runs. -/
structure Twin (world : VerbsWorld Value) (mirror : ZeroCopyWorld Value Value) : Prop where
  rank : mirror.rank = world.rank
  memory : mirror.memory = world.memory
  net : Shown world.net mirror.net

section Shown

variable {fabric : Fabric} {net : ZeroCopyNet Value} (shown : Shown fabric net)

include shown

theorem Shown.setSend {sender place : Nat} {change : SendWork → SendWork} {cell : SendCell Value}
    (holds : ∀ work, (fabric.sends sender)[place]? = some work → SendShown (change work) cell)
    (cq : Nat → List (Handle × WorkCompletion)) :
    Shown { fabric with
        sends := Function.update fabric.sends sender ((fabric.sends sender).modify place change)
        cq := cq }
      (net.setSend sender place cell) := by
  refine ⟨fun rank => ?_, shown.recvs⟩
  by_cases here : rank = sender
  · subst here
    simpa [ZeroCopyNet.setSend] using Splits.forall₂_modify_set (shown.sends rank) holds
  · simpa [ZeroCopyNet.setSend, here] using shown.sends rank

theorem Shown.setRecv {receiver place : Nat} {change : RecvWork → RecvWork} {cell : RecvCell}
    (holds : ∀ work, (fabric.recvs receiver)[place]? = some work → RecvShown (change work) cell)
    (cq : Nat → List (Handle × WorkCompletion)) :
    Shown { fabric with
        recvs := Function.update fabric.recvs receiver ((fabric.recvs receiver).modify place change)
        cq := cq }
      (net.setRecv receiver place cell) := by
  refine ⟨shown.sends, fun rank => ?_⟩
  by_cases here : rank = receiver
  · subst here
    simpa [ZeroCopyNet.setRecv] using Splits.forall₂_modify_set (shown.recvs rank) holds
  · simpa [ZeroCopyNet.setRecv, here] using shown.recvs rank

theorem Shown.acknowledge (sender place : Nat) (send : SendWork) :
    Shown (fabric.acknowledge sender place send) net := by
  refine ⟨fun rank => ?_, shown.recvs⟩
  by_cases here : rank = sender
  · subst here
    simp only [Fabric.acknowledge, Function.update_self]
    exact Splits.forall₂_modify (shown.sends rank)
      fun work cell here => ⟨here.post, here.completed, here.fetched⟩
  · simpa [Fabric.acknowledge, here] using shown.sends rank

theorem Shown.addRecv (rank : Nat) (post : Post) (mode : TransferMode) :
    Shown (fabric.addRecv rank (fabric.receiveWork rank post mode))
      { net with recvs := Function.update net.recvs rank (net.recvs rank ++
          [{ post := post, delivered := fun _ _ => false, completed := false, status := 0 }]) } := by
  have fresh : RecvShown (fabric.receiveWork rank post mode)
      { post := post, delivered := fun _ _ => false, completed := false, status := 0 } :=
    ⟨rfl, rfl, fun consumed => by simp [Fabric.receiveWork] at consumed⟩
  refine ⟨shown.sends, fun other => ?_⟩
  by_cases here : other = rank
  · subst here
    simpa [Fabric.addRecv] using List.rel_append (shown.recvs other) (.cons fresh .nil)
  · simpa [Fabric.addRecv, here] using shown.recvs other

theorem Shown.addSend (rank : Nat) (post : Post) (mode : TransferMode) (control : Descriptor) :
    Shown (fabric.addSend rank (fabric.sendWork rank post mode control))
      { net with sends := Function.update net.sends rank (net.sends rank ++
          [{ post := post, fetched := fun _ _ => none, completed := false }]) } := by
  have fresh : SendShown (fabric.sendWork rank post mode control)
      ({ post := post, fetched := fun _ _ => none, completed := false } : SendCell Value) :=
    ⟨rfl, rfl, fun executed => by simp [Fabric.sendWork] at executed⟩
  refine ⟨fun other => ?_, shown.recvs⟩
  by_cases here : other = rank
  · subst here
    simpa [Fabric.addSend] using List.rel_append (shown.sends other) (.cons fresh .nil)
  · simpa [Fabric.addSend, here] using shown.sends other

theorem Shown.read (writer : Nat) (unread : List Descriptor) :
    Shown (fabric.read writer unread) net :=
  ⟨shown.sends, shown.recvs⟩

end Shown

/-- What a rank does on its own does not depend on the transport. -/
theorem perform_elsewhere {Net OtherNet Request : Type} {transport : Transport Value Net Request}
    (other : Transport Value OtherNet Request) {instr : Instr} (noEvent : instr.event = none)
    {vars : Variables Request} {net net' : Net} {memory memory' : Memory Value}
    {verdict : Verdict Request}
    (outcome : perform setup transport rank vars net memory instr = .done (net', memory') verdict)
    (otherNet : OtherNet) :
    net' = net ∧ perform setup other rank vars otherNet memory instr =
      .done (otherNet, memory') verdict := by
  cases instr with
  | postRecv post | postSend post | waitRecv post | waitSend post => simp [Instr.event] at noEvent
  | storeOwned block | advanceSequence =>
      simp only [perform, Outcome.done.injEq, Prod.mk.injEq] at outcome
      obtain ⟨⟨rfl, rfl⟩, rfl⟩ := outcome
      exact ⟨rfl, rfl⟩
  | load call | copyInput count | reduce _ _ _ _ _ | ret status =>
      simp only [perform] at outcome ⊢
      split at outcome
      all_goals
        simp only [Outcome.done.injEq, Prod.mk.injEq] at outcome
        obtain ⟨⟨rfl, rfl⟩, rfl⟩ := outcome
        exact ⟨rfl, rfl⟩

section Simulation

variable {world : VerbsWorld Value} {mirror : ZeroCopyWorld Value Value} {fabric : Fabric}

/-- A send and a receive at the same place are paired. -/
theorem paired_of_place (mirrorInv : ZeroCopyInvariant (Parts.whole Value) setup mirror)
    (onSchedule : ∀ rank, OnSchedule setup rank (mirror.rank rank)) (same : setup.SamePieces)
    {sender place : Nat} (bound : sender < setup.worldSize) {send : SendCell Value} {recv : RecvCell}
    (isSend : (mirror.net.sends sender)[place]? = some send)
    (isRecv : (mirror.net.recvs (next setup.worldSize sender))[place]? = some recv) :
    Paired mirror.net sender (next setup.worldSize sender) place place send recv ∧
      send.post.toPiece = recv.post.toPiece := by
  obtain ⟨sent, expected⟩ := mirrorInv.posted onSchedule same bound
  have sendBound := (List.getElem?_eq_some_iff.mp isSend).1
  have recvBound := (List.getElem?_eq_some_iff.mp isRecv).1
  have sendEq := Splits.prefix_getElem? sent (by simpa using sendBound)
  have recvEq := Splits.prefix_getElem? expected (by simpa using recvBound)
  rw [sendEq, List.getElem?_map, List.getElem?_map, isSend, isRecv] at recvEq
  have piece : send.post.toPiece = recv.post.toPiece := Option.some.inj recvEq
  have tag : send.post.tag = recv.post.tag := congrArg Piece.tag piece
  refine ⟨⟨isSend, isRecv, tag, ?_⟩, piece⟩
  rw [ordinal_eq _ sent _ sendBound.le, ordinal_eq _ expected _ recvBound.le, tag]

variable (inv : VerbsInvariant setup world) (same : setup.SamePieces)
  (mirrorInv : ZeroCopyInvariant (Parts.whole Value) setup mirror)
  (onSchedule : ∀ rank, OnSchedule setup rank (mirror.rank rank)) (twin : Twin world mirror)

include inv mirrorInv onSchedule twin

/-- What a rank performs on its fabric it also performs on the zero-copy ring. -/
theorem Twin.performs (bound : rank < setup.worldSize) {instr : Instr} {rest : List Instr}
    (todo : (world.rank rank).todo = instr :: rest) {memory : Memory Value} {vars : Variables Handle}
    (outcome : perform setup (verbsTransport Value room setup.worldSize) rank (world.rank rank).vars
      world.net (world.memory rank) instr = .done (fabric, memory) (.next vars)) :
    ∃ net, perform setup (zeroCopyTransport (Parts.whole Value) setup.worldSize) rank
        (mirror.rank rank).vars mirror.net (mirror.memory rank) instr =
          .done (net, memory) (.next vars) ∧ Shown fabric net := by
  rw [twin.rank, twin.memory]
  have scheduled := twin.rank ▸ onSchedule rank
  have kept := inv.kept rank bound
  cases instr with
  | postRecv post =>
      obtain ⟨answer, posted, answered⟩ := Outcome.map_eq_done outcome
      obtain ⟨rfl, ⟨rfl, -⟩ | ⟨mode, -, -, rfl, rfl⟩⟩ := postReceivePrevious_done posted
      · simp at answered
      · obtain rfl := Verdict.next.inj answered
        refine ⟨_, ?_, twin.net.addRecv rank post mode⟩
        rw [(twin.net.recvs rank).length_eq]
        rfl
  | postSend post =>
      obtain ⟨answer, posted, answered⟩ := Outcome.map_eq_done outcome
      obtain ⟨rfl, ⟨rfl, -⟩ | ⟨mode, control, unread, -, -, -, -, rfl, rfl⟩⟩ := postSendNext_done posted
      · simp at answered
      · obtain rfl := Verdict.next.inj answered
        refine ⟨_, ?_, (twin.net.read _ unread).addSend rank post mode control⟩
        rw [(twin.net.sends rank).length_eq]
        rfl
  | waitRecv post =>
      obtain ⟨inside, slot⟩ := kept.waitRecv_handle scheduled bound todo
      obtain ⟨cell, isCell, workShown⟩ := Splits.forall₂_getElem? (twin.net.recvs rank)
        (List.getElem?_eq_getElem inside)
      simp only [perform, slot] at outcome ⊢
      obtain ⟨ok, waited, answered⟩ := Outcome.map_eq_done outcome
      cases ok with
      | false => simp at answered
      | true =>
          obtain ⟨rfl, rfl, found⟩ := waitRequest_done waited
          obtain ⟨request, isRequest, completed⟩ := found rfl
          have isWork := isRequest
          simp only [Fabric.stateOf, List.getElem?_eq_getElem inside, Option.map_some,
            Option.some.injEq] at isWork
          rw [← isWork, ← workShown.completed] at completed
          have status := ((mirrorInv.ends rank bound).arrived cell (List.mem_of_getElem? isCell)).1
          refine ⟨mirror.net, ?_, twin.net⟩
          simp only [zeroCopyTransport, zeroCopyWait, isCell, completed, status, decide_true, if_true,
            Outcome.map]
          simpa using answered
  | waitSend post =>
      obtain ⟨inside, slot⟩ := kept.waitSend_handle scheduled bound todo
      obtain ⟨cell, isCell, workShown⟩ := Splits.forall₂_getElem? (twin.net.sends rank)
        (List.getElem?_eq_getElem inside)
      simp only [perform, slot] at outcome ⊢
      obtain ⟨ok, waited, answered⟩ := Outcome.map_eq_done outcome
      cases ok with
      | false => simp at answered
      | true =>
          obtain ⟨rfl, rfl, found⟩ := waitRequest_done waited
          obtain ⟨request, isRequest, completed⟩ := found rfl
          have isWork := isRequest
          simp only [Fabric.stateOf, List.getElem?_eq_getElem inside, Option.map_some,
            Option.some.injEq] at isWork
          rw [← isWork, ← workShown.completed] at completed
          refine ⟨mirror.net, ?_, twin.net⟩
          simp only [zeroCopyTransport, zeroCopyWait, isCell, completed, if_true, Outcome.map]
          simpa using answered
  | _ =>
      obtain ⟨rfl, performed⟩ := perform_elsewhere
        (zeroCopyTransport (Parts.whole Value) setup.worldSize) rfl outcome mirror.net
      exact ⟨_, performed, twin.net⟩

include same

theorem Twin.execute {sender place target : Nat} {send : SendWork} {recv : RecvWork}
    (bound : sender < setup.worldSize) (isSend : (world.net.sends sender)[place]? = some send)
    (unexecuted : send.executed = false)
    (sendsBefore : ∀ earlier < place, ∀ work, (world.net.sends sender)[earlier]? = some work →
      work.executed = true)
    (isRecv : (world.net.recvs (next setup.worldSize sender))[target]? = some recv)
    (unconsumed : recv.consumed = false)
    (recvsBefore : ∀ earlier < target, ∀ work,
      (world.net.recvs (next setup.worldSize sender))[earlier]? = some work → work.consumed = true) :
    ∃ net, Moves setup.worldSize (mirror.net, mirror.memory) (net, Function.update world.memory
        (next setup.worldSize sender) (moveData (world.memory sender)
          (world.memory (next setup.worldSize sender)) send recv)) ∧
      Shown (world.net.execute sender (next setup.worldSize sender) place target send recv) net := by
  obtain ⟨rfl, answers, -⟩ := inv.sound.moves bound isSend unexecuted sendsBefore isRecv unconsumed
    recvsBefore
  have receiverBound := next_lt setup.positive sender
  obtain ⟨cell, isCell, sendShown⟩ := Splits.forall₂_getElem? (twin.net.sends sender) isSend
  obtain ⟨cell', isCell', recvShown⟩ := Splits.forall₂_getElem? (twin.net.recvs _) isRecv
  obtain ⟨paired, piece⟩ := paired_of_place mirrorInv onSchedule same bound isCell isCell'
  -- neither request is complete yet
  have sendSound := (inv.sound.ranks sender bound).soundSends send (List.mem_of_getElem? isSend)
  have recvSound := (inv.sound.ranks _ receiverBound).soundRecvs recv (List.mem_of_getElem? isRecv)
  have underway : cell.completed = false := by
    rw [sendShown.completed, Bool.eq_false_iff]
    intro completed
    simp [sendSound.acknowledged (sendSound.completed completed)] at unexecuted
  have underway' : cell'.completed = false := by
    rw [recvShown.completed, Bool.eq_false_iff]
    intro completed
    simp [recvSound.completed completed] at unconsumed
  have counts : send.post.elementCount = recv.post.elementCount := by
    rw [← sendShown.post, ← recvShown.post]
    exact congrArg Piece.elementCount piece
  obtain ⟨read, fetches, readPost, readUnderway, fetched⟩ := @fetch_all _ setup.worldSize mirror.net
    mirror.memory sender target cell bound isCell underway cell.post.elementCount (Nat.le_refl _)
  have pairedRead := paired_setSend paired readPost
  obtain ⟨written, delivers, writtenPost, writtenUnderway, delivered⟩ :=
    @deliver_all _ setup.worldSize _ mirror.memory sender target target read cell'
      (fun index => mirror.memory sender cell.post.buffer (cell.post.start + index)) bound pairedRead
      (by rw [readPost]; exact congrArg Piece.bytes piece) underway'
      (fun index inside => fetched index (by rw [sendShown.post, counts, ← recvShown.post]; exact inside))
      cell'.post.elementCount (Nat.le_refl _)
  refine ⟨(mirror.net.setSend sender target read).setRecv (next setup.worldSize sender) target written,
    ?_, (twin.net.setSend ?_ world.net.cq).setRecv ?_ _⟩
  · have whole := fetches.trans delivers
    rw [moveData, if_pos (fits_of_answers answers), destination_of_answers answers, Memory.load, counts,
      twin.memory]
    rw [recvShown.post, sendShown.post, twin.memory] at whole
    exact whole
  · intro work found
    obtain rfl := Option.some.inj (isSend.symm.trans found)
    refine ⟨by rw [readPost, sendShown.post], ?_, fun _ index inside => ?_⟩
    · rw [readUnderway, ← underway, sendShown.completed]
    · rw [fetched index (by rw [sendShown.post]; exact inside)]
      rfl
  · intro work found
    obtain rfl := Option.some.inj (isRecv.symm.trans found)
    refine ⟨by rw [writtenPost, recvShown.post], ?_, fun _ index inside => ?_⟩
    · rw [writtenUnderway, ← underway', recvShown.completed]
    · exact delivered index (by rw [recvShown.post]; exact inside)

theorem Twin.poll (bound : rank < setup.worldSize) (polled : world.net.poll rank = some fabric) :
    ∃ net, Moves setup.worldSize (mirror.net, mirror.memory) (net, mirror.memory) ∧
      Shown fabric net := by
  have sound := inv.sound.ranks rank bound
  unfold Fabric.poll at polled
  split at polled
  · simp at polled
  rename_i handle completion rest queue
  obtain ⟨kind, place⟩ := handle
  cases kind with
  | send =>
      obtain rfl := Option.some.inj polled
      obtain ⟨work, isWork, acknowledged, -⟩ := (sound.servedSends.owed place).mp (by simp [queue])
      obtain ⟨cell, isCell, workShown⟩ := Splits.forall₂_getElem? (twin.net.sends rank) isWork
      have executed := (sound.soundSends work (List.mem_of_getElem? isWork)).acknowledged acknowledged
      refine ⟨_, .single (.completeSend rank place cell bound isCell ?_), twin.net.setSend ?_ _⟩
      · intro index inside part partBound
        obtain rfl : part = 0 := Nat.lt_one_iff.mp partBound
        exact workShown.fetched executed index (by rw [← workShown.post]; exact inside)
      · intro other found
        obtain rfl := Option.some.inj (isWork.symm.trans found)
        exact ⟨workShown.post, rfl, workShown.fetched⟩
  | receive =>
      obtain rfl := Option.some.inj polled
      obtain ⟨work, isWork, consumed, -⟩ := (sound.servedRecvs.owed place).mp (by simp [queue])
      obtain ⟨cell, isCell, workShown⟩ := Splits.forall₂_getElem? (twin.net.recvs rank) isWork
      obtain ⟨prev, prevBound, rfl⟩ := exists_prev bound
      -- what it has received was sent, so there is a send at its place
      obtain ⟨count, le, -, moved⟩ := (inv.sound.links prev prevBound).moved
      have sent := (moved place work isWork).mp consumed
      obtain ⟨sendCell, isSendCell, -⟩ := Splits.forall₂_getElem? (twin.net.sends prev)
        (List.getElem?_eq_getElem (show place < (world.net.sends prev).length by omega))
      obtain ⟨paired, piece⟩ := paired_of_place mirrorInv onSchedule same prevBound isSendCell isCell
      refine ⟨_, .single (.completeRecv prev place place sendCell cell prevBound paired
        (congrArg Piece.bytes piece) ?_), twin.net.setRecv ?_ _⟩
      · intro index inside part partBound
        obtain rfl : part = 0 := Nat.lt_one_iff.mp partBound
        exact workShown.delivered consumed index (by rw [← workShown.post]; exact inside)
      · intro other found
        obtain rfl := Option.some.inj (isWork.symm.trans found)
        exact ⟨workShown.post, rfl, workShown.delivered⟩

end Simulation

theorem Twin.put {world : VerbsWorld Value} {mirror : ZeroCopyWorld Value Value}
    (twin : Twin world mirror) (state : RankState Handle) {fabric : Fabric} {net : ZeroCopyNet Value}
    (shown : Shown fabric net) (memory : Memory Value) :
    Twin (world.put rank state fabric memory) (mirror.put rank state net memory) :=
  ⟨by rw [World.put, World.put, twin.rank], by rw [World.put, World.put, twin.memory], shown⟩

/-- Every run over Verbs endpoints is one over the zero-copy transport, with the same ranks and the
same memory. -/
theorem exists_twin (uniform : Uniform setup) {world : VerbsWorld Value}
    (reachable : VerbsReachable (fun _ => true) setup world) :
    ∃ mirror, ZeroCopyReachable (Parts.whole Value) setup mirror ∧ Twin world mirror := by
  apply Runs.Reachable.simulate Twin reachable
  · exact ⟨rfl, rfl, fun _ => .nil, fun _ => .nil⟩
  intro before after mirror earlier reached twin step
  have same := uniform.samePieces
  have inv := verbsInvariant_of_reachable uniform (fun _ _ _ _ => ⟨rfl, rfl⟩) earlier
  have onSchedule := fun rank => onSchedule_of_reachable reached rank
  have mirrorInv := zeroCopyInvariant_of_reachable same reached
  cases step with
  | background done =>
      cases done with
      | execute sender place target send recv bound isSend unexecuted sendsBefore isRecv unconsumed
          recvsBefore =>
          obtain ⟨net, moves, shown⟩ := twin.execute inv same mirrorInv onSchedule bound isSend
            unexecuted sendsBefore isRecv unconsumed recvsBefore
          exact ⟨_, moves.reachable mirror.rank, twin.rank, rfl, shown⟩
      | acknowledge sender place send bound isSend executed unacknowledged =>
          exact ⟨mirror, .refl, twin.rank, twin.memory, twin.net.acknowledge sender place send⟩
  | rank rank bound taken =>
      cases rankStep_cases taken with
      | enter call idle succeeded next =>
          have allDone : (before.rank rank).results.all (· = .success) = true := by
            simpa using succeeded
          have stepped : rankStep setup (zeroCopyTransport (Parts.whole Value) setup.worldSize) rank
              mirror = some (mirror.put rank ((before.rank rank).enter setup rank call) mirror.net
                (before.memory rank)) := by
            simp only [rankStep, twin.rank, twin.memory, idle, allDone, if_true, next]
          exact ⟨_, .single (.rank rank bound stepped), twin.put _ twin.net _⟩
      | busy instr rest fabric memory todo outcome =>
          obtain ⟨polled, rfl⟩ := perform_busy outcome
          obtain ⟨net, moves, shown⟩ := twin.poll inv same mirrorInv onSchedule bound polled
          refine ⟨_, moves.reachable mirror.rank, ?_, ?_, shown⟩
          · exact twin.rank.trans (Function.update_eq_self rank before.rank).symm
          · exact twin.memory.trans (Function.update_eq_self rank before.memory).symm
      | next instr rest fabric memory vars todo outcome =>
          obtain ⟨net, performed, shown⟩ := twin.performs inv mirrorInv onSchedule bound todo outcome
          refine ⟨_, .single (.rank rank bound (rankStep_of_next (twin.rank ▸ todo) performed)), ?_⟩
          rw [twin.rank]
          exact twin.put _ shown memory
      | stop instr rest fabric memory status todo outcome =>
          have noEvent := inv.not_stop uniform (fun rank => onSchedule_of_reachable earlier rank) bound
            rfl rfl todo outcome
          obtain ⟨rfl, performed⟩ := perform_elsewhere
            (zeroCopyTransport (Parts.whole Value) setup.worldSize) noEvent outcome mirror.net
          rw [← twin.rank, ← twin.memory] at performed
          refine ⟨_, .single (.rank rank bound (rankStep_of_stop (twin.rank ▸ todo) performed)), ?_⟩
          rw [twin.rank]
          exact twin.put _ twin.net memory

section Queues

/-- A queue takes at least as many work requests as `create_qp` asks for. -/
def Wide (room : Nat → Bool) : Prop := ∀ posted < maxWorkRequests, room posted = true

def AllShallow (setup : Setup Value) : Prop :=
  ∀ rank < setup.worldSize, ∀ args ∈ setup.calls, ∀ block < setup.worldSize,
    ¬ Deep setup rank args block

theorem rankStep_room {world : VerbsWorld Value}
    (recvRoom : ∀ post rest, (world.rank rank).todo = .postRecv post :: rest →
      room (unpolledRecvs (world.net.recvs rank)) = true)
    (sendRoom : ∀ post rest, (world.rank rank).todo = .postSend post :: rest →
      room (unpolledSends (world.net.sends rank)) = true) :
    rankStep setup (verbsTransport Value room setup.worldSize) rank world =
      rankStep setup (verbsTransport Value (fun _ => true) setup.worldSize) rank world := by
  cases todo : (world.rank rank).todo with
  | nil => simp only [rankStep, todo]
  | cons instr rest =>
      cases instr with
      | postRecv post =>
          have hasRoom := recvRoom post rest todo
          simp only [rankStep, todo, perform, verbsTransport, postReceivePrevious, hasRoom]
      | postSend post =>
          have hasRoom := sendRoom post rest todo
          simp only [rankStep, todo, perform, verbsTransport, postSendNext, Fabric.read, hasRoom]
      | _ => simp only [rankStep, todo, perform, verbsTransport]

/-- No rank comes to a post for which a queue has no room. -/
def Roomy (room : Nat → Bool) (setup : Setup Value) (world : VerbsWorld Value) : Prop :=
  ∀ rank < setup.worldSize,
    (∀ post rest, (world.rank rank).todo = .postRecv post :: rest →
      room (unpolledRecvs (world.net.recvs rank)) = true) ∧
    ∀ post rest, (world.rank rank).todo = .postSend post :: rest →
      room (unpolledSends (world.net.sends rank)) = true

theorem Roomy.step {before after : VerbsWorld Value} (roomy : Roomy room setup before) :
    Step setup (verbsTransport Value room setup.worldSize) before after ↔
      Step setup (verbsTransport Value (fun _ => true) setup.worldSize) before after := by
  have same : ∀ rank < setup.worldSize,
      rankStep setup (verbsTransport Value room setup.worldSize) rank before =
        rankStep setup (verbsTransport Value (fun _ => true) setup.worldSize) rank before :=
    fun rank bound => rankStep_room (roomy rank bound).1 (roomy rank bound).2
  constructor
  · intro step
    cases step with
    | rank rank bound taken => exact .rank rank bound (same rank bound ▸ taken)
    | background done => exact .background done
  · intro step
    cases step with
    | rank rank bound taken => exact .rank rank bound (same rank bound ▸ taken)
    | background done => exact .background done

/-- Queues that always have room are as good as endless ones. -/
theorem endless_of_roomy
    (roomy : ∀ before : VerbsWorld Value, VerbsReachable room setup before → Roomy room setup before)
    {world : VerbsWorld Value} (reachable : VerbsReachable room setup world) :
    VerbsReachable (fun _ => true) setup world := by
  apply Runs.Reachable.strengthen (VerbsReachable (fun _ => true) setup) reachable .refl
  exact fun before after earlier reached step =>
    reached.next ((roomy before earlier).step.mp step)

theorem roomy_of_shallow (wide : Wide room) (shallow : AllShallow setup)
    {world : VerbsWorld Value} (reachable : VerbsReachable room setup world) :
    Roomy room setup world := by
  intro rank bound
  have begun : Shallow setup rank (world.rank rank) := fun call inside args found =>
    shallow rank bound args (List.mem_of_getElem? found)
  have kept := allKept_of_reachable reachable rank bound
  constructor
  · intro post rest todo
    have few := open_lt_postRecv reachable bound begun todo
    exact wide _ (lt_of_le_of_lt kept.unpolled_le.1 few)
  · intro post rest todo
    have few := open_lt_postSend reachable bound begun todo
    exact wide _ (lt_of_le_of_lt kept.unpolled_le.2 few)

theorem step_room (wide : Wide room) (shallow : AllShallow setup) {before after : VerbsWorld Value}
    (reachable : VerbsReachable room setup before) :
    Step setup (verbsTransport Value room setup.worldSize) before after ↔
      Step setup (verbsTransport Value (fun _ => true) setup.worldSize) before after :=
  (roomy_of_shallow wide shallow reachable).step

/-- So are queues of the size `create_qp` asks for, where no block is deep. -/
theorem endless_of_reachable (wide : Wide room) (shallow : AllShallow setup)
    {world : VerbsWorld Value} (reachable : VerbsReachable room setup world) :
    VerbsReachable (fun _ => true) setup world :=
  endless_of_roomy (fun _ earlier => roomy_of_shallow wide shallow earlier) reachable

end Queues

/-- After a successful call a rank of the zero-copy ring and its mirror hold the same. -/
theorem workbuf_returned (same : setup.SamePieces) {world : ZeroCopyWorld Value Value}
    (reachable : ZeroCopyReachable (Parts.whole Value) setup world) {mirror : MockWorld Value}
    (reached : MockReachable setup mirror) (bound : rank < setup.worldSize) {call : Nat}
    (returned : (world.rank rank).Returned call .success)
    (returned' : (mirror.rank rank).Returned call .success) :
    world.memory rank .workbuf = mirror.memory rank .workbuf := by
  have onSchedule := onSchedule_of_reachable reachable rank
  obtain ⟨made, log⟩ := onSchedule.log_returned returned
  obtain ⟨-, log'⟩ := (onSchedule_of_reachable reached rank).log_returned returned'
  have noneOpen := (onSchedule.returned bound (List.getElem?_eq_getElem made) returned).1
  have agree := ((zeroCopyInvariant_of_reachable same reachable).ends rank bound).landing.agree
  have agree' := (mockInvariant_of_reachable reached).memory rank bound
  rw [RankState.opens, log', ← log] at agree'
  rw [noneOpen] at agree agree'
  funext index
  rw [agree .workbuf index (by simp), agree' .workbuf index (by simp)]

/-- Over Verbs endpoints every run is that of the mock, as far as the ranks can tell: they are at the
same points of their calls, and the work buffers are equal after every successful call. -/
theorem verbs_refines (uniform : Uniform setup) (wide : Wide room) (shallow : AllShallow setup)
    {world : VerbsWorld Value} (reachable : VerbsReachable room setup world) :
    (∃ mirror, MockReachable setup mirror ∧
      ∀ rank < setup.worldSize, Mirrors (world.rank rank) (mirror.rank rank)) ∧
    ∀ mirror, MockReachable setup mirror → ∀ rank < setup.worldSize, ∀ call,
      (world.rank rank).Returned call .success → (mirror.rank rank).Returned call .success →
        world.memory rank .workbuf = mirror.memory rank .workbuf := by
  obtain ⟨twin, reached, same⟩ := exists_twin uniform (endless_of_reachable wide shallow reachable)
  rw [← same.rank, ← same.memory]
  refine ⟨exists_mirror uniform.samePieces reached, ?_⟩
  intro mirror mirrored rank bound call returned there
  exact workbuf_returned uniform.samePieces reached mirrored bound returned there

theorem pairSetup_shallow : AllShallow (pairSetup 1) := by
  intro rank bound args member block blockBound deep
  have many := lt_of_lt_of_le deep.many (Nat.min_le_left _ _)
  simp [pairSetup, effectiveConfig, kDefaultMaxInflight, maxWorkRequests] at many

theorem createQp_wide : Wide createQp := fun posted few => by simpa [createQp] using few

/-- Two ranks, one of which has posted its receive and its send. -/
theorem verbs_refines_pair : ∃ world, VerbsReachable createQp (pairSetup 1) world ∧
    world.net.sends 0 ≠ [] ∧ ∃ mirror, MockReachable (pairSetup 1) mirror ∧
      ∀ rank < 2, Mirrors (world.rank rank) (mirror.rank rank) := by
  have ran : (verbsFollow createQp (pairSetup 1) [0, 0, 0, 1, 1, 1, 0]).map
      (fun world => (world.net.sends 0).length) = some 1 := by
    decide +kernel
  obtain ⟨world, followed, posted⟩ := Option.map_eq_some_iff.mp ran
  have reachable := verbsReachable_of_follow followed
  refine ⟨world, reachable, List.length_pos_iff.mp (by omega), ?_⟩
  exact (verbs_refines pairSetup_uniform createQp_wide pairSetup_shallow reachable).1

/-- No call fails where neither the arguments nor a transfer does, as none does over the mock. -/
theorem acceptable_success (uniform : Uniform setup) (acceptable : Acceptable setup)
    {world : VerbsWorld Value} (reachable : VerbsReachable (fun _ => true) setup world) :
    ∀ rank < setup.worldSize, ∀ status ∈ (world.rank rank).results, status = .success := by
  obtain ⟨twin, reached, same⟩ := exists_twin uniform reachable
  obtain ⟨mirror, mirrored, mirrors⟩ := exists_mirror uniform.samePieces reached
  intro rank bound
  rw [← same.rank, ← (mirrors rank bound).results]
  exact acceptable.alive uniform.samePieces mirrored bound

theorem acceptable_ended (uniform : Uniform setup) (acceptable : Acceptable setup)
    {world : VerbsWorld Value} (reachable : VerbsReachable (fun _ => true) setup world)
    (terminal : Runs.Terminal (Step setup (verbsTransport Value (fun _ => true) setup.worldSize))
      world) (bound : rank < setup.worldSize) :
    (world.rank rank).todo = [] ∧
      (world.rank rank).results = List.replicate setup.calls.length .success := by
  have inv := verbsInvariant_of_reachable uniform (fun _ _ _ _ => ⟨rfl, rfl⟩) reachable
  have onSchedule := onSchedule_of_reachable reachable
  have succeeded := acceptable_success uniform acceptable reachable
  have noStep : ∀ rank < setup.worldSize, rankStep setup
      (verbsTransport Value (fun _ => true) setup.worldSize) rank world = none := by
    intro rank bound
    cases taken : rankStep setup (verbsTransport Value (fun _ => true) setup.worldSize) rank world with
    | none => rfl
    | some after => exact absurd (.rank rank bound taken) (terminal after)
  obtain ⟨idle, made⟩ := all_ended inv uniform onSchedule succeeded (fun rank bound =>
    stuck_of_noStep inv uniform onSchedule bound (succeeded rank bound)
      (fun fabric memory step => terminal _ (.background step)) (noStep rank bound)) rank bound
  exact ⟨idle, List.eq_replicate_iff.mpr ⟨made, succeeded rank bound⟩⟩

/-- A rank that has returned holds the result of its call. -/
theorem verbs_result (uniform : Uniform setup) {world : VerbsWorld Value}
    (reachable : VerbsReachable (fun _ => true) setup world) (bound : rank < setup.worldSize)
    {call : Nat} {args : Call Value} (found : setup.calls[call]? = some args)
    (returned : (world.rank rank).Returned call .success) (known : args.known) {block index : Nat}
    (blockBound : block < setup.worldSize) (inside : args.inBlock setup.worldSize block index) :
    world.memory rank .workbuf index = setup.result args rank block index := by
  obtain ⟨twin, reached, same⟩ := exists_twin uniform reachable
  obtain ⟨mirror, mirrored, mirrors⟩ := exists_mirror uniform.samePieces reached
  rw [← same.rank] at returned
  have mine := mirrors rank bound
  have there : (mirror.rank rank).Returned call .success :=
    ⟨mine.todo.trans returned.idle, by rw [mine.results]; exact returned.last,
      by rw [mine.results]; exact returned.status⟩
  rw [← same.memory, workbuf_returned uniform.samePieces reached mirrored bound returned there]
  exact returned_result mirrored bound found there known blockBound inside

/-- Calls of all kinds over Verbs endpoints end, whatever the interleaving; at the end none has
failed, and every rank that returns from a call holds its result. -/
theorem verbs_collectives_correct {setup : Setup Value} (uniform : Uniform setup)
    (acceptable : Acceptable setup) (wide : Wide room) (shallow : AllShallow setup) :
    (∀ run : Nat → VerbsWorld Value, run 0 = initialWorld setup idleFabric →
      ¬ ∀ index, Step setup (verbsTransport Value room setup.worldSize) (run index)
        (run (index + 1))) ∧
    (∀ world, VerbsReachable room setup world →
      Runs.Terminal (Step setup (verbsTransport Value room setup.worldSize)) world →
        ∀ rank < setup.worldSize, (world.rank rank).todo = [] ∧
          (world.rank rank).results = List.replicate setup.calls.length .success) ∧
    ∀ world, VerbsReachable room setup world → ∀ rank < setup.worldSize, ∀ call args,
      setup.calls[call]? = some args → (world.rank rank).Returned call .success →
        ∀ block < setup.worldSize, ∀ index, args.inBlock setup.worldSize block index →
          world.memory rank .workbuf index = setup.result args rank block index := by
  refine ⟨?_, ?_, ?_⟩
  · intro run start
    exact Runs.no_infinite (workLeft setup)
      (fun before after reachable step => workLeft_decreases reachable step) run start
  · intro world reachable terminal rank bound
    exact acceptable_ended uniform acceptable (endless_of_reachable wide shallow reachable)
      (fun after step => terminal after ((step_room wide shallow reachable).mpr step)) bound
  · intro world reachable rank bound call args found returned block blockBound index inside
    exact verbs_result uniform (endless_of_reachable wide shallow reachable) bound found returned
      (acceptable.known args (List.mem_of_getElem? found)) blockBound inside

theorem unevenSetup_uniform : Uniform unevenSetup := by
  refine ⟨fun rank bound args member => rfl, ⟨.auto, fun bytes => ?_, fun rank bound => rfl⟩, ?_⟩
  · exact ⟨_, rfl⟩
  · decide +kernel

theorem unevenSetup_shallow : AllShallow unevenSetup := by
  intro rank bound args member block blockBound deep
  have many := lt_of_lt_of_le deep.many (Nat.min_le_left _ _)
  have place : rank < 2 := bound
  obtain rfl | rfl : rank = 0 ∨ rank = 1 := by omega
  all_goals simp [unevenSetup, effectiveConfig, kMaxInflightLimit, maxWorkRequests] at many

theorem verbs_collectives_correct_pair : ∃ world, VerbsReachable createQp unevenSetup world ∧
    ∀ rank < 2, (world.rank rank).results = [.success, .success, .success] ∧
      ∀ index < 5, world.memory rank .workbuf index = 10 + index := by
  obtain ⟨-, ended, value⟩ := verbs_collectives_correct unevenSetup_uniform unevenSetup_acceptable
    createQp_wide unevenSetup_shallow
  obtain ⟨world, reachable, terminal⟩ := Runs.exists_terminal_of_invariant (workLeft unevenSetup)
    (fun before after reached step => reached.next step)
    (fun before after reached step => workLeft_decreases reached step)
    (initialWorld unevenSetup idleFabric) (show VerbsReachable createQp unevenSetup _ from .refl)
  refine ⟨world, reachable, fun rank bound => ?_⟩
  obtain ⟨idle, results⟩ := ended world reachable terminal rank bound
  refine ⟨results, fun index inside => ?_⟩
  have returned : (world.rank rank).Returned 2 .success :=
    ⟨idle, by rw [results]; rfl, by rw [results]; rfl⟩
  exact value world reachable rank bound 2 _ rfl returned 0 (by decide) index ⟨Nat.zero_le _, inside⟩

end RingAllReduce.VerbsRing
