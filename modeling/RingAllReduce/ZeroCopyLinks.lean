import RingAllReduce.ZeroCopyInvariant

/-! The links of the zero-copy ring: a send and the receive it is paired with carry one piece, so
what the transport moves on its own is what the receive is for. -/

namespace RingAllReduce

open Exchange Rotation TagQueue

variable {Value Part : Type} {parts : Parts Value Part} {setup : Setup Value}

/-- What a step of a rank does to the cells: it may add fresh ones of its own. -/
structure ZeroCopyNet.Grown (rank : Nat) (before after : ZeroCopyNet Part) : Prop where
  others : ∀ other, other ≠ rank → after.sends other = before.sends other ∧
    after.recvs other = before.recvs other
  sends : before.sends rank <+: after.sends rank
  recvs : ∃ fresh, after.recvs rank = before.recvs rank ++ fresh ∧
    ∀ cell ∈ fresh, cell.completed = false

theorem ZeroCopyNet.Grown.refl (rank : Nat) (net : ZeroCopyNet Part) : Grown rank net net :=
  ⟨fun _ _ => ⟨rfl, rfl⟩, List.prefix_refl _, [], by simp, by simp⟩

theorem ZeroCopyNet.Grown.length_le {rank : Nat} {before after : ZeroCopyNet Part}
    (grown : Grown rank before after) (other : Nat) :
    (before.sends other).length ≤ (after.sends other).length := by
  by_cases same : other = rank
  · subst same
    exact grown.sends.length_le
  · rw [(grown.others other same).1]

theorem ZeroCopyNet.Grown.completed {rank : Nat} {before after : ZeroCopyNet Part}
    (grown : Grown rank before after) {other target : Nat} {cell : RecvCell}
    (found : (after.recvs other)[target]? = some cell) (completed : cell.completed = true) :
    (before.recvs other)[target]? = some cell := by
  by_cases same : other = rank
  · subst same
    obtain ⟨fresh, recvs, incomplete⟩ := grown.recvs
    rw [recvs] at found
    by_cases old : target < (before.recvs other).length
    · rwa [List.getElem?_append_left old] at found
    · rw [List.getElem?_append_right (by omega)] at found
      have isFresh := incomplete cell (List.mem_of_getElem? found)
      simp [completed] at isFresh
  · rwa [(grown.others other same).2] at found

theorem perform_grown {rank : Nat} {vars : Variables ZeroCopyRequest}
    {net net' : ZeroCopyNet Part} {memory memory' : Memory Value} {instr : Instr}
    {verdict : Verdict ZeroCopyRequest}
    (outcome : perform setup (zeroCopyTransport parts setup.worldSize) rank vars net memory instr =
      .done (net', memory') verdict) : ZeroCopyNet.Grown rank net net' := by
  cases instr with
  | postRecv post =>
      simp only [perform, zeroCopyTransport, zeroCopyPostRecv, Outcome.map, Outcome.done.injEq,
        Prod.mk.injEq] at outcome
      obtain ⟨⟨rfl, -⟩, -⟩ := outcome
      refine ⟨fun other different => ?_, List.prefix_refl _, ?_⟩
      · simp [different]
      · exact ⟨[{ post := post, delivered := fun _ _ => false, completed := false, status := 0 }],
          by simp, by simp⟩
  | postSend post =>
      simp only [perform, zeroCopyTransport, zeroCopyPostSend, Outcome.map, Outcome.done.injEq,
        Prod.mk.injEq] at outcome
      obtain ⟨⟨rfl, -⟩, -⟩ := outcome
      refine ⟨fun other different => ?_, ?_, [], by simp, by simp⟩
      · simp [different]
      · simp
  | waitRecv post | waitSend post =>
      have same : net' = net := by
        simp only [perform, zeroCopyTransport, zeroCopyWait] at outcome
        repeat' split at outcome
        all_goals simp_all [Outcome.map]
      exact same ▸ .refl rank _
  | storeOwned block | advanceSequence =>
      simp only [perform, Outcome.done.injEq, Prod.mk.injEq] at outcome
      exact outcome.1.1 ▸ .refl rank _
  | load call | copyInput count | reduce _ _ _ _ _ | ret status =>
      have same : net' = net := by
        simp only [perform] at outcome
        split at outcome
        all_goals
          simp only [Outcome.done.injEq, Prod.mk.injEq] at outcome
          exact outcome.1.1.symm
      exact same ▸ .refl rank _

theorem zeroCopy_not_busy {rank : Nat} {vars : Variables ZeroCopyRequest}
    {net net' : ZeroCopyNet Part} {memory memory' : Memory Value} {instr : Instr} :
    perform setup (zeroCopyTransport parts setup.worldSize) rank vars net memory instr ≠
      .busy (net', memory') := by
  intro outcome
  cases event : instr.event with
  | none => exact absurd outcome (perform_local_busy event).1
  | some _ =>
      cases instr with
      | postRecv post | postSend post =>
          simp [perform, zeroCopyTransport, zeroCopyPostRecv, zeroCopyPostSend, Outcome.map]
            at outcome
      | waitRecv post | waitSend post =>
          simp only [perform, zeroCopyTransport, zeroCopyWait] at outcome
          repeat' split at outcome
          all_goals simp [Outcome.map] at outcome
      | _ => simp [Instr.event] at event

theorem rankStep_grown {rank : Nat} {before after : ZeroCopyWorld Value Part}
    (taken : RankStep setup (zeroCopyTransport parts setup.worldSize) rank before after) :
    ZeroCopyNet.Grown rank before.net after.net := by
  cases taken with
  | enter call idle succeeded next => exact .refl rank _
  | busy instr rest net memory todo outcome => exact absurd outcome zeroCopy_not_busy
  | next instr rest net memory vars todo outcome => exact perform_grown outcome
  | stop instr rest net memory status todo outcome => exact perform_grown outcome

/-- Every rank has its requests in order, and a receive completes only once its send is posted. -/
structure ZeroCopyInvariant (parts : Parts Value Part) (setup : Setup Value)
    (world : ZeroCopyWorld Value Part) : Prop where
  ends : ∀ rank < setup.worldSize, Ends parts setup rank (world.rank rank) (world.memory rank)
    (world.net.sends rank) (world.net.recvs rank)
  fed : ∀ rank < setup.worldSize, ∀ (target : Nat) (cell : RecvCell),
    (world.net.recvs (next setup.worldSize rank))[target]? = some cell → cell.completed = true →
      target < (world.net.sends rank).length

section Cells

variable {rank : Nat} {state : RankState ZeroCopyRequest} {memory : Memory Value}
  {sends : List (SendCell Part)} {recvs : List RecvCell}

theorem Ends.setSend (ends : Ends parts setup rank state memory sends recvs) {place : Nat}
    {old new : SendCell Part} (found : sends[place]? = some old) (same : new.post = old.post)
    (fetched : ∀ index < new.post.elementCount, ∀ part content,
      new.fetched index part = some content → ∃ value,
        (setup.payload new.post.toPiece)[index]? = some value ∧ content = parts.get value part)
    (underway : new.completed = false → old.completed = false) :
    Ends parts setup rank state memory (sends.set place new) recvs := by
  refine ⟨by rw [List.length_set]; exact ends.slotted, ?_, ends.recvCells, ?_, ?_,
    ends.underwayRecvs, ends.arrived, ends.landing⟩
  · rw [Splits.map_set_same _ found same]
    exact ends.sendCells
  · intro cell member
    obtain ⟨index, isCell⟩ := List.mem_iff_getElem?.mp member
    rcases Splits.getElem?_set_cases isCell with ⟨-, rfl⟩ | earlier
    · exact fetched
    · exact ends.fetched cell (List.mem_of_getElem? earlier)
  · intro index cell isCell incomplete
    rcases Splits.getElem?_set_cases isCell with ⟨rfl, rfl⟩ | earlier
    · exact ends.underwaySends index old found (underway incomplete)
    · exact ends.underwaySends index cell earlier incomplete

theorem Ends.setRecv (ends : Ends parts setup rank state memory sends recvs) {place : Nat}
    {old new : RecvCell} (found : recvs[place]? = some old) (same : new.post = old.post)
    (arrived : new.status = 0 ∧ (new.completed = true → ∀ index < new.post.elementCount,
      ∀ part < parts.width, new.delivered index part = true))
    (underway : new.completed = false → old.completed = false) {memory' : Memory Value}
    (landing : Landing parts setup rank state memory' (landedIn (recvs.set place new))) :
    Ends parts setup rank state memory' sends (recvs.set place new) := by
  refine ⟨by rw [List.length_set]; exact ends.slotted, ends.sendCells, ?_, ends.fetched,
    ends.underwaySends, ?_, ?_, landing⟩
  · rw [Splits.map_set_same _ found same]
    exact ends.recvCells
  · intro index cell isCell incomplete
    rcases Splits.getElem?_set_cases isCell with ⟨rfl, rfl⟩ | earlier
    · exact ends.underwayRecvs index old found (underway incomplete)
    · exact ends.underwayRecvs index cell earlier incomplete
  · intro cell member
    obtain ⟨index, isCell⟩ := List.mem_iff_getElem?.mp member
    rcases Splits.getElem?_set_cases isCell with ⟨-, rfl⟩ | earlier
    · exact arrived
    · exact ends.arrived cell (List.mem_of_getElem? earlier)

theorem landedIn_set {place : Nat} {old new : RecvCell} (_ : recvs[place]? = some old)
    (same : new.post = old.post) {post : Post} {index part : Nat}
    (landed : landedIn (recvs.set place new) post index part) :
    landedIn recvs post index part ∨ post = old.post ∧ new.delivered index part = true := by
  obtain ⟨cell, member, postEq, delivered⟩ := landed
  obtain ⟨position, isCell⟩ := List.mem_iff_getElem?.mp member
  rcases Splits.getElem?_set_cases isCell with ⟨-, rfl⟩ | earlier
  · exact Or.inr ⟨by rw [← postEq, same], delivered⟩
  · exact Or.inl ⟨cell, List.mem_of_getElem? earlier, postEq, delivered⟩

theorem RecvCell.landed_deliver {place index part : Nat} (cell : RecvCell)
    (found : recvs[place]? = some cell) {post : Post} {index' part' : Nat}
    (landed : landedIn (recvs.set place (cell.deliver index part)) post index' part') :
    landedIn recvs post index' part' ∨ post = cell.post ∧ index' = index ∧ part' = part := by
  rcases landedIn_set found (by rfl) landed with earlier | ⟨rfl, delivered⟩
  · exact Or.inl earlier
  · simp only [RecvCell.deliver] at delivered
    split at delivered
    · rename_i here
      exact Or.inr ⟨rfl, here⟩
    · exact Or.inl ⟨cell, List.mem_of_getElem? found, rfl, delivered⟩

theorem Ends.open_send (ends : Ends parts setup rank state memory sends recvs) {place : Nat}
    {cell : SendCell Part} (found : sends[place]? = some cell)
    (underway : cell.completed = false) : cell.post ∈ openSends (events state.log) := by
  apply mem_open_of_place _ (ends.underwaySends place cell found underway)
  rw [← ends.sendCells, List.getElem?_map, found]
  rfl

theorem Ends.open_recv (ends : Ends parts setup rank state memory sends recvs) {place : Nat}
    {cell : RecvCell} (found : recvs[place]? = some cell)
    (underway : cell.completed = false) : cell.post ∈ openRecvs (events state.log) := by
  apply mem_open_of_place _ (ends.underwayRecvs place cell found underway)
  rw [← ends.recvCells, List.getElem?_map, found]
  rfl

end Cells

section Links

variable {world : ZeroCopyWorld Value Part} {sender place target : Nat} {send : SendCell Part}
  {recv : RecvCell}

/-- What a rank has posted for sending, and what its successor has posted receives for. -/
theorem ZeroCopyInvariant.posted (inv : ZeroCopyInvariant parts setup world)
    (onSchedule : ∀ rank, OnSchedule setup rank (world.rank rank)) (same : setup.SamePieces)
    (bound : sender < setup.worldSize) :
    (world.net.sends sender).map (fun cell => cell.post.toPiece) <+: setup.sent sender ∧
      (world.net.recvs (next setup.worldSize sender)).map (fun cell => cell.post.toPiece) <+:
        setup.sent sender := by
  have nextBound := next_lt setup.positive sender
  constructor
  · obtain ⟨rest, split⟩ := (onSchedule sender).events_log bound
    have whole := congrArg sendPosts split
    rw [sendPosts_run, sendPosts_append, ← (inv.ends sender bound).sendCells] at whole
    rw [Setup.sent, ← whole, List.map_append, List.map_map]
    exact List.prefix_append _ _
  · obtain ⟨rest, split⟩ := (onSchedule (next setup.worldSize sender)).events_log nextBound
    have whole := congrArg recvPosts split
    rw [recvPosts_run, recvPosts_append, ← (inv.ends _ nextBound).recvCells] at whole
    rw [setup.sent_eq_expected bound (same sender bound), Setup.expected, ← whole, List.map_append,
      List.map_map]
    exact List.prefix_append _ _

theorem ordinal_eq {Cell : Type} (post : Cell → Post) {cells : List Cell} {stream : List Piece}
    (ahead : cells.map (fun cell => (post cell).toPiece) <+: stream) (tag : UInt32) {place : Nat}
    (bound : place ≤ cells.length) :
    ordinal (cells.map post) tag place = (lane Piece.tag tag (stream.take place)).length := by
  obtain ⟨rest, rfl⟩ := ahead
  rw [List.take_append_of_le_length (by simpa using bound), ← List.map_take, lane_map,
    List.length_map, ordinal, ← List.map_take, lane_map, List.length_map]

theorem Paired.same (paired : Paired world.net sender (next setup.worldSize sender) place target
      send recv) (inv : ZeroCopyInvariant parts setup world)
    (onSchedule : ∀ rank, OnSchedule setup rank (world.rank rank)) (same : setup.SamePieces)
    (bound : sender < setup.worldSize) :
    place = target ∧ send.post.toPiece = recv.post.toPiece := by
  obtain ⟨sent, expected⟩ := inv.posted onSchedule same bound
  have placeBound := (List.getElem?_eq_some_iff.mp paired.isSend).1
  have targetBound := (List.getElem?_eq_some_iff.mp paired.isRecv).1
  have sendEq : (setup.sent sender)[place]? = some send.post.toPiece :=
    (Splits.prefix_getElem? sent (by simpa using placeBound)).trans
      (by rw [List.getElem?_map, paired.isSend]; rfl)
  have recvEq : (setup.sent sender)[target]? = some recv.post.toPiece :=
    (Splits.prefix_getElem? expected (by simpa using targetBound)).trans
      (by rw [List.getElem?_map, paired.isRecv]; rfl)
  have order := paired.order
  rw [ordinal_eq _ sent _ placeBound.le, ordinal_eq _ expected _ targetBound.le] at order
  have samePlace : place = target := by
    apply lane_position Piece.tag sendEq recvEq paired.tag
    rw [order]
    exact congrArg (fun tag => (lane Piece.tag tag _).length) paired.tag.symm
  subst samePlace
  rw [sendEq] at recvEq
  exact ⟨rfl, Option.some.inj recvEq⟩

end Links

section Steps

variable {before after : ZeroCopyWorld Value Part}

theorem ZeroCopyInvariant.rank_step {mover : Nat} (inv : ZeroCopyInvariant parts setup before)
    (onSchedule : OnSchedule setup mover (before.rank mover)) (moverBound : mover < setup.worldSize)
    (taken : RankStep setup (zeroCopyTransport parts setup.worldSize) mover before after) :
    ZeroCopyInvariant parts setup after := by
  have grown := rankStep_grown taken
  constructor
  · intro rank bound
    by_cases same : rank = mover
    · subst same
      exact (inv.ends rank bound).rank_step onSchedule bound taken
    · have stateEq : after.rank rank = before.rank rank := by
        cases taken <;> exact World.put_rank_other _ _ _ _ _ same
      have memoryEq : after.memory rank = before.memory rank := by
        cases taken <;> exact World.put_memory_other _ _ _ _ _ same
      rw [stateEq, memoryEq, (grown.others rank same).1, (grown.others rank same).2]
      exact inv.ends rank bound
  · intro rank bound target cell found completed
    have earlier := inv.fed rank bound target cell (grown.completed found completed) completed
    have length := grown.length_le rank
    omega

/-- A step of the transport at a send: its rank's other cells are left alone. -/
theorem ZeroCopyInvariant.setSend {sender place : Nat} {new : SendCell Part}
    {world : ZeroCopyWorld Value Part} (inv : ZeroCopyInvariant parts setup world)
    (ends : Ends parts setup sender (world.rank sender) (world.memory sender)
      ((world.net.sends sender).set place new) (world.net.recvs sender)) :
    ZeroCopyInvariant parts setup { world with net := world.net.setSend sender place new } := by
  constructor
  · intro rank bound
    by_cases same : rank = sender
    · subst same
      simpa [ZeroCopyNet.setSend] using ends
    · simpa [ZeroCopyNet.setSend, same] using inv.ends rank bound
  · intro rank bound target cell found completed
    have earlier := inv.fed rank bound target cell found completed
    by_cases same : rank = sender
    · subst same
      simpa [ZeroCopyNet.setSend] using earlier
    · simpa [ZeroCopyNet.setSend, same] using earlier

theorem ZeroCopyInvariant.setRecv {sender target : Nat} {new : RecvCell}
    {world : ZeroCopyWorld Value Part} (inv : ZeroCopyInvariant parts setup world)
    (senderBound : sender < setup.worldSize) {memory : Memory Value}
    (ends : Ends parts setup (next setup.worldSize sender)
      (world.rank (next setup.worldSize sender)) memory
      (world.net.sends (next setup.worldSize sender))
      ((world.net.recvs (next setup.worldSize sender)).set target new))
    (posted : target < (world.net.sends sender).length) :
    ZeroCopyInvariant parts setup { world with
      net := world.net.setRecv (next setup.worldSize sender) target new
      memory := Function.update world.memory (next setup.worldSize sender) memory } := by
  constructor
  · intro rank bound
    by_cases same : rank = next setup.worldSize sender
    · subst same
      simpa [ZeroCopyNet.setRecv] using ends
    · simpa [ZeroCopyNet.setRecv, same] using inv.ends rank bound
  · intro rank bound index cell found completed
    by_cases same : rank = sender
    · subst same
      simp only [ZeroCopyNet.setRecv, Function.update_self] at found
      rcases Splits.getElem?_set_cases found with ⟨rfl, -⟩ | earlier
      · exact posted
      · exact inv.fed rank bound index cell earlier completed
    · have different : next setup.worldSize rank ≠ next setup.worldSize sender := fun eq =>
        same (next_injective bound senderBound eq)
      simp only [ZeroCopyNet.setRecv, Function.update_of_ne different] at found
      exact inv.fed rank bound index cell found completed

theorem ZeroCopyInvariant.background {world : ZeroCopyWorld Value Part}
    (inv : ZeroCopyInvariant parts setup world)
    (onSchedule : ∀ rank, OnSchedule setup rank (world.rank rank))
    (holds : ∀ rank < setup.worldSize, HoldsSends setup rank (world.rank rank))
    (same : setup.SamePieces) {net : ZeroCopyNet Part} {memory : Nat → Memory Value}
    (done : ZeroCopyStep parts setup.worldSize world.net world.memory net memory) :
    ZeroCopyInvariant parts setup { world with net := net, memory := memory } := by
  cases done with
  | fetch sender place send index part bound found underway inside partBound =>
      have ends := inv.ends sender bound
      have payload := (holds sender bound).read (onSchedule sender) bound ends.landing.agree
        (ends.open_send found underway) inside
      apply inv.setSend
      refine ends.setSend found rfl ?_ id
      intro index' inside' part' content isContent
      simp only [SendCell.fetch] at isContent
      split at isContent
      · rename_i here
        obtain ⟨rfl, rfl⟩ := here
        exact ⟨_, payload, (Option.some.inj isContent).symm⟩
      · exact ends.fetched send (List.mem_of_getElem? found) index' inside' part' content isContent
  | completeSend sender place send bound found all =>
      have ends := inv.ends sender bound
      apply inv.setSend
      exact ends.setSend found rfl (ends.fetched send (List.mem_of_getElem? found)) (by simp)
  | deliver sender place target send recv index part content bound paired sizes underway inside
      partBound fetched =>
      obtain ⟨rfl, piece⟩ := paired.same inv onSchedule same bound
      have nextBound := next_lt setup.positive sender
      have ends := inv.ends _ nextBound
      have counts : send.post.elementCount = recv.post.elementCount :=
        congrArg Piece.elementCount piece
      obtain ⟨value, isValue, rfl⟩ := (inv.ends sender bound).fetched send
        (List.mem_of_getElem? paired.isSend) index (by omega) part content fetched
      rw [piece] at isValue
      have posted := (List.getElem?_eq_some_iff.mp paired.isSend).1
      have landing := ends.landing.deliver (onSchedule _) nextBound
        (ends.open_recv paired.isRecv underway) inside partBound isValue
        (fun other index' part' landed => recv.landed_deliver paired.isRecv landed)
      refine inv.setRecv bound (ends.setRecv paired.isRecv (by rfl) ?_ (by exact id) landing) posted
      refine ⟨(ends.arrived recv (List.mem_of_getElem? paired.isRecv)).1, ?_⟩
      intro completed
      simp only [RecvCell.deliver] at completed
      simp [completed] at underway
  | completeRecv sender place target send recv bound paired sizes all =>
      obtain ⟨rfl, piece⟩ := paired.same inv onSchedule same bound
      have ends := inv.ends _ (next_lt setup.positive sender)
      have posted := (List.getElem?_eq_some_iff.mp paired.isSend).1
      have arrived := ends.arrived recv (List.mem_of_getElem? paired.isRecv)
      have landing : Landing parts setup (next setup.worldSize sender)
          (world.rank (next setup.worldSize sender)) (world.memory (next setup.worldSize sender))
          (landedIn ((world.net.recvs (next setup.worldSize sender)).set place
            { recv with completed := true })) := by
        apply ends.landing.weaken
        intro other _ index part landed
        rcases landedIn_set paired.isRecv (by rfl) landed with earlier | ⟨rfl, delivered⟩
        · exact earlier
        · exact ⟨recv, List.mem_of_getElem? paired.isRecv, rfl, delivered⟩
      have set := inv.setRecv bound (ends.setRecv paired.isRecv (by rfl)
        (by exact ⟨arrived.1, fun _ => all⟩) (by simp) landing) posted
      rwa [Function.update_eq_self] at set
  | reject sender place target send recv bound paired sizes =>
      have piece := (paired.same inv onSchedule same bound).2
      exact absurd (congrArg Piece.bytes piece) sizes

theorem zeroCopyInvariant_of_reachable {world : ZeroCopyWorld Value Part} (same : setup.SamePieces)
    (reachable : ZeroCopyReachable parts setup world) : ZeroCopyInvariant parts setup world := by
  apply Runs.Reachable.strengthen (ZeroCopyInvariant parts setup) reachable
  · constructor
    · intro rank _
      refine ⟨⟨rfl, rfl, ?_, ?_⟩, rfl, rfl, ?_, ?_, ?_, ?_, ⟨?_, ?_⟩⟩
      all_goals simp [initialWorld, initialRank, emptyCells, AgreeOutside, openRecvs]
    · simp [initialWorld, emptyCells]
  · intro before after earlier inv step
    have onSchedule := fun rank => onSchedule_of_reachable earlier rank
    cases step with
    | rank mover bound taken => exact inv.rank_step (onSchedule mover) bound (rankStep_cases taken)
    | background done =>
        exact inv.background onSchedule (holdsSends_of_reachable earlier) same done

end Steps

end RingAllReduce
