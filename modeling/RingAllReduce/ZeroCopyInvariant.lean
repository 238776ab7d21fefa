import RingAllReduce.Slots
import RingAllReduce.ZeroCopy

/-! The invariant of every run over the zero-copy transport: what was read is the payload, and what
landed is what was read. -/

namespace RingAllReduce

open Exchange Rotation TagQueue

variable {Value Part : Type} {parts : Parts Value Part} {setup : Setup Value} {rank : Nat}

abbrev ZeroCopyWorld (Value Part : Type) : Type :=
  World Value (ZeroCopyNet Part) ZeroCopyRequest

def receiveRequests (count : Nat) : List ZeroCopyRequest :=
  (List.range count).map fun place => (.receive, place)

def sendRequests (count : Nat) : List ZeroCopyRequest :=
  (List.range count).map fun place => (.send, place)

def landedIn (recvs : List RecvCell) (post : Post) (index part : Nat) : Prop :=
  ∃ cell ∈ recvs, cell.post = post ∧ cell.delivered index part = true

structure Ends (parts : Parts Value Part) (setup : Setup Value) (rank : Nat)
    (state : RankState ZeroCopyRequest) (memory : Memory Value) (sends : List (SendCell Part))
    (recvs : List RecvCell) : Prop where
  slotted : Slotted state (receiveRequests recvs.length) (sendRequests sends.length)
  sendCells : sends.map SendCell.post = sendPosts (events state.log)
  recvCells : recvs.map RecvCell.post = recvPosts (events state.log)
  fetched : ∀ cell ∈ sends, ∀ index < cell.post.elementCount, ∀ part content,
    cell.fetched index part = some content → ∃ value,
      (setup.payload cell.post.toPiece)[index]? = some value ∧ content = parts.get value part
  underwaySends : ∀ place cell, sends[place]? = some cell → cell.completed = false →
    (sendWaits (events state.log)).length ≤ place
  underwayRecvs : ∀ place cell, recvs[place]? = some cell → cell.completed = false →
    (recvWaits (events state.log)).length ≤ place
  arrived : ∀ cell ∈ recvs, cell.status = 0 ∧ (cell.completed = true →
    ∀ index < cell.post.elementCount, ∀ part < parts.width, cell.delivered index part = true)
  landing : Landing parts setup rank state memory (landedIn recvs)

theorem zeroCopy_keepsMemory (worldSize : Nat) :
    (zeroCopyTransport parts worldSize).KeepsMemory := by
  refine ⟨fun _ _ _ _ => rfl, fun _ _ _ _ => rfl, ?_⟩
  rintro rank ⟨kind, place⟩ net memory
  cases kind <;> simp only [zeroCopyTransport, zeroCopyWait] <;> split <;> try split
  all_goals first | rfl | trivial

section Ends

variable {state : RankState ZeroCopyRequest} {memory : Memory Value}
  {sends : List (SendCell Part)} {recvs : List RecvCell}

theorem Ends.quiet (ends : Ends parts setup rank state memory sends recvs)
    {state' : RankState ZeroCopyRequest} {memory' : Memory Value}
    (eventsEq : events state'.log = events state.log)
    (requests : state'.vars.requests = state.vars.requests)
    (landing : Landing parts setup rank state' memory' (landedIn recvs)) :
    Ends parts setup rank state' memory' sends recvs := by
  refine ⟨ends.slotted.quiet eventsEq requests, ?_, ?_, ends.fetched, ?_, ?_, ends.arrived, landing⟩
  · rw [eventsEq]
    exact ends.sendCells
  · rw [eventsEq]
    exact ends.recvCells
  · rw [eventsEq]
    exact ends.underwaySends
  · rw [eventsEq]
    exact ends.underwayRecvs

theorem requests_snoc {kind : RequestKind} (count : Nat) :
    (List.range (count + 1)).map (fun place => ((kind, place) : ZeroCopyRequest)) =
      (List.range count).map (fun place => (kind, place)) ++ [(kind, count)] := by
  simp [List.range_succ]

theorem not_posted_before (onSchedule : OnSchedule setup rank state)
    (bound : rank < setup.worldSize) {post : Post} {rest : List Instr}
    (todo : state.todo = .postRecv post :: rest) : post ∉ recvPosts (events state.log) := by
  obtain ⟨after, split⟩ := onSchedule.events_next bound todo rfl
  have nodup := (setup.plan_posts_nodup rank).1
  rw [← recvPosts_run, split, recvPosts_append, recvPosts_cons] at nodup
  intro earlier
  exact List.disjoint_of_nodup_append nodup earlier (by simp)

variable (ends : Ends parts setup rank state memory sends recvs)
  (onSchedule : OnSchedule setup rank state) (bound : rank < setup.worldSize)

include ends onSchedule bound

theorem Ends.postRecv {post : Post} {rest : List Instr}
    (todo : state.todo = .postRecv post :: rest) {memory' : Memory Value}
    (landing : Landing parts setup rank (state.advance (state.vars.assign (.recv post.pieceIndex)
      (some (.receive, recvs.length))) (.postRecv post) rest) memory' (landedIn recvs)) :
    Ends parts setup rank (state.advance (state.vars.assign (.recv post.pieceIndex)
      (some (.receive, recvs.length))) (.postRecv post) rest) memory' sends
      (recvs ++ [{ post := post, delivered := fun _ _ => false, completed := false,
                   status := 0 }]) := by
  obtain ⟨recvPostsEq, sendPostsEq, recvWaitsEq, sendWaitsEq⟩ :=
    snoc_postRecv (events state.log) post
  have waits := (recvWaits_isPrefix (onSchedule.events_log bound)).length_le
  rw [← ends.recvCells, List.length_map] at waits
  constructor
  · rw [List.length_append, List.length_singleton, receiveRequests, requests_snoc]
    exact ends.slotted.postRecv onSchedule bound todo _
  · rw [advance_events _ rfl, sendPostsEq]
    exact ends.sendCells
  · rw [advance_events _ rfl, recvPostsEq, List.map_append, ends.recvCells]
    rfl
  · exact ends.fetched
  · rw [advance_events _ rfl, sendWaitsEq]
    exact ends.underwaySends
  · rw [advance_events _ rfl, recvWaitsEq]
    intro place cell found underway
    by_cases old : place < recvs.length
    · rw [List.getElem?_append_left old] at found
      exact ends.underwayRecvs place cell found underway
    · omega
  · intro cell member
    rcases List.mem_append.mp member with old | new
    · exact ends.arrived cell old
    · rw [List.mem_singleton.mp new]
      exact ⟨rfl, by simp⟩
  · apply landing.weaken
    rintro other - index part ⟨cell, member, postEq, delivered⟩
    rcases List.mem_append.mp member with old | new
    · exact ⟨cell, old, postEq, delivered⟩
    · rw [List.mem_singleton.mp new] at delivered
      simp at delivered

theorem Ends.postSend {post : Post} {rest : List Instr}
    (todo : state.todo = .postSend post :: rest) {memory' : Memory Value}
    (landing : Landing parts setup rank (state.advance (state.vars.assign (.send post.pieceIndex)
      (some (.send, sends.length))) (.postSend post) rest) memory' (landedIn recvs)) :
    Ends parts setup rank (state.advance (state.vars.assign (.send post.pieceIndex)
      (some (.send, sends.length))) (.postSend post) rest) memory'
      (sends ++ [{ post := post, fetched := fun _ _ => none, completed := false }]) recvs := by
  obtain ⟨recvPostsEq, sendPostsEq, recvWaitsEq, sendWaitsEq⟩ :=
    snoc_postSend (events state.log) post
  have waits := (sendWaits_isPrefix (onSchedule.events_log bound)).length_le
  rw [← ends.sendCells, List.length_map] at waits
  constructor
  · rw [List.length_append, List.length_singleton, sendRequests, requests_snoc]
    exact ends.slotted.postSend onSchedule bound todo _
  · rw [advance_events _ rfl, sendPostsEq, List.map_append, ends.sendCells]
    rfl
  · rw [advance_events _ rfl, recvPostsEq]
    exact ends.recvCells
  · intro cell member
    rcases List.mem_append.mp member with old | new
    · exact ends.fetched cell old
    · rw [List.mem_singleton.mp new]
      simp
  · rw [advance_events _ rfl, sendWaitsEq]
    intro place cell found underway
    by_cases old : place < sends.length
    · rw [List.getElem?_append_left old] at found
      exact ends.underwaySends place cell found underway
    · omega
  · rw [advance_events _ rfl, recvWaitsEq]
    exact ends.underwayRecvs
  · exact ends.arrived
  · exact landing

theorem Ends.waitRecv {post : Post} {rest : List Instr}
    (todo : state.todo = .waitRecv post :: rest) {cell : RecvCell}
    (found : recvs[(recvWaits (events state.log)).length]? = some cell)
    (completed : cell.completed = true) {memory' : Memory Value}
    (landing : Landing parts setup rank (state.advance (state.vars.assign (.recv post.pieceIndex)
      none) (.waitRecv post) rest) memory' (landedIn recvs)) :
    Ends parts setup rank (state.advance (state.vars.assign (.recv post.pieceIndex) none)
      (.waitRecv post) rest) memory' sends recvs := by
  obtain ⟨recvPostsEq, sendPostsEq, recvWaitsEq, sendWaitsEq⟩ :=
    snoc_waitRecv (events state.log) post
  refine ⟨ends.slotted.waitRecv onSchedule bound todo, ?_, ?_, ends.fetched, ?_, ?_, ends.arrived,
    landing⟩
  · rw [advance_events _ rfl, sendPostsEq]
    exact ends.sendCells
  · rw [advance_events _ rfl, recvPostsEq]
    exact ends.recvCells
  · rw [advance_events _ rfl, sendWaitsEq]
    exact ends.underwaySends
  · rw [advance_events _ rfl, recvWaitsEq, List.length_append, List.length_singleton]
    intro place other otherFound underway
    have waits := ends.underwayRecvs place other otherFound underway
    rcases Nat.lt_or_eq_of_le waits with less | same
    · exact less
    · rw [← same, found] at otherFound
      obtain rfl := Option.some.inj otherFound
      simp [completed] at underway

theorem Ends.waitSend {post : Post} {rest : List Instr}
    (todo : state.todo = .waitSend post :: rest) {cell : SendCell Part}
    (found : sends[(sendWaits (events state.log)).length]? = some cell)
    (completed : cell.completed = true) {memory' : Memory Value}
    (landing : Landing parts setup rank (state.advance (state.vars.assign (.send post.pieceIndex)
      none) (.waitSend post) rest) memory' (landedIn recvs)) :
    Ends parts setup rank (state.advance (state.vars.assign (.send post.pieceIndex) none)
      (.waitSend post) rest) memory' sends recvs := by
  obtain ⟨recvPostsEq, sendPostsEq, recvWaitsEq, sendWaitsEq⟩ :=
    snoc_waitSend (events state.log) post
  refine ⟨ends.slotted.waitSend onSchedule bound todo, ?_, ?_, ends.fetched, ?_, ?_, ends.arrived,
    landing⟩
  · rw [advance_events _ rfl, sendPostsEq]
    exact ends.sendCells
  · rw [advance_events _ rfl, recvPostsEq]
    exact ends.recvCells
  · rw [advance_events _ rfl, sendWaitsEq, List.length_append, List.length_singleton]
    intro place other otherFound underway
    have waits := ends.underwaySends place other otherFound underway
    rcases Nat.lt_or_eq_of_le waits with less | same
    · exact less
    · rw [← same, found] at otherFound
      obtain rfl := Option.some.inj otherFound
      simp [completed] at underway
  · rw [advance_events _ rfl, recvWaitsEq]
    exact ends.underwayRecvs

theorem Ends.perform_waitRecv {post : Post} {rest : List Instr}
    (todo : state.todo = .waitRecv post :: rest) {net net' : ZeroCopyNet Part}
    {memory' : Memory Value} {verdict : Verdict ZeroCopyRequest}
    (recvsEq : net.recvs rank = recvs)
    (outcome : perform setup (zeroCopyTransport parts setup.worldSize) rank state.vars net memory
      (.waitRecv post) = .done (net', memory') verdict) :
    net' = net ∧ verdict = .next (state.vars.assign (.recv post.pieceIndex) none) ∧
      ∃ cell, recvs[(recvWaits (events state.log)).length]? = some cell ∧ cell.post = post ∧
        cell.completed = true := by
  obtain ⟨request, isRequest, slot⟩ := ends.slotted.waitRecv_request onSchedule bound todo
  have place := onSchedule.waitRecv_place bound todo
  obtain ⟨inside, requestEq⟩ := List.getElem?_eq_some_iff.mp isRequest
  simp only [receiveRequests, List.getElem_map, List.getElem_range] at requestEq
  simp only [receiveRequests, List.length_map, List.length_range] at inside
  have found := List.getElem?_eq_getElem inside
  rw [← ends.recvCells, List.getElem?_map, found, Option.map_some, Option.some.injEq] at place
  simp only [perform, slot, ← requestEq, zeroCopyTransport, zeroCopyWait, recvsEq, found] at outcome
  split at outcome
  · rename_i completed
    have ok := (ends.arrived _ (List.getElem_mem inside)).1
    simp only [Outcome.map, ok, decide_true, if_true, Outcome.done.injEq, Prod.mk.injEq] at outcome
    exact ⟨outcome.1.1.symm, outcome.2.symm, _, found, place, completed⟩
  · simp [Outcome.map] at outcome

theorem Ends.perform_waitSend {post : Post} {rest : List Instr}
    (todo : state.todo = .waitSend post :: rest) {net net' : ZeroCopyNet Part}
    {memory' : Memory Value} {verdict : Verdict ZeroCopyRequest}
    (sendsEq : net.sends rank = sends)
    (outcome : perform setup (zeroCopyTransport parts setup.worldSize) rank state.vars net memory
      (.waitSend post) = .done (net', memory') verdict) :
    net' = net ∧ verdict = .next (state.vars.assign (.send post.pieceIndex) none) ∧
      ∃ cell, sends[(sendWaits (events state.log)).length]? = some cell ∧
        cell.completed = true := by
  obtain ⟨request, isRequest, slot⟩ := ends.slotted.waitSend_request onSchedule bound todo
  obtain ⟨inside, requestEq⟩ := List.getElem?_eq_some_iff.mp isRequest
  simp only [sendRequests, List.getElem_map, List.getElem_range] at requestEq
  simp only [sendRequests, List.length_map, List.length_range] at inside
  have found := List.getElem?_eq_getElem inside
  simp only [perform, slot, ← requestEq, zeroCopyTransport, zeroCopyWait, sendsEq, found] at outcome
  split at outcome
  · rename_i completed
    simp only [Outcome.map, if_true, Outcome.done.injEq, Prod.mk.injEq] at outcome
    exact ⟨outcome.1.1.symm, outcome.2.symm, _, found, completed⟩
  · simp [Outcome.map] at outcome

end Ends

theorem Ends.rank_step {before after : ZeroCopyWorld Value Part}
    (ends : Ends parts setup rank (before.rank rank) (before.memory rank) (before.net.sends rank)
      (before.net.recvs rank)) (onSchedule : OnSchedule setup rank (before.rank rank))
    (bound : rank < setup.worldSize)
    (taken : RankStep setup (zeroCopyTransport parts setup.worldSize) rank before after) :
    Ends parts setup rank (after.rank rank) (after.memory rank) (after.net.sends rank)
      (after.net.recvs rank) := by
  have landing : Landing parts setup rank (after.rank rank) (after.memory rank)
      (landedIn (before.net.recvs rank)) := by
    apply ends.landing.rank_step (zeroCopy_keepsMemory _) onSchedule bound taken
    · rintro post rest todo index part ⟨cell, member, rfl, -⟩
      apply not_posted_before onSchedule bound todo
      rw [← ends.recvCells]
      exact List.mem_map_of_mem member
    · intro post rest net vars todo outcome index inside part partBound
      obtain ⟨-, -, cell, found, rfl, completed⟩ :=
        ends.perform_waitRecv onSchedule bound todo rfl outcome
      have member := List.mem_of_getElem? found
      exact ⟨cell, member, rfl, (ends.arrived cell member).2 completed index inside part partBound⟩
  cases taken with
  | enter call idle succeeded next =>
      rw [World.put_rank_same, World.put_memory_same] at landing ⊢
      exact ends.quiet rfl rfl landing
  | busy instr rest net memory todo outcome =>
      cases event : instr.event with
      | none => exact absurd outcome (perform_local_busy event).1
      | some _ =>
          cases instr with
          | postRecv post | postSend post =>
              simp [perform, zeroCopyTransport, zeroCopyPostRecv, zeroCopyPostSend, Outcome.map]
                at outcome
          | waitRecv post | waitSend post =>
              simp only [perform, zeroCopyTransport, zeroCopyWait] at outcome
              split at outcome
              · simp at outcome
              · split at outcome <;> split at outcome <;> try split at outcome
                all_goals simp [Outcome.map] at outcome
          | _ => simp [Instr.event] at event
  | stop instr rest net memory status todo outcome =>
      rw [World.put_rank_same, World.put_memory_same] at landing ⊢
      cases event : instr.event with
      | none =>
          obtain ⟨rfl, rfl⟩ := perform_local_stop event outcome
          exact ends.quiet (leave_log _ status event) rfl landing
      | some _ =>
          cases instr with
          | postRecv post | postSend post =>
              simp [perform, zeroCopyTransport, zeroCopyPostRecv, zeroCopyPostSend, Outcome.map]
                at outcome
          | waitRecv post =>
              have answer := (ends.perform_waitRecv onSchedule bound todo rfl outcome).2.1
              simp at answer
          | waitSend post =>
              have answer := (ends.perform_waitSend onSchedule bound todo rfl outcome).2.1
              simp at answer
          | _ => simp [Instr.event] at event
  | next instr rest net memory vars todo outcome =>
      rw [World.put_rank_same, World.put_memory_same] at landing ⊢
      cases event : instr.event with
      | none =>
          obtain ⟨rfl, requests, -⟩ := perform_local_next event outcome
          exact ends.quiet (by simp [RankState.advance, event]) requests landing
      | some _ =>
          cases instr with
          | postRecv post =>
              simp only [perform, zeroCopyTransport, zeroCopyPostRecv, Outcome.map,
                Outcome.done.injEq, Prod.mk.injEq, Verdict.next.injEq] at outcome
              obtain ⟨⟨rfl, rfl⟩, rfl⟩ := outcome
              simp only [World.put_net, Function.update_self]
              exact ends.postRecv onSchedule bound todo landing
          | postSend post =>
              simp only [perform, zeroCopyTransport, zeroCopyPostSend, Outcome.map,
                Outcome.done.injEq, Prod.mk.injEq, Verdict.next.injEq] at outcome
              obtain ⟨⟨rfl, rfl⟩, rfl⟩ := outcome
              simp only [World.put_net, Function.update_self]
              exact ends.postSend onSchedule bound todo landing
          | waitRecv post =>
              obtain ⟨rfl, same, cell, found, -, completed⟩ :=
                ends.perform_waitRecv onSchedule bound todo rfl outcome
              obtain rfl := Verdict.next.inj same
              exact ends.waitRecv onSchedule bound todo found completed landing
          | waitSend post =>
              obtain ⟨rfl, same, cell, found, completed⟩ :=
                ends.perform_waitSend onSchedule bound todo rfl outcome
              obtain rfl := Verdict.next.inj same
              exact ends.waitSend onSchedule bound todo found completed landing
          | _ => simp [Instr.event] at event

end RingAllReduce
