import RingAllReduce.Library.Rotation
import RingAllReduce.Library.Splits

/-! Processes that exchange items in batches: post the receives of a batch, post its sends,
wait for the receives, wait for the sends. What has been posted and waited for at each
position of such a process, and why a ring of them cannot wait in a circle. -/

namespace Exchange

open Splits

variable {Item : Type}

inductive Event (Item : Type) where
  | postRecv (item : Item)
  | postSend (item : Item)
  | waitRecv (item : Item)
  | waitSend (item : Item)
  deriving DecidableEq

def Event.item : Event Item → Item
  | .postRecv item | .postSend item | .waitRecv item | .waitSend item => item

def Event.isWait : Event Item → Bool
  | .postRecv _ | .postSend _ => false
  | .waitRecv _ | .waitSend _ => true

@[simp] def Event.postedRecv : Event Item → Option Item
  | .postRecv item => some item
  | _ => none

@[simp] def Event.postedSend : Event Item → Option Item
  | .postSend item => some item
  | _ => none

@[simp] def Event.waitedRecv : Event Item → Option Item
  | .waitRecv item => some item
  | _ => none

@[simp] def Event.waitedSend : Event Item → Option Item
  | .waitSend item => some item
  | _ => none

def recvPosts (events : List (Event Item)) : List Item := events.filterMap Event.postedRecv
def sendPosts (events : List (Event Item)) : List Item := events.filterMap Event.postedSend
def recvWaits (events : List (Event Item)) : List Item := events.filterMap Event.waitedRecv
def sendWaits (events : List (Event Item)) : List Item := events.filterMap Event.waitedSend

@[simp] theorem recvPosts_append (left right : List (Event Item)) :
    recvPosts (left ++ right) = recvPosts left ++ recvPosts right := List.filterMap_append

@[simp] theorem sendPosts_append (left right : List (Event Item)) :
    sendPosts (left ++ right) = sendPosts left ++ sendPosts right := List.filterMap_append

@[simp] theorem recvWaits_append (left right : List (Event Item)) :
    recvWaits (left ++ right) = recvWaits left ++ recvWaits right := List.filterMap_append

@[simp] theorem sendWaits_append (left right : List (Event Item)) :
    sendWaits (left ++ right) = sendWaits left ++ sendWaits right := List.filterMap_append

@[simp] theorem recvPosts_nil : recvPosts ([] : List (Event Item)) = [] := rfl
@[simp] theorem sendPosts_nil : sendPosts ([] : List (Event Item)) = [] := rfl
@[simp] theorem recvWaits_nil : recvWaits ([] : List (Event Item)) = [] := rfl
@[simp] theorem sendWaits_nil : sendWaits ([] : List (Event Item)) = [] := rfl

@[simp] theorem recvPosts_cons (event : Event Item) (rest : List (Event Item)) :
    recvPosts (event :: rest) = event.postedRecv.toList ++ recvPosts rest := by
  cases event <;> rfl

@[simp] theorem sendPosts_cons (event : Event Item) (rest : List (Event Item)) :
    sendPosts (event :: rest) = event.postedSend.toList ++ sendPosts rest := by
  cases event <;> rfl

@[simp] theorem recvWaits_cons (event : Event Item) (rest : List (Event Item)) :
    recvWaits (event :: rest) = event.waitedRecv.toList ++ recvWaits rest := by
  cases event <;> rfl

@[simp] theorem sendWaits_cons (event : Event Item) (rest : List (Event Item)) :
    sendWaits (event :: rest) = event.waitedSend.toList ++ sendWaits rest := by
  cases event <;> rfl

section Snoc

variable (before : List (Event Item)) (item : Item)

theorem snoc_postRecv : recvPosts (before ++ [.postRecv item]) = recvPosts before ++ [item] ∧
    sendPosts (before ++ [.postRecv item]) = sendPosts before ∧
    recvWaits (before ++ [.postRecv item]) = recvWaits before ∧
    sendWaits (before ++ [.postRecv item]) = sendWaits before := by
  simp

theorem snoc_postSend : recvPosts (before ++ [.postSend item]) = recvPosts before ∧
    sendPosts (before ++ [.postSend item]) = sendPosts before ++ [item] ∧
    recvWaits (before ++ [.postSend item]) = recvWaits before ∧
    sendWaits (before ++ [.postSend item]) = sendWaits before := by
  simp

theorem snoc_waitRecv : recvPosts (before ++ [.waitRecv item]) = recvPosts before ∧
    sendPosts (before ++ [.waitRecv item]) = sendPosts before ∧
    recvWaits (before ++ [.waitRecv item]) = recvWaits before ++ [item] ∧
    sendWaits (before ++ [.waitRecv item]) = sendWaits before := by
  simp

theorem snoc_waitSend : recvPosts (before ++ [.waitSend item]) = recvPosts before ∧
    sendPosts (before ++ [.waitSend item]) = sendPosts before ∧
    recvWaits (before ++ [.waitSend item]) = recvWaits before ∧
    sendWaits (before ++ [.waitSend item]) = sendWaits before ++ [item] := by
  simp

end Snoc

/-- The receives posted and not yet waited for, in posting order. -/
def openRecvs (events : List (Event Item)) : List Item :=
  (recvPosts events).drop (recvWaits events).length

/-- The sends posted and not yet waited for, in posting order. -/
def openSends (events : List (Event Item)) : List Item :=
  (sendPosts events).drop (sendWaits events).length

structure Batch (Item : Type) where
  recvs : List Item
  sends : List Item

def Batch.items (batch : Batch Item) : List Item := batch.recvs ++ batch.sends

def Batch.events (batch : Batch Item) : List (Event Item) :=
  batch.recvs.map .postRecv ++ (batch.sends.map .postSend ++
    (batch.recvs.map .waitRecv ++ batch.sends.map .waitSend))

def run (batches : List (Batch Item)) : List (Event Item) := batches.flatMap Batch.events
def allRecvs (batches : List (Batch Item)) : List Item := batches.flatMap Batch.recvs
def allSends (batches : List (Batch Item)) : List Item := batches.flatMap Batch.sends

theorem item_of_run {batches : List (Batch Item)} {event : Event Item}
    (member : event ∈ run batches) : ∃ batch ∈ batches, event.item ∈ batch.items := by
  obtain ⟨batch, batchIn, inBatch⟩ := List.mem_flatMap.mp member
  refine ⟨batch, batchIn, ?_⟩
  simp only [Batch.events, List.mem_append, List.mem_map] at inBatch
  rcases inBatch with ⟨item, itemIn, rfl⟩ | ⟨item, itemIn, rfl⟩ | ⟨item, itemIn, rfl⟩ |
    ⟨item, itemIn, rfl⟩ <;> simp [Event.item, Batch.items, itemIn]

section Projections

variable (items : List Item)

@[simp] theorem recvPosts_map_postRecv : recvPosts (items.map .postRecv) = items := by
  simp [recvPosts, List.filterMap_map, Function.comp_def, Event.postedRecv]

@[simp] theorem recvPosts_map_postSend : recvPosts (items.map .postSend) = [] := by
  simp [recvPosts, Event.postedRecv]

@[simp] theorem recvPosts_map_waitRecv : recvPosts (items.map .waitRecv) = [] := by
  simp [recvPosts, Event.postedRecv]

@[simp] theorem recvPosts_map_waitSend : recvPosts (items.map .waitSend) = [] := by
  simp [recvPosts, Event.postedRecv]

@[simp] theorem sendPosts_map_postRecv : sendPosts (items.map .postRecv) = [] := by
  simp [sendPosts, Event.postedSend]

@[simp] theorem sendPosts_map_postSend : sendPosts (items.map .postSend) = items := by
  simp [sendPosts, List.filterMap_map, Function.comp_def, Event.postedSend]

@[simp] theorem sendPosts_map_waitRecv : sendPosts (items.map .waitRecv) = [] := by
  simp [sendPosts, Event.postedSend]

@[simp] theorem sendPosts_map_waitSend : sendPosts (items.map .waitSend) = [] := by
  simp [sendPosts, Event.postedSend]

@[simp] theorem recvWaits_map_postRecv : recvWaits (items.map .postRecv) = [] := by
  simp [recvWaits, Event.waitedRecv]

@[simp] theorem recvWaits_map_postSend : recvWaits (items.map .postSend) = [] := by
  simp [recvWaits, Event.waitedRecv]

@[simp] theorem recvWaits_map_waitRecv : recvWaits (items.map .waitRecv) = items := by
  simp [recvWaits, List.filterMap_map, Function.comp_def, Event.waitedRecv]

@[simp] theorem recvWaits_map_waitSend : recvWaits (items.map .waitSend) = [] := by
  simp [recvWaits, Event.waitedRecv]

@[simp] theorem sendWaits_map_postRecv : sendWaits (items.map .postRecv) = [] := by
  simp [sendWaits, Event.waitedSend]

@[simp] theorem sendWaits_map_postSend : sendWaits (items.map .postSend) = [] := by
  simp [sendWaits, Event.waitedSend]

@[simp] theorem sendWaits_map_waitRecv : sendWaits (items.map .waitRecv) = [] := by
  simp [sendWaits, Event.waitedSend]

@[simp] theorem sendWaits_map_waitSend : sendWaits (items.map .waitSend) = items := by
  simp [sendWaits, List.filterMap_map, Function.comp_def, Event.waitedSend]

end Projections

@[simp] theorem run_append (left right : List (Batch Item)) :
    run (left ++ right) = run left ++ run right := List.flatMap_append

@[simp] theorem allRecvs_append (left right : List (Batch Item)) :
    allRecvs (left ++ right) = allRecvs left ++ allRecvs right := List.flatMap_append

@[simp] theorem allSends_append (left right : List (Batch Item)) :
    allSends (left ++ right) = allSends left ++ allSends right := List.flatMap_append

@[simp] theorem run_cons (batch : Batch Item) (rest : List (Batch Item)) :
    run (batch :: rest) = batch.events ++ run rest := List.flatMap_cons

@[simp] theorem allRecvs_cons (batch : Batch Item) (rest : List (Batch Item)) :
    allRecvs (batch :: rest) = batch.recvs ++ allRecvs rest := List.flatMap_cons

@[simp] theorem allSends_cons (batch : Batch Item) (rest : List (Batch Item)) :
    allSends (batch :: rest) = batch.sends ++ allSends rest := List.flatMap_cons

@[simp] theorem recvPosts_run (batches : List (Batch Item)) :
    recvPosts (run batches) = allRecvs batches := by
  induction batches with
  | nil => rfl
  | cons batch rest ih => simp [ih, Batch.events]

@[simp] theorem sendPosts_run (batches : List (Batch Item)) :
    sendPosts (run batches) = allSends batches := by
  induction batches with
  | nil => rfl
  | cons batch rest ih => simp [ih, Batch.events]

@[simp] theorem recvWaits_run (batches : List (Batch Item)) :
    recvWaits (run batches) = allRecvs batches := by
  induction batches with
  | nil => rfl
  | cons batch rest ih => simp [ih, Batch.events]

@[simp] theorem sendWaits_run (batches : List (Batch Item)) :
    sendWaits (run batches) = allSends batches := by
  induction batches with
  | nil => rfl
  | cons batch rest ih => simp [ih, Batch.events]

/-- Of finished batches nothing is open. -/
@[simp] theorem openRecvs_run_append (batches : List (Batch Item)) (events : List (Event Item)) :
    openRecvs (run batches ++ events) = openRecvs events := by
  simp [openRecvs, List.drop_append]

@[simp] theorem openSends_run_append (batches : List (Batch Item)) (events : List (Event Item)) :
    openSends (run batches ++ events) = openSends events := by
  simp [openSends, List.drop_append]

/-- Where a position of the process lies: which batches are over, and what the current batch
has posted and waited for. -/
structure Position (batches : List (Batch Item)) (before : List (Event Item))
    (earlier : List (Batch Item)) (batch : Batch Item) (recvd sent got acked : List Item) :
    Prop where
  inside : ∃ later, batches = earlier ++ batch :: later
  recvPosts_eq : recvPosts before = allRecvs earlier ++ recvd
  sendPosts_eq : sendPosts before = allSends earlier ++ sent
  recvWaits_eq : recvWaits before = allRecvs earlier ++ got
  sendWaits_eq : sendWaits before = allSends earlier ++ acked

theorem Batch.events_split {batch : Batch Item} {before after : List (Event Item)}
    {event : Event Item} (split : batch.events = before ++ event :: after) :
    (∃ lead item rest, event = .postRecv item ∧ batch.recvs = lead ++ item :: rest ∧
      before = lead.map .postRecv) ∨
    (∃ lead item rest, event = .postSend item ∧ batch.sends = lead ++ item :: rest ∧
      before = batch.recvs.map .postRecv ++ lead.map .postSend) ∨
    (∃ lead item rest, event = .waitRecv item ∧ batch.recvs = lead ++ item :: rest ∧
      before = batch.recvs.map .postRecv ++ (batch.sends.map .postSend ++
        lead.map .waitRecv)) ∨
    (∃ lead item rest, event = .waitSend item ∧ batch.sends = lead ++ item :: rest ∧
      before = batch.recvs.map .postRecv ++ (batch.sends.map .postSend ++
        (batch.recvs.map .waitRecv ++ lead.map .waitSend))) := by
  rw [Batch.events] at split
  rcases append_split split with ⟨_, here, -⟩ | ⟨_, rfl, later⟩
  · obtain ⟨lead, item, rest, itemsEq, leadEq, eventEq, -⟩ := map_split here
    exact Or.inl ⟨lead, item, rest, eventEq, itemsEq, leadEq⟩
  rcases append_split later with ⟨_, here, -⟩ | ⟨_, rfl, last⟩
  · obtain ⟨lead, item, rest, itemsEq, rfl, eventEq, -⟩ := map_split here
    exact Or.inr (Or.inl ⟨lead, item, rest, eventEq, itemsEq, rfl⟩)
  rcases append_split last with ⟨_, here, -⟩ | ⟨_, rfl, here⟩
  · obtain ⟨lead, item, rest, itemsEq, rfl, eventEq, -⟩ := map_split here
    exact Or.inr (Or.inr (Or.inl ⟨lead, item, rest, eventEq, itemsEq, rfl⟩))
  · obtain ⟨lead, item, rest, itemsEq, rfl, eventEq, -⟩ := map_split here
    exact Or.inr (Or.inr (Or.inr ⟨lead, item, rest, eventEq, itemsEq, rfl⟩))

theorem run_split {batches : List (Batch Item)} {before after : List (Event Item)}
    {event : Event Item} (split : run batches = before ++ event :: after) :
    ∃ earlier batch later inner rest, batches = earlier ++ batch :: later ∧
      before = run earlier ++ inner ∧ batch.events = inner ++ event :: rest := by
  obtain ⟨earlier, batch, later, inner, rest, batchesEq, beforeEq, eventsEq, -⟩ :=
    flatMap_split split
  exact ⟨earlier, batch, later, inner, rest, batchesEq, beforeEq, eventsEq⟩

section At

variable {batches : List (Batch Item)} {before after : List (Event Item)} {item : Item}

theorem at_postRecv (split : run batches = before ++ .postRecv item :: after) :
    ∃ earlier batch lead rest, batch.recvs = lead ++ item :: rest ∧
      Position batches before earlier batch lead [] [] [] := by
  obtain ⟨earlier, batch, later, inner, tail, batchesEq, rfl, eventsEq⟩ := run_split split
  rcases batch.events_split eventsEq with ⟨lead, found, rest, same, itemsEq, rfl⟩ |
    ⟨_, _, _, same, -⟩ | ⟨_, _, _, same, -⟩ | ⟨_, _, _, same, -⟩
  · obtain rfl : item = found := by simpa using same
    exact ⟨earlier, batch, lead, rest, itemsEq, ⟨later, batchesEq⟩, by simp,
      by simp, by simp, by simp⟩
  all_goals simp at same

theorem at_postSend (split : run batches = before ++ .postSend item :: after) :
    ∃ earlier batch lead rest, batch.sends = lead ++ item :: rest ∧
      Position batches before earlier batch batch.recvs lead [] [] := by
  obtain ⟨earlier, batch, later, inner, tail, batchesEq, rfl, eventsEq⟩ := run_split split
  rcases batch.events_split eventsEq with ⟨_, _, _, same, -⟩ |
    ⟨lead, found, rest, same, itemsEq, rfl⟩ | ⟨_, _, _, same, -⟩ | ⟨_, _, _, same, -⟩
  rotate_left
  · obtain rfl : item = found := by simpa using same
    exact ⟨earlier, batch, lead, rest, itemsEq, ⟨later, batchesEq⟩, by simp,
      by simp, by simp, by simp⟩
  all_goals simp at same

theorem at_waitRecv (split : run batches = before ++ .waitRecv item :: after) :
    ∃ earlier batch lead rest, batch.recvs = lead ++ item :: rest ∧
      Position batches before earlier batch batch.recvs batch.sends lead [] := by
  obtain ⟨earlier, batch, later, inner, tail, batchesEq, rfl, eventsEq⟩ := run_split split
  rcases batch.events_split eventsEq with ⟨_, _, _, same, -⟩ | ⟨_, _, _, same, -⟩ |
    ⟨lead, found, rest, same, itemsEq, rfl⟩ | ⟨_, _, _, same, -⟩
  rotate_left 2
  · obtain rfl : item = found := by simpa using same
    exact ⟨earlier, batch, lead, rest, itemsEq, ⟨later, batchesEq⟩, by simp,
      by simp, by simp, by simp⟩
  all_goals simp at same

theorem at_waitSend (split : run batches = before ++ .waitSend item :: after) :
    ∃ earlier batch lead rest, batch.sends = lead ++ item :: rest ∧
      Position batches before earlier batch batch.recvs batch.sends batch.recvs lead := by
  obtain ⟨earlier, batch, later, inner, tail, batchesEq, rfl, eventsEq⟩ := run_split split
  rcases batch.events_split eventsEq with ⟨_, _, _, same, -⟩ | ⟨_, _, _, same, -⟩ |
    ⟨_, _, _, same, -⟩ | ⟨lead, found, rest, same, itemsEq, rfl⟩
  rotate_left 3
  · obtain rfl : item = found := by simpa using same
    exact ⟨earlier, batch, lead, rest, itemsEq, ⟨later, batchesEq⟩, by simp,
      by simp, by simp, by simp⟩
  all_goals simp at same

end At

theorem open_within {batches : List (Batch Item)} {before : List (Event Item)}
    (ahead : before <+: run batches) :
    (openRecvs before = [] ∧ openSends before = []) ∨
      ∃ batch ∈ batches, openRecvs before <:+: batch.recvs ∧ openSends before <:+: batch.sends := by
  obtain ⟨rest, split⟩ := ahead
  cases rest with
  | nil =>
      rw [List.append_nil] at split
      subst split
      simp [openRecvs, openSends]
  | cons event after =>
      right
      cases event with
      | postRecv item =>
          obtain ⟨earlier, batch, lead, rest, itemsEq, place⟩ := at_postRecv split.symm
          obtain ⟨later, batchesEq⟩ := place.inside
          refine ⟨batch, by simp [batchesEq], ?_, ?_⟩
          · simp only [openRecvs, place.recvPosts_eq, place.recvWaits_eq, List.append_nil,
              List.drop_left, itemsEq]
            exact (List.prefix_append _ _).isInfix
          · simp [openSends, place.sendPosts_eq, place.sendWaits_eq]
      | postSend item =>
          obtain ⟨earlier, batch, lead, rest, itemsEq, place⟩ := at_postSend split.symm
          obtain ⟨later, batchesEq⟩ := place.inside
          refine ⟨batch, by simp [batchesEq], ?_, ?_⟩
          · simp [openRecvs, place.recvPosts_eq, place.recvWaits_eq]
          · simp only [openSends, place.sendPosts_eq, place.sendWaits_eq, List.append_nil,
              List.drop_left, itemsEq]
            exact (List.prefix_append _ _).isInfix
      | waitRecv item =>
          obtain ⟨earlier, batch, lead, rest, itemsEq, place⟩ := at_waitRecv split.symm
          obtain ⟨later, batchesEq⟩ := place.inside
          refine ⟨batch, by simp [batchesEq], ?_, ?_⟩
          · rw [openRecvs, place.recvPosts_eq, place.recvWaits_eq, itemsEq, ← List.append_assoc,
              List.drop_left]
            exact (List.suffix_append _ _).isInfix
          · simp [openSends, place.sendPosts_eq, place.sendWaits_eq]
      | waitSend item =>
          obtain ⟨earlier, batch, lead, rest, itemsEq, place⟩ := at_waitSend split.symm
          obtain ⟨later, batchesEq⟩ := place.inside
          refine ⟨batch, by simp [batchesEq], ?_, ?_⟩
          · simp [openRecvs, place.recvPosts_eq, place.recvWaits_eq]
          · rw [openSends, place.sendPosts_eq, place.sendWaits_eq, itemsEq, ← List.append_assoc,
              List.drop_left]
            exact (List.suffix_append _ _).isInfix

/-- What is open where a process comes to a post: the posts of the batch before it. -/
theorem open_at_postRecv {batches : List (Batch Item)} {before after : List (Event Item)}
    {item : Item} (split : run batches = before ++ .postRecv item :: after) :
    ∃ batch ∈ batches, ∃ lead rest, batch.recvs = lead ++ item :: rest ∧ openRecvs before = lead := by
  obtain ⟨earlier, batch, lead, rest, itemsEq, place⟩ := at_postRecv split
  obtain ⟨later, batchesEq⟩ := place.inside
  refine ⟨batch, by simp [batchesEq], lead, rest, itemsEq, ?_⟩
  simp [openRecvs, place.recvPosts_eq, place.recvWaits_eq]

theorem open_at_postSend {batches : List (Batch Item)} {before after : List (Event Item)}
    {item : Item} (split : run batches = before ++ .postSend item :: after) :
    ∃ batch ∈ batches, ∃ lead rest, batch.sends = lead ++ item :: rest ∧ openSends before = lead := by
  obtain ⟨earlier, batch, lead, rest, itemsEq, place⟩ := at_postSend split
  obtain ⟨later, batchesEq⟩ := place.inside
  refine ⟨batch, by simp [batchesEq], lead, rest, itemsEq, ?_⟩
  simp [openSends, place.sendPosts_eq, place.sendWaits_eq]

/-- A post that follows a wait is the first of its batch. -/
theorem open_nil_of_wait {batches : List (Batch Item)} {before after : List (Event Item)}
    {event last : Event Item} (split : run batches = before ++ event :: after)
    (isPost : event.isWait = false) (isLast : before.getLast? = some last)
    (isWait : last.isWait = true) : openRecvs before = [] ∧ openSends before = [] := by
  obtain ⟨earlier, batch, later, inner, rest, -, rfl, eventsEq⟩ := run_split split
  have posts : ∀ other ∈ inner, other.isWait = false := by
    rcases batch.events_split eventsEq with ⟨lead, item, _, -, -, rfl⟩ | ⟨lead, item, _, -, -, rfl⟩ |
      ⟨_, _, _, rfl, -⟩ | ⟨_, _, _, rfl, -⟩
    · simp [Event.isWait]
    · rintro other member
      rcases List.mem_append.mp member with recv | send
      · obtain ⟨_, -, rfl⟩ := List.mem_map.mp recv
        rfl
      · obtain ⟨_, -, rfl⟩ := List.mem_map.mp send
        rfl
    · simp [Event.isWait] at isPost
    · simp [Event.isWait] at isPost
  have none : inner = [] := by
    rcases List.eq_nil_or_concat inner with none | ⟨front, other, rfl⟩
    · exact none
    · obtain rfl : other = last := by simpa [← List.append_assoc] using isLast
      simp [posts other (by simp)] at isWait
  rw [none, openRecvs_run_append, openSends_run_append]
  simp [openRecvs, openSends]

theorem recvWaits_isPrefix {batches : List (Batch Item)} {before : List (Event Item)}
    (ahead : before <+: run batches) : recvWaits before <+: recvPosts before := by
  obtain ⟨rest, split⟩ := ahead
  cases rest with
  | nil =>
      rw [List.append_nil] at split
      simp [split]
  | cons event after =>
      cases event with
      | postRecv item =>
          obtain ⟨_, _, lead, _, _, place⟩ := at_postRecv split.symm
          rw [place.recvPosts_eq, place.recvWaits_eq, List.append_nil]
          exact List.prefix_append _ _
      | postSend item =>
          obtain ⟨_, _, _, _, _, place⟩ := at_postSend split.symm
          rw [place.recvPosts_eq, place.recvWaits_eq, List.append_nil]
          exact List.prefix_append _ _
      | waitRecv item =>
          obtain ⟨_, _, lead, _, itemsEq, place⟩ := at_waitRecv split.symm
          rw [place.recvPosts_eq, place.recvWaits_eq, itemsEq, ← List.append_assoc]
          exact List.prefix_append _ _
      | waitSend item =>
          obtain ⟨_, _, _, _, _, place⟩ := at_waitSend split.symm
          simp only [place.recvPosts_eq, place.recvWaits_eq, List.prefix_rfl]

theorem sendWaits_isPrefix {batches : List (Batch Item)} {before : List (Event Item)}
    (ahead : before <+: run batches) : sendWaits before <+: sendPosts before := by
  obtain ⟨rest, split⟩ := ahead
  cases rest with
  | nil =>
      rw [List.append_nil] at split
      simp [split]
  | cons event after =>
      cases event with
      | postRecv item =>
          obtain ⟨_, _, _, _, _, place⟩ := at_postRecv split.symm
          simp only [place.sendPosts_eq, place.sendWaits_eq, List.prefix_rfl]
      | postSend item =>
          obtain ⟨_, _, lead, _, _, place⟩ := at_postSend split.symm
          rw [place.sendPosts_eq, place.sendWaits_eq, List.append_nil]
          exact List.prefix_append _ _
      | waitRecv item =>
          obtain ⟨_, _, _, _, _, place⟩ := at_waitRecv split.symm
          rw [place.sendPosts_eq, place.sendWaits_eq, List.append_nil]
          exact List.prefix_append _ _
      | waitSend item =>
          obtain ⟨_, _, lead, _, itemsEq, place⟩ := at_waitSend split.symm
          rw [place.sendPosts_eq, place.sendWaits_eq, itemsEq, ← List.append_assoc]
          exact List.prefix_append _ _

section Open

variable {batches : List (Batch Item)} {before after : List (Event Item)} {item : Item}

theorem recvPosts_eq_append_open (ahead : before <+: run batches) :
    recvPosts before = recvWaits before ++ openRecvs before :=
  List.prefix_iff_eq_append.mp (recvWaits_isPrefix ahead) |>.symm

theorem openRecvs_at_waitRecv (split : run batches = before ++ .waitRecv item :: after) :
    ∃ rest, openRecvs before = item :: rest := by
  obtain ⟨earlier, batch, lead, rest, itemsEq, place⟩ := at_waitRecv split
  refine ⟨rest, ?_⟩
  rw [openRecvs, place.recvPosts_eq, place.recvWaits_eq, itemsEq, ← List.append_assoc,
    List.drop_left]

theorem openSends_at_waitSend (split : run batches = before ++ .waitSend item :: after) :
    ∃ rest, openSends before = item :: rest := by
  obtain ⟨earlier, batch, lead, rest, itemsEq, place⟩ := at_waitSend split
  refine ⟨rest, ?_⟩
  rw [openSends, place.sendPosts_eq, place.sendWaits_eq, itemsEq, ← List.append_assoc,
    List.drop_left]

theorem openSends_snoc_waitSend :
    openSends (before ++ [.waitSend item]) = (openSends before).tail := by
  simp [openSends]

@[simp] theorem openSends_snoc_waitRecv :
    openSends (before ++ [.waitRecv item]) = openSends before := by
  simp [openSends]

theorem openRecvs_snoc_postRecv (ahead : before <+: run batches) (item : Item) :
    openRecvs (before ++ [.postRecv item]) = openRecvs before ++ [item] := by
  have bound := (recvWaits_isPrefix ahead).length_le
  simp [openRecvs, List.drop_append_of_le_length bound]

theorem openSends_snoc_postSend (bound : (sendWaits before).length ≤ (sendPosts before).length) :
    openSends (before ++ [.postSend item]) = openSends before ++ [item] := by
  simp [openSends, List.drop_append_of_le_length bound]

@[simp] theorem openSends_snoc_postRecv :
    openSends (before ++ [.postRecv item]) = openSends before := by
  simp [openSends]

@[simp] theorem openRecvs_snoc_postSend :
    openRecvs (before ++ [.postSend item]) = openRecvs before := by
  simp [openRecvs]

theorem openRecvs_snoc_waitRecv :
    openRecvs (before ++ [.waitRecv item]) = (openRecvs before).tail := by
  simp [openRecvs]

@[simp] theorem openRecvs_snoc_waitSend :
    openRecvs (before ++ [.waitSend item]) = openRecvs before := by
  simp [openRecvs]

end Open

section Order

variable {Key Label : Type} [Preorder Key] {batches : List (Batch Item)}
  {before after : List (Event Item)} {item other : Item} {size : Nat}

/-- Everything a batch exchanges comes before everything a later batch exchanges. -/
def Ordered (key : Item → Key) (batches : List (Batch Item)) : Prop :=
  batches.Pairwise fun earlier later =>
    ∀ left ∈ earlier.items, ∀ right ∈ later.items, key left < key right

theorem Ordered.later {key : Item → Key} (ordered : Ordered key batches)
    {earlier later : List (Batch Item)} {batch : Batch Item}
    (batchesEq : batches = earlier ++ batch :: later) (itemIn : item ∈ batch.items)
    {next : Batch Item} (nextIn : next ∈ later) (otherIn : other ∈ next.items) :
    key item < key other := by
  rw [Ordered, batchesEq, List.pairwise_append, List.pairwise_cons] at ordered
  exact ordered.2.1.1 next nextIn item itemIn other otherIn

/-- What is still unsent when a process waits for a receive comes after that receive. -/
theorem Ordered.lt_of_unsent {key : Item → Key} (ordered : Ordered key batches)
    (split : run batches = before ++ .waitRecv item :: after)
    (owed : other ∈ allSends batches) (unsent : other ∉ sendPosts before) :
    key item < key other := by
  obtain ⟨earlier, batch, lead, rest, itemsEq, place⟩ := at_waitRecv split
  obtain ⟨later, batchesEq⟩ := place.inside
  rw [place.sendPosts_eq, List.mem_append, not_or] at unsent
  have remaining : other ∈ allSends later := by
    rw [batchesEq] at owed
    simpa [unsent.1, unsent.2] using owed
  obtain ⟨next, nextIn, otherIn⟩ := List.mem_flatMap.mp remaining
  exact ordered.later batchesEq (by simp [Batch.items, itemsEq]) nextIn
    (by simp [Batch.items, otherIn])

/-- What is still unposted when a process is about to send comes after that send. -/
theorem Ordered.lt_of_unposted {key : Item → Key} (ordered : Ordered key batches)
    (split : run batches = before ++ .postSend item :: after)
    (owed : other ∈ allRecvs batches) (unposted : other ∉ recvPosts before) :
    key item < key other := by
  obtain ⟨earlier, batch, lead, rest, itemsEq, place⟩ := at_postSend split
  obtain ⟨later, batchesEq⟩ := place.inside
  rw [place.recvPosts_eq, List.mem_append, not_or] at unposted
  have remaining : other ∈ allRecvs later := by
    rw [batchesEq] at owed
    simpa [unposted.1, unposted.2] using owed
  obtain ⟨next, nextIn, otherIn⟩ := List.mem_flatMap.mp remaining
  exact ordered.later batchesEq (by simp [Batch.items, itemsEq]) nextIn
    (by simp [Batch.items, otherIn])

/-- Processes on a ring cannot all wait for a receive their predecessor has yet to send. -/
theorem no_receive_cycle (positive : 0 < size) {process : Nat → List (Batch Item)}
    {label : Item → Label} {key : Label → Key}
    (ordered : ∀ place < size, Ordered (fun item => key (label item)) (process place))
    {waited : Nat → Item} {done rest : Nat → List (Event Item)}
    (split : ∀ place < size,
      run (process place) = done place ++ .waitRecv (waited place) :: rest place)
    (owed : ∀ place < size,
      label (waited (Rotation.next size place)) ∈ (allSends (process place)).map label)
    (unsent : ∀ place < size,
      label (waited (Rotation.next size place)) ∉ (sendPosts (done place)).map label) : False := by
  apply Rotation.no_ascent positive fun place => key (label (waited place))
  intro place bound
  obtain ⟨other, otherIn, same⟩ := List.mem_map.mp (owed place bound)
  have absent : other ∉ sendPosts (done place) := by
    intro present
    exact unsent place bound (same ▸ List.mem_map_of_mem present)
  have less := (ordered place bound).lt_of_unsent (split place bound) otherIn absent
  rwa [same] at less

/-- Processes on a ring cannot all be held up by a receive their successor has yet to post. -/
theorem no_send_cycle (positive : 0 < size) {process : Nat → List (Batch Item)}
    {label : Item → Label} {key : Label → Key}
    (ordered : ∀ place < size, Ordered (fun item => key (label item)) (process place))
    {held : Nat → Item} {done rest : Nat → List (Event Item)}
    (split : ∀ place < size,
      run (process place) = done place ++ .postSend (held place) :: rest place)
    (owed : ∀ place < size,
      label (held place) ∈ (allRecvs (process (Rotation.next size place))).map label)
    (unposted : ∀ place < size,
      label (held place) ∉ (recvPosts (done (Rotation.next size place))).map label) : False := by
  apply Rotation.no_descent positive fun place => key (label (held place))
  intro place bound
  have nextBound := Rotation.next_lt positive place
  obtain ⟨other, otherIn, same⟩ := List.mem_map.mp (owed place bound)
  have absent : other ∉ recvPosts (done (Rotation.next size place)) := by
    intro present
    exact unposted place bound (same ▸ List.mem_map_of_mem present)
  have less := (ordered _ nextBound).lt_of_unposted (split _ nextBound) otherIn absent
  rwa [same] at less

end Order

end Exchange
