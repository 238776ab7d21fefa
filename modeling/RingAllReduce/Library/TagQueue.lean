import Mathlib.Data.List.Basic
import Mathlib.Data.List.TakeDrop

/-! Queues that are searched by a key: what a search takes, and which message of a stream it
finds when sender and receiver follow the same plan. -/

namespace TagQueue

variable {Item Key Size : Type} [DecidableEq Key]

/-- The oldest item with the wanted key, and the queue without it. -/
def takeFirst (key : Item → Key) (wanted : Key) : List Item → Option (Item × List Item)
  | [] => none
  | item :: rest =>
      if key item = wanted then some (item, rest)
      else (takeFirst key wanted rest).map fun (found, remaining) => (found, item :: remaining)

/-- The part of a queue that one key can see. -/
def lane (key : Item → Key) (wanted : Key) (queue : List Item) : List Item :=
  queue.filter fun item => key item = wanted

@[simp] theorem lane_nil (key : Item → Key) (wanted : Key) : lane key wanted [] = [] := rfl

@[simp] theorem lane_append (key : Item → Key) (wanted : Key) (left right : List Item) :
    lane key wanted (left ++ right) = lane key wanted left ++ lane key wanted right :=
  List.filter_append ..

theorem lane_cons_same {key : Item → Key} {wanted : Key} {item : Item} (same : key item = wanted)
    (rest : List Item) : lane key wanted (item :: rest) = item :: lane key wanted rest := by
  simp [lane, same]

theorem lane_cons_other {key : Item → Key} {wanted : Key} {item : Item} (other : key item ≠ wanted)
    (rest : List Item) : lane key wanted (item :: rest) = lane key wanted rest := by
  simp [lane, other]

theorem mem_lane {key : Item → Key} {wanted : Key} {item : Item} {queue : List Item} :
    item ∈ lane key wanted queue ↔ item ∈ queue ∧ key item = wanted := by
  simp [lane]

theorem takeFirst_eq_none {key : Item → Key} {wanted : Key} {queue : List Item} :
    takeFirst key wanted queue = none ↔ lane key wanted queue = [] := by
  induction queue with
  | nil => simp [takeFirst]
  | cons item rest ih =>
      by_cases same : key item = wanted
      · simp [takeFirst, same, lane]
      · simp [takeFirst, same, ih, lane_cons_other same]

theorem takeFirst_split {key : Item → Key} {wanted : Key} {queue remaining : List Item}
    {found : Item} (taken : takeFirst key wanted queue = some (found, remaining)) :
    ∃ front back, queue = front ++ found :: back ∧ remaining = front ++ back := by
  induction queue generalizing remaining with
  | nil => simp [takeFirst] at taken
  | cons item rest ih =>
      by_cases same : key item = wanted
      · simp only [takeFirst, same, if_true, Option.some.injEq, Prod.mk.injEq] at taken
        obtain ⟨rfl, rfl⟩ := taken
        exact ⟨[], rest, rfl, rfl⟩
      · simp only [takeFirst, same, if_false, Option.map_eq_some_iff, Prod.exists,
          Prod.mk.injEq] at taken
        obtain ⟨_, tail, inner, rfl, rfl⟩ := taken
        obtain ⟨front, back, rfl, rfl⟩ := ih inner
        exact ⟨item :: front, back, rfl, rfl⟩

theorem takeFirst_lane {key : Item → Key} {wanted : Key} {queue remaining : List Item}
    {found : Item} (taken : takeFirst key wanted queue = some (found, remaining)) :
    key found = wanted ∧ lane key wanted queue = found :: lane key wanted remaining ∧
      ∀ other, other ≠ wanted → lane key other remaining = lane key other queue := by
  induction queue generalizing remaining with
  | nil => simp [takeFirst] at taken
  | cons item rest ih =>
      by_cases same : key item = wanted
      · simp only [takeFirst, same, if_true, Option.some.injEq, Prod.mk.injEq] at taken
        obtain ⟨rfl, rfl⟩ := taken
        refine ⟨same, lane_cons_same same _, ?_⟩
        intro other different
        rw [lane_cons_other]
        rw [same]
        exact different.symm
      · simp only [takeFirst, same, if_false, Option.map_eq_some_iff, Prod.exists,
          Prod.mk.injEq] at taken
        obtain ⟨_, tail, inner, rfl, rfl⟩ := taken
        obtain ⟨keyEq, laneEq, others⟩ := ih inner
        refine ⟨keyEq, ?_, ?_⟩
        · rw [lane_cons_other same, lane_cons_other same, laneEq]
        · intro other different
          by_cases here : key item = other
          · rw [lane_cons_same here, lane_cons_same here, others other different]
          · rw [lane_cons_other here, lane_cons_other here, others other different]

theorem takeFirst_isSome {key : Item → Key} {wanted : Key} {queue : List Item} {found : Item}
    {later : List Item} (laneEq : lane key wanted queue = found :: later) :
    ∃ remaining, takeFirst key wanted queue = some (found, remaining) := by
  cases taken : takeFirst key wanted queue with
  | none =>
      rw [takeFirst_eq_none.mp taken] at laneEq
      simp at laneEq
  | some result =>
      obtain ⟨other, remaining⟩ := result
      have facts := (takeFirst_lane taken).2.1
      rw [laneEq, List.cons.injEq] at facts
      exact ⟨remaining, by rw [facts.1]⟩

theorem takeFirst_map {Other : Type} (key : Item → Key) (transform : Other → Item) (wanted : Key)
    (queue : List Other) :
    takeFirst key wanted (queue.map transform) =
      (takeFirst (fun item => key (transform item)) wanted queue).map fun (found, remaining) =>
        (transform found, remaining.map transform) := by
  induction queue with
  | nil => rfl
  | cons item rest ih =>
      by_cases same : key (transform item) = wanted
      · simp [takeFirst, same]
      · simp [takeFirst, same, ih, Function.comp_def]

/-- The item at a position of a stream is found after as many items of its key as precede it. -/
theorem lane_getElem (key : Item → Key) {stream : List Item} {index : Nat} {item : Item}
    (found : stream[index]? = some item) :
    (lane key (key item) stream)[(lane key (key item) (stream.take index)).length]? =
      some item := by
  obtain ⟨bound, itemEq⟩ := List.getElem?_eq_some_iff.mp found
  have split : stream.take index ++ item :: stream.drop (index + 1) = stream := by
    rw [← itemEq, ← List.drop_eq_getElem_cons bound, List.take_append_drop]
  have laneEq : lane key (key item) stream = lane key (key item) (stream.take index) ++
      item :: lane key (key item) (stream.drop (index + 1)) := by
    conv_lhs => rw [← split]
    rw [lane_append, lane_cons_same rfl]
  rw [laneEq]
  simp

theorem lane_length_take_le (key : Item → Key) (wanted : Key) (stream : List Item)
    {few many : Nat} (le : few ≤ many) :
    (lane key wanted (stream.take few)).length ≤ (lane key wanted (stream.take many)).length := by
  apply List.Sublist.length_le
  exact (List.take_sublist_take_left le).filter _

theorem lane_position (key : Item → Key) {stream : List Item} {first second : Nat}
    {item other : Item} (found : stream[first]? = some item) (found' : stream[second]? = some other)
    (keys : key item = key other)
    (before : (lane key (key item) (stream.take first)).length =
      (lane key (key item) (stream.take second)).length) : first = second := by
  have counted : ∀ {place : Nat} {item : Item}, stream[place]? = some item →
      (lane key (key item) (stream.take (place + 1))).length =
        (lane key (key item) (stream.take place)).length + 1 := by
    intro place item found
    rw [List.take_add_one, found, Option.toList_some, lane_append, lane_cons_same rfl, lane_nil,
      List.length_append, List.length_singleton]
  rcases Nat.lt_trichotomy first second with less | same | less
  · have later := lane_length_take_le key (key item) stream (show first + 1 ≤ second from less)
    rw [counted found] at later
    omega
  · exact same
  · have later := lane_length_take_le key (key item) stream (show second + 1 ≤ first from less)
    rw [keys] at later before
    rw [counted found'] at later
    omega

theorem lane_map {Other : Type} (key : Item → Key) (transform : Other → Item) (wanted : Key)
    (queue : List Other) :
    lane key wanted (queue.map transform) =
      (lane (fun item => key (transform item)) wanted queue).map transform := by
  simp [lane, List.filter_map, Function.comp_def]

/-! Two streams that are planned stage by stage. Either both ends plan a stage alike, or the
first items of the stage have the same key and different sizes. -/

section Plans

variable {Stage : Type} (key : Item → Key) (size : Item → Size)

def Aligned (sent expected : List Item) : Prop :=
  sent = expected ∨ ∃ first others want wants, sent = first :: others ∧ expected = want :: wants ∧
    key first = key want ∧ size first ≠ size want

variable {key size}

omit [DecidableEq Key] in
/-- As long as the streams have agreed, the next item has the expected key, and it is the
expected item as soon as its size is right. -/
theorem next_agrees {stages : List Stage} {sent expected : Stage → List Item}
    (aligned : ∀ stage ∈ stages, Aligned key size (sent stage) (expected stage)) {index : Nat}
    (agreed : (stages.flatMap sent).take index = (stages.flatMap expected).take index)
    {want : Item} (wanted : (stages.flatMap expected)[index]? = some want) :
    ∃ got, (stages.flatMap sent)[index]? = some got ∧ key got = key want ∧
      (size got = size want → got = want) := by
  induction stages generalizing index with
  | nil => simp at wanted
  | cons stage stages ih =>
      rw [List.flatMap_cons, List.flatMap_cons] at agreed
      rw [List.flatMap_cons] at wanted ⊢
      rcases aligned stage (by simp) with same | ⟨first, others, want', wants, sentEq, expectedEq,
        keyEq, sizeNe⟩
      · rw [same] at agreed ⊢
        by_cases inside : index < (expected stage).length
        · rw [List.getElem?_append_left inside] at wanted ⊢
          exact ⟨want, wanted, rfl, fun _ => rfl⟩
        · have beyond : (expected stage).length ≤ index := by omega
          rw [List.getElem?_append_right beyond] at wanted ⊢
          rw [List.take_append, List.take_append] at agreed
          exact ih (fun next member => aligned next (by simp [member]))
            (List.append_cancel_left agreed) wanted
      · rw [sentEq, expectedEq] at agreed
        rw [expectedEq] at wanted
        cases index with
        | zero =>
            simp only [List.cons_append, List.getElem?_cons_zero, Option.some.injEq] at wanted
            subst wanted
            exact ⟨first, by simp [sentEq], keyEq, fun sizeEq => absurd sizeEq sizeNe⟩
        | succ index =>
            simp only [List.cons_append, List.take_succ_cons, List.cons.injEq] at agreed
            exact absurd (congrArg size agreed.1) sizeNe

omit [DecidableEq Key] in
theorem agreed_stages {stages : List Stage} {sent expected : Stage → List Item} {rest : List Item}
    (aligned : ∀ stage ∈ stages, Aligned key size (sent stage) (expected stage))
    (delivered : stages.flatMap expected <+: stages.flatMap sent ++ rest) :
    stages.flatMap expected = stages.flatMap sent := by
  induction stages with
  | nil => rfl
  | cons stage stages ih =>
      rw [List.flatMap_cons, List.flatMap_cons] at delivered ⊢
      rcases aligned stage (by simp) with same | ⟨first, others, want, wants, sentEq, expectedEq,
        -, sizeNe⟩
      · rw [same, List.append_assoc, List.prefix_append_right_inj] at delivered
        rw [same, ih (fun next member => aligned next (by simp [member])) delivered]
      · rw [sentEq, expectedEq, List.append_assoc, List.cons_append, List.cons_append,
          List.cons_prefix_cons] at delivered
        exact absurd (congrArg size delivered.1.symm) sizeNe

end Plans

end TagQueue
