import RingAllReduce.Agreement

/-!
Memory under a transport that moves data on its own: it reads the source of a send while the send
is open, part by part, and writes the parts into the matching receive while that is open. Since no
rank touches what it has handed over, the parts that have landed make up the payload.
-/

namespace RingAllReduce

open Exchange Rotation

variable {Value Part Net Request : Type} {setup : Setup Value} {rank : Nat}
  {state : RankState Request}

/-- The parts of an element that a transport moves one by one, such as its bytes. -/
structure Parts (Value Part : Type) where
  width : Nat
  get : Value → Nat → Part
  set : Value → Nat → Part → Value
  get_set : ∀ value part content other, part < width → other < width →
    get (set value part content) other = if other = part then content else get value other
  ext : ∀ first second, (∀ part < width, get first part = get second part) → first = second

def Parts.whole (Value : Type) : Parts Value Value where
  width := 1
  get := fun value _ => value
  set := fun _ _ content => content
  get_set := fun value part content other partBound otherBound => by
    rw [if_pos (show other = part by omega)]
  ext := fun first second same => same 0 (by decide)

def Memory.writePart (parts : Parts Value Part) (memory : Memory Value) (buffer : Buffer)
    (position part : Nat) (content : Part) : Memory Value := fun target index =>
  if target = buffer ∧ index = position then parts.set (memory target index) part content
  else memory target index

theorem Memory.writePart_other (parts : Parts Value Part) (memory : Memory Value)
    {buffer target : Buffer} {position index : Nat} (part : Nat) (content : Part)
    (apart : ¬ (target = buffer ∧ index = position)) :
    memory.writePart parts buffer position part content target index = memory target index := by
  rw [Memory.writePart, if_neg apart]

/-- The sources of the open sends still hold what is to be sent. -/
def HoldsSends (setup : Setup Value) (rank : Nat) (state : RankState Request) : Prop :=
  ∀ post ∈ openSends (events state.log),
    (expectedMemory setup rank (setup.memory rank) state.log).load post.buffer post.start
      post.elementCount = setup.payload post.toPiece

theorem expectedStep_unwritten {instr : Instr} (noEvent : instr.event = none)
    {memory : Memory Value} {buffer : Buffer} {index : Nat}
    (unwritten : ¬ instr.writes buffer index) :
    expectedStep setup rank memory instr buffer index = memory buffer index := by
  cases performed : performLocal setup rank memory instr with
  | error status =>
      cases instr <;> simp_all [expectedStep, Instr.event]
  | ok memory' =>
      have kept := performLocal_unwritten performed unwritten
      cases instr <;> simp_all [expectedStep, Instr.event]

theorem HoldsSends.local_step (holds : HoldsSends setup rank state)
    (onSchedule : OnSchedule setup rank state) (bound : rank < setup.worldSize) {instr : Instr}
    {rest : List Instr} (todo : state.todo = instr :: rest) (noEvent : instr.event = none)
    (vars : Variables Request) : HoldsSends setup rank (state.advance vars instr rest) := by
  intro post member
  have free := onSchedule.raceFree bound todo
  simp only [RankState.advance, events_append, events_cons, noEvent, Option.toList_none, events_nil,
    List.append_nil] at member
  simp only [RankState.advance, expectedMemory_append, expectedMemory_cons, expectedMemory_nil]
  rw [← holds post member]
  apply Memory.load_congr
  intro index inside
  exact expectedStep_unwritten noEvent (free.sends post member _ _ ⟨rfl, by omega, by omega⟩)

theorem HoldsSends.rank_step {transport : Transport Value Net Request}
    {before after : World Value Net Request} (holds : HoldsSends setup rank (before.rank rank))
    (onSchedule : OnSchedule setup rank (before.rank rank)) (bound : rank < setup.worldSize)
    (taken : RankStep setup transport rank before after) :
    HoldsSends setup rank (after.rank rank) := by
  cases taken with
  | enter call idle succeeded next => rwa [World.put_rank_same]
  | busy instr rest net memory todo outcome => rwa [World.put_rank_same]
  | stop instr rest net memory status todo outcome =>
      rw [World.put_rank_same]
      unfold HoldsSends RankState.leave
      simp only
      split
      · rename_i success
        rw [success] at outcome
        rw [perform_stop_success outcome]
        simpa [HoldsSends, Instr.event, expectedStep, performLocal] using holds
      · exact holds
  | next instr rest net memory vars todo outcome =>
      rw [World.put_rank_same]
      cases event : instr.event with
      | none => exact holds.local_step onSchedule bound todo event vars
      | some _ =>
          unfold HoldsSends RankState.advance
          simp only [events_append, events_cons, event, Option.toList_some, events_nil,
            expectedMemory_append, expectedMemory_cons, expectedMemory_nil]
          cases instr with
          | postRecv post =>
              obtain rfl := Option.some.inj event
              simpa [HoldsSends, expectedStep, performLocal] using holds
          | postSend post =>
              obtain rfl := Option.some.inj event
              rw [List.append_nil, onSchedule.postSend_new bound todo]
              intro other member
              rcases List.mem_append.mp member with old | new
              · exact holds other old
              · rw [List.mem_singleton.mp new]
                exact onSchedule.payload bound todo
          | waitSend post =>
              obtain rfl := Option.some.inj event
              obtain ⟨later, opensEq, afterEq, -⟩ := onSchedule.waitSend_oldest bound todo
              rw [List.append_nil, afterEq]
              intro other member
              exact holds other (by rw [opensEq]; simp [member])
          | waitRecv post =>
              obtain rfl := Option.some.inj event
              obtain ⟨later, opensEq, -⟩ := onSchedule.waitRecv_oldest bound todo
              have apart := open_apart bound (onSchedule.events_log bound)
              rw [List.append_nil, openSends_snoc_waitRecv]
              intro other member
              rw [← holds other member]
              apply Memory.load_congr
              intro index inside
              apply Memory.store_outside
              rw [onSchedule.payload_length bound todo]
              by_contra covered
              simp only [not_or, not_not, not_lt, not_le] at covered
              exact apart.separate post (by rw [opensEq]; simp) other member other.buffer
                (other.start + index) ⟨covered.1, by omega, by omega⟩ ⟨rfl, by omega, by omega⟩
          | _ => simp [Instr.event] at event

theorem holdsSends_of_reachable {transport : Transport Value Net Request} {net : Net}
    {world : World Value Net Request} (reachable : Reachable setup transport net world) :
    ∀ rank < setup.worldSize, HoldsSends setup rank (world.rank rank) := by
  apply Runs.Reachable.strengthen
    (fun world => ∀ rank < setup.worldSize, HoldsSends setup rank (world.rank rank)) reachable
  · intro rank _ post member
    simp [initialWorld, initialRank, openSends] at member
  · intro before after earlier holds step rank bound
    cases step with
    | background done => exact holds rank bound
    | rank mover moverBound stepped =>
        have taken := rankStep_cases stepped
        by_cases same : rank = mover
        · subst same
          exact (holds rank bound).rank_step (onSchedule_of_reachable earlier rank) bound taken
        · have kept : after.rank rank = before.rank rank := by
            cases taken <;> exact World.put_rank_other _ _ _ _ _ same
          rw [kept]
          exact holds rank bound

theorem HoldsSends.read (holds : HoldsSends setup rank state)
    (onSchedule : OnSchedule setup rank state) (bound : rank < setup.worldSize)
    {memory : Memory Value}
    (agree : AgreeOutside (openRecvs (events state.log)) memory
      (expectedMemory setup rank (setup.memory rank) state.log))
    {post : Post} (member : post ∈ openSends (events state.log)) {index : Nat}
    (inside : index < post.elementCount) :
    (setup.payload post.toPiece)[index]? = some (memory post.buffer (post.start + index)) := by
  have apart := open_apart bound (onSchedule.events_log bound)
  rw [← holds post member, Memory.load_getElem?, if_pos inside, agree]
  intro request requestIn covers
  exact apart.separate request requestIn post member _ _ covers ⟨rfl, by omega, by omega⟩

/-- The memory of a rank and the parts that have landed in its open receives. -/
structure Landing (parts : Parts Value Part) (setup : Setup Value) (rank : Nat)
    (state : RankState Request) (memory : Memory Value) (landed : Post → Nat → Nat → Prop) :
    Prop where
  agree : AgreeOutside (openRecvs (events state.log)) memory
    (expectedMemory setup rank (setup.memory rank) state.log)
  content : ∀ post ∈ openRecvs (events state.log), ∀ index < post.elementCount,
    ∀ part < parts.width, landed post index part → ∀ value,
      (setup.payload post.toPiece)[index]? = some value →
        parts.get (memory post.buffer (post.start + index)) part = parts.get value part

/-- Whether an operation of a transport leaves the memory alone. -/
def Outcome.keeps {Answer : Type} (memory : Memory Value) :
    Outcome (Net × Memory Value) Answer → Prop
  | .blocked => True
  | .busy state => state.2 = memory
  | .done state _ => state.2 = memory

structure Transport.KeepsMemory (transport : Transport Value Net Request) : Prop where
  postRecv : ∀ rank post net memory, (transport.postRecv rank post net memory).keeps memory
  postSend : ∀ rank post net memory, (transport.postSend rank post net memory).keeps memory
  wait : ∀ rank request net memory, (transport.wait rank request net memory).keeps memory

theorem Outcome.keeps_map {Answer Result : Type} {memory : Memory Value}
    {outcome : Outcome (Net × Memory Value) Answer} (keeps : outcome.keeps memory)
    (convert : Answer → Result) : (outcome.map convert).keeps memory := by
  cases outcome <;> exact keeps

theorem perform_keeps {transport : Transport Value Net Request} (keeps : transport.KeepsMemory)
    {vars : Variables Request} {net : Net} {memory : Memory Value} {instr : Instr}
    {event : Event Post} (isEvent : instr.event = some event) :
    (perform setup transport rank vars net memory instr).keeps memory := by
  cases instr with
  | postRecv post => exact Outcome.keeps_map (keeps.postRecv rank post net memory) _
  | postSend post => exact Outcome.keeps_map (keeps.postSend rank post net memory) _
  | waitRecv post | waitSend post =>
      simp only [perform]
      split
      · rfl
      · rename_i request found
        exact Outcome.keeps_map (keeps.wait rank request net memory) _
  | _ => simp [Instr.event] at isEvent

section Step

variable {parts : Parts Value Part} {memory : Memory Value} {landed landed' : Post → Nat → Nat → Prop}

theorem Landing.local_step (landing : Landing parts setup rank state memory landed)
    (onSchedule : OnSchedule setup rank state) (bound : rank < setup.worldSize) {instr : Instr}
    {rest : List Instr} (todo : state.todo = instr :: rest) (noEvent : instr.event = none)
    {memory' : Memory Value} (performed : performLocal setup rank memory instr = .ok memory')
    (vars : Variables Request) :
    Landing parts setup rank (state.advance vars instr rest) memory' landed := by
  have free := onSchedule.raceFree bound todo
  have eventsEq : events (state.advance vars instr rest).log = events state.log := by
    simp [RankState.advance, noEvent]
  constructor
  · rw [eventsEq]
    simpa [RankState.advance] using landing.agree.performLocal free noEvent performed
  · rw [eventsEq]
    intro post member index inside part partBound isLanded value found
    rw [performLocal_unwritten performed
      (free.recvs post member _ _ ⟨rfl, by omega, by omega⟩).2]
    exact landing.content post member index inside part partBound isLanded value found

theorem Landing.waitRecv_step (landing : Landing parts setup rank state memory landed)
    (onSchedule : OnSchedule setup rank state) (bound : rank < setup.worldSize) {post : Post}
    {rest : List Instr} (todo : state.todo = .waitRecv post :: rest)
    (arrived : ∀ index < post.elementCount, ∀ part < parts.width, landed post index part)
    (vars : Variables Request) :
    Landing parts setup rank (state.advance vars (.waitRecv post) rest) memory landed := by
  obtain ⟨later, opensEq, afterEq, -⟩ := onSchedule.waitRecv_oldest bound todo
  have length := onSchedule.payload_length bound todo
  have opens : openRecvs (events (state.advance vars (.waitRecv post) rest).log) = later := by
    simpa [RankState.advance, Instr.event] using afterEq
  constructor
  · rw [opens]
    intro buffer index outside
    simp only [RankState.advance, expectedMemory_append, expectedMemory_cons, expectedMemory_nil,
      expectedStep]
    by_cases mine : post.covers buffer index
    · obtain ⟨rfl, lower, upper⟩ := mine
      have value : (setup.payload post.toPiece)[index - post.start]? =
          some (setup.payload post.toPiece)[index - post.start] :=
        List.getElem?_eq_getElem (by omega)
      have stored := Memory.store_inside (expectedMemory setup rank (setup.memory rank) state.log)
        post.buffer post.start _ value
      rw [show post.start + (index - post.start) = index by omega] at stored
      rw [stored]
      apply parts.ext
      intro part partBound
      have content := landing.content post (by rw [opensEq]; simp) (index - post.start) (by omega)
        part partBound (arrived _ (by omega) part partBound) _ value
      rwa [show post.start + (index - post.start) = index by omega] at content
    · rw [Memory.store_outside]
      · apply landing.agree
        intro other member
        rw [opensEq, List.mem_cons] at member
        rcases member with rfl | inLater
        · exact mine
        · exact outside other inLater
      · by_contra inside
        simp only [not_or, not_not, not_lt, not_le, length] at inside
        exact mine ⟨inside.1, inside.2.1, by omega⟩
  · intro other member
    rw [opens] at member
    exact landing.content other (by rw [opensEq]; simp [member])

theorem Landing.weaken (landing : Landing parts setup rank state memory landed)
    (fewer : ∀ post ∈ openRecvs (events state.log), ∀ index part, landed' post index part →
      landed post index part) : Landing parts setup rank state memory landed' :=
  ⟨landing.agree, fun post member index inside part partBound isLanded =>
    landing.content post member index inside part partBound
      (fewer post member index part isLanded)⟩

theorem Landing.deliver (landing : Landing parts setup rank state memory landed)
    (onSchedule : OnSchedule setup rank state) (bound : rank < setup.worldSize) {post : Post}
    (member : post ∈ openRecvs (events state.log)) {index part : Nat}
    (inside : index < post.elementCount) (partBound : part < parts.width) {value : Value}
    (found : (setup.payload post.toPiece)[index]? = some value)
    (isLanded : ∀ other index' part', landed' other index' part' → landed other index' part' ∨
      other = post ∧ index' = index ∧ part' = part) :
    Landing parts setup rank state (memory.writePart parts post.buffer (post.start + index) part
      (parts.get value part)) landed' := by
  have apart := open_apart bound (onSchedule.events_log bound)
  constructor
  · intro buffer position outside
    rw [Memory.writePart_other]
    · exact landing.agree buffer position outside
    · rintro ⟨rfl, rfl⟩
      exact outside post member ⟨rfl, by omega, by omega⟩
  · intro other otherIn index' inside' part' partBound' otherLanded value' found'
    by_cases same : other.buffer = post.buffer ∧ other.start + index' = post.start + index
    · have equal := apart.unique other otherIn post member other.buffer (other.start + index')
        ⟨rfl, by omega, by omega⟩ ⟨same.1, by omega, by omega⟩
      subst equal
      obtain rfl : index' = index := by omega
      rw [found] at found'
      obtain rfl := Option.some.inj found'
      rw [Memory.writePart, if_pos ⟨rfl, rfl⟩, parts.get_set _ _ _ _ partBound partBound']
      split
      · rename_i samePart
        rw [samePart]
      · rename_i otherPart
        rcases isLanded other index' part' otherLanded with earlier | ⟨-, -, again⟩
        · exact landing.content other otherIn index' inside' part' partBound' earlier value found
        · exact absurd again otherPart
    · rw [Memory.writePart_other _ _ _ _ same]
      rcases isLanded other index' part' otherLanded with earlier | ⟨rfl, rfl, -⟩
      · exact landing.content other otherIn index' inside' part' partBound' earlier value' found'
      · exact absurd ⟨rfl, rfl⟩ same

/-- The steps of a rank over a transport that leaves the memory to its own background steps. -/
theorem Landing.rank_step {transport : Transport Value Net Request} (keeps : transport.KeepsMemory)
    {before after : World Value Net Request}
    (landing : Landing parts setup rank (before.rank rank) (before.memory rank) landed)
    (onSchedule : OnSchedule setup rank (before.rank rank)) (bound : rank < setup.worldSize)
    (taken : RankStep setup transport rank before after)
    (fresh : ∀ post rest, (before.rank rank).todo = .postRecv post :: rest → ∀ index part,
      ¬ landed post index part)
    (arrived : ∀ post rest net vars, (before.rank rank).todo = .waitRecv post :: rest →
      perform setup transport rank (before.rank rank).vars before.net (before.memory rank)
        (.waitRecv post) = .done (net, before.memory rank) (.next vars) →
      ∀ index < post.elementCount, ∀ part < parts.width, landed post index part) :
    Landing parts setup rank (after.rank rank) (after.memory rank) landed := by
  have kept : ∀ {instr : Instr} {event : Event Post} {net : Net} {memory : Memory Value},
      instr.event = some event →
        (perform setup transport rank (before.rank rank).vars before.net (before.memory rank) instr =
            .busy (net, memory) ∨ ∃ verdict, perform setup transport rank (before.rank rank).vars
              before.net (before.memory rank) instr = .done (net, memory) verdict) →
          memory = before.memory rank := by
    intro instr event net memory isEvent outcome
    have same : (perform setup transport rank (before.rank rank).vars before.net
      (before.memory rank) instr).keeps (before.memory rank) := perform_keeps keeps isEvent
    rcases outcome with outcome | ⟨verdict, outcome⟩
    · rwa [outcome] at same
    · rwa [outcome] at same
  cases taken with
  | enter call idle succeeded next =>
      rw [World.put_rank_same, World.put_memory_same]
      exact ⟨landing.agree, landing.content⟩
  | busy instr rest net memory todo outcome =>
      rw [World.put_rank_same, World.put_memory_same]
      cases event : instr.event with
      | none => exact absurd outcome (perform_local_busy event).1
      | some _ =>
          rw [kept event (Or.inl outcome)]
          exact landing
  | stop instr rest net memory status todo outcome =>
      rw [World.put_rank_same, World.put_memory_same]
      cases event : instr.event with
      | none =>
          have expected := leave_expected outcome
          obtain ⟨-, rfl⟩ := perform_local_stop event outcome
          have eventsEq := leave_log (before.rank rank) status event
          exact ⟨by rw [eventsEq, expected]; exact landing.agree,
            by rw [eventsEq]; exact landing.content⟩
      | some _ =>
          rw [kept event (Or.inr ⟨_, outcome⟩)]
          have failed : status ≠ .success := by
            rintro rfl
            rw [perform_stop_success outcome] at event
            simp [Instr.event] at event
          rw [RankState.leave, if_neg failed]
          exact ⟨landing.agree, landing.content⟩
  | next instr rest net memory vars todo outcome =>
      rw [World.put_rank_same, World.put_memory_same]
      cases event : instr.event with
      | none =>
          obtain ⟨-, -, performed⟩ := perform_local_next event outcome
          exact landing.local_step onSchedule bound todo event performed vars
      | some _ =>
          obtain rfl := kept event (Or.inr ⟨_, outcome⟩)
          cases instr with
          | waitRecv post =>
              exact landing.waitRecv_step onSchedule bound todo
                (arrived post rest net vars todo outcome) vars
          | postRecv post =>
              have snoc : openRecvs (events ((before.rank rank).advance vars (.postRecv post)
                  rest).log) = openRecvs (events (before.rank rank).log) ++ [post] := by
                simpa [RankState.advance, Instr.event] using (onSchedule.postRecv_new bound todo).1
              constructor
              · rw [snoc]
                intro buffer index outside
                have agree := landing.agree buffer index fun request member =>
                  outside request (List.mem_append_left _ member)
                simpa [RankState.advance, expectedStep, performLocal] using agree
              · rw [snoc]
                intro other member index inside part partBound isLanded
                rcases List.mem_append.mp member with old | new
                · exact landing.content other old index inside part partBound isLanded
                · rw [List.mem_singleton.mp new] at isLanded
                  exact absurd isLanded (fresh post rest todo index part)
          | postSend post | waitSend post =>
              have opens : ∀ instr, instr = .postSend post ∨ instr = .waitSend post →
                  openRecvs (events ((before.rank rank).advance vars instr rest).log) =
                    openRecvs (events (before.rank rank).log) := by
                rintro instr (rfl | rfl) <;> simp [RankState.advance, Instr.event]
              refine ⟨?_, by rw [opens _ (by simp)]; exact landing.content⟩
              rw [opens _ (by simp)]
              simpa [RankState.advance, expectedStep, performLocal] using landing.agree
          | _ => simp [Instr.event] at event

end Step

end RingAllReduce
