import RingAllReduce.Library.Runs
import RingAllReduce.Library.Splits

/-!
`write_all` and `read_all`, which `verbs_transport.cpp` and `process_group_api.cpp` define alike.
A control socket is a reliable byte stream: `write` may take and `read` may deliver fewer bytes
than it was asked for, and a signal may interrupt either. An end that has met an error or the end
of the file moves no more bytes.
-/

namespace RingAllReduce.ControlStream

/-- What `write` and `read` return: a number of bytes, or -1 with `EINTR` or another `errno`. -/
inductive Answer where
  | count (bytes : Nat)
  | interrupted
  | failed
  deriving DecidableEq, Repr

/-- A call under way, on the memory it was given; `current` is how far its pointer has come. -/
structure Call where
  memory : List UInt8
  current : Nat
  bytes : Nat
  deriving DecidableEq, Repr

/-- One end of the stream makes one call after the other. -/
structure End where
  todo : List (List UInt8)
  call : Option Call
  returned : List (Bool × Call)
  lost : Bool
  deriving DecidableEq, Repr

/-- `entered` are all bytes that have entered the stream; the first `taken` have left it again. -/
structure World where
  writer : End
  reader : End
  entered : List UInt8
  taken : Nat
  deriving DecidableEq, Repr

def Call.enter (memory : List UInt8) : Call :=
  { memory := memory, current := 0, bytes := memory.length }

def End.leave (here : End) (call : Call) (result : Bool) : End :=
  { here with call := none, returned := here.returned ++ [(result, call)],
              lost := here.lost || !result }

/-- `current += count; bytes -= count`. -/
def End.advance (here : End) (call : Call) (memory : List UInt8) (count : Nat) : End :=
  { here with call := some { memory := memory, current := call.current + count,
                             bytes := call.bytes - count } }

/-- A step of either function, and the bytes it moves. `io` is the call of `write` or `read` in its
loop, which leaves the memory as it says. -/
def End.step (io : Call → Nat → Option (List UInt8 × List UInt8)) (answer : Answer) (here : End) :
    Option (End × List UInt8) :=
  match here.call with
  | none =>
      match here.todo with
      | [] => none
      | memory :: todo => some ({ here with todo := todo, call := some (Call.enter memory) }, [])
  | some call =>
      if call.bytes = 0 then some (here.leave call true, [])
      else
        match answer with
        | .interrupted => some (here, [])
        | .failed => some (here.leave call false, [])
        | .count count =>
            if count = 0 then some (here.leave call false, [])
            else if here.lost ∨ call.bytes < count then none
            else (io call count).map fun (memory, moved) => (here.advance call memory count, moved)

/-- A call of `write` that takes `count` bytes. -/
def write (call : Call) (count : Nat) : Option (List UInt8 × List UInt8) :=
  some (call.memory, (call.memory.drop call.current).take count)

/-- A call of `read` that delivers `count` bytes; it blocks until there are as many. -/
def read (unread : List UInt8) (call : Call) (count : Nat) : Option (List UInt8 × List UInt8) :=
  if unread.length < count then none
  else
    let received := unread.take count
    some (call.memory.take call.current ++ received ++ call.memory.drop (call.current + count),
      received)

def World.unread (world : World) : List UInt8 := world.entered.drop world.taken

def writeAll (answer : Answer) (world : World) : Option World :=
  (world.writer.step write answer).map fun (writer, written) =>
    { world with writer := writer, entered := world.entered ++ written }

def readAll (answer : Answer) (world : World) : Option World :=
  (world.reader.step (read world.unread) answer).map fun (reader, received) =>
    { world with reader := reader, taken := world.taken + received.length }

inductive Move where
  | write (answer : Answer)
  | read (answer : Answer)
  deriving DecidableEq, Repr

def act : Move → World → Option World
  | .write answer => writeAll answer
  | .read answer => readAll answer

def initialEnd (memories : List (List UInt8)) : End :=
  { todo := memories, call := none, returned := [], lost := false }

def initialWorld (messages buffers : List (List UInt8)) : World :=
  { writer := initialEnd messages, reader := initialEnd buffers, entered := [], taken := 0 }

def Reachable (messages buffers : List (List UInt8)) (world : World) : Prop :=
  Runs.Reachable (fun before after => ∃ move, act move before = some after)
    (initialWorld messages buffers) world

def Call.progress (call : Call) : List UInt8 := call.memory.take call.current

def End.moved (here : End) : List UInt8 :=
  here.returned.flatMap (fun entry => entry.2.progress) ++ here.call.toList.flatMap Call.progress

def End.memories (here : End) : List (List UInt8) :=
  here.returned.map (fun entry => entry.2.memory) ++ here.call.toList.map Call.memory ++ here.todo

section Ends

variable {io : Call → Nat → Option (List UInt8 × List UInt8)} {answer : Answer} {here after : End}
  {bytes : List UInt8}

inductive Turn (io : Call → Nat → Option (List UInt8 × List UInt8)) (here : End) :
    End → List UInt8 → Prop
  | enter {memory : List UInt8} {todo : List (List UInt8)} (idle : here.call = none)
      (next : here.todo = memory :: todo) :
      Turn io here { here with todo := todo, call := some (Call.enter memory) } []
  | again : Turn io here here []
  | leave {call : Call} {result : Bool} (running : here.call = some call)
      (isResult : result = true ↔ call.bytes = 0) : Turn io here (here.leave call result) []
  | advance {call : Call} {memory moved : List UInt8} {count : Nat}
      (running : here.call = some call) (connected : here.lost = false)
      (enough : count ≤ call.bytes) (done : io call count = some (memory, moved)) :
      Turn io here (here.advance call memory count) moved

theorem step_cases (step : here.step io answer = some (after, bytes)) : Turn io here after bytes := by
  unfold End.step at step
  split at step
  · rename_i idle
    split at step
    · simp at step
    · rename_i memory todo next
      simp only [Option.some.injEq, Prod.mk.injEq] at step
      obtain ⟨rfl, rfl⟩ := step
      exact .enter idle next
  · rename_i call running
    split at step
    · rename_i complete
      simp only [Option.some.injEq, Prod.mk.injEq] at step
      obtain ⟨rfl, rfl⟩ := step
      exact .leave running (by simp [complete])
    · rename_i incomplete
      have leaves : Turn io here (here.leave call false) [] := .leave running (by simp [incomplete])
      split at step
      · simp only [Option.some.injEq, Prod.mk.injEq] at step
        obtain ⟨rfl, rfl⟩ := step
        exact .again
      · simp only [Option.some.injEq, Prod.mk.injEq] at step
        obtain ⟨rfl, rfl⟩ := step
        exact leaves
      · rename_i count
        split at step
        · simp only [Option.some.injEq, Prod.mk.injEq] at step
          obtain ⟨rfl, rfl⟩ := step
          exact leaves
        · split at step
          · simp at step
          · rename_i allowed
            obtain ⟨⟨memory, moved⟩, done, eq⟩ := Option.map_eq_some_iff.mp step
            simp only [Prod.mk.injEq] at eq
            obtain ⟨rfl, rfl⟩ := eq
            simp only [not_or, Bool.not_eq_true, Nat.not_lt] at allowed
            exact .advance running allowed.1 allowed.2 done

/-- `write` and `read` move the next bytes of their memory and leave the others alone. -/
def Faithful (io : Call → Nat → Option (List UInt8 × List UInt8)) : Prop :=
  ∀ call count memory moved, call.current + count ≤ call.memory.length →
    io call count = some (memory, moved) → memory.length = call.memory.length ∧
      moved.length = count ∧ memory.take (call.current + count) = call.progress ++ moved

structure Tidy (here : End) : Prop where
  split : ∀ call, here.call = some call → call.current + call.bytes = call.memory.length
  results : ∀ entry ∈ here.returned, entry.2.current + entry.2.bytes = entry.2.memory.length ∧
    (entry.1 = true ↔ entry.2.bytes = 0)
  whole : here.lost = false → ∀ entry ∈ here.returned, entry.1 = true
  still : here.lost = true → ∀ call, here.call = some call → call.current = 0

theorem Tidy.turn (tidy : Tidy here) (faithful : Faithful io) (turn : Turn io here after bytes) :
    Tidy after := by
  cases turn with
  | enter idle next =>
      refine ⟨?_, tidy.results, tidy.whole, ?_⟩
      · intro call isCall
        obtain rfl := Option.some.inj isCall
        exact Nat.zero_add _
      · intro _ call isCall
        obtain rfl := Option.some.inj isCall
        rfl
  | again => exact tidy
  | leave running isResult =>
      rename_i call result
      have last := tidy.split call running
      refine ⟨by simp [End.leave], ?_, ?_, by simp [End.leave]⟩
      · simp only [End.leave, List.mem_append, List.mem_singleton]
        rintro entry (old | rfl)
        · exact tidy.results entry old
        · exact ⟨last, isResult⟩
      · simp only [End.leave, Bool.or_eq_false_iff, Bool.not_eq_false', List.mem_append,
          List.mem_singleton]
        rintro ⟨connected, succeeded⟩ entry (old | rfl)
        · exact tidy.whole connected entry old
        · exact succeeded
  | advance running connected enough done =>
      rename_i call memory count
      have before := tidy.split call running
      obtain ⟨length, -, -⟩ := faithful call count memory bytes (by omega) done
      refine ⟨?_, tidy.results, tidy.whole, ?_⟩
      · intro other isCall
        obtain rfl := Option.some.inj isCall
        simp only
        omega
      · intro lost
        simp [End.advance, connected] at lost

theorem Tidy.moved (tidy : Tidy here) (faithful : Faithful io) (turn : Turn io here after bytes) :
    after.moved = here.moved ++ bytes := by
  cases turn with
  | enter idle next => simp [End.moved, idle, Call.enter, Call.progress]
  | again => simp
  | leave running isResult => simp [End.moved, End.leave, running]
  | advance running connected enough done =>
      rename_i call memory count
      have before := tidy.split call running
      obtain ⟨-, -, progress⟩ := faithful call count memory bytes (by omega) done
      simp only [End.moved, End.advance, running, Option.toList_some, List.flatMap_cons,
        List.flatMap_nil, List.append_nil, List.append_assoc]
      rw [Call.progress, progress]

theorem Turn.memories {View : Type} (view : List UInt8 → View)
    (keeps : ∀ call, here.call = some call → ∀ count memory moved, count ≤ call.bytes →
      io call count = some (memory, moved) → view memory = view call.memory)
    (turn : Turn io here after bytes) : after.memories.map view = here.memories.map view := by
  cases turn with
  | enter idle next => simp [End.memories, idle, next, Call.enter]
  | again => rfl
  | leave running isResult => simp [End.memories, End.leave, running]
  | advance running connected enough done =>
      rename_i call memory count
      simp [End.memories, End.advance, running, keeps call running count memory bytes enough done]

/-- An end that has not been cut off has moved the whole memory of all calls that have returned. -/
theorem Tidy.moved_whole (tidy : Tidy here) (connected : here.lost = false) :
    here.moved = (here.returned.map fun entry => entry.2.memory).flatten ++
      here.call.toList.flatMap Call.progress := by
  rw [End.moved, List.flatMap_def]
  congr 2
  apply List.map_congr_left
  intro entry member
  obtain ⟨split, result⟩ := tidy.results entry member
  have complete := result.mp (tidy.whole connected entry member)
  rw [Call.progress, List.take_of_length_le (by omega)]

theorem Tidy.moved_prefix (tidy : Tidy here) (connected : here.lost = false) :
    here.moved <+: here.memories.flatten := by
  rw [tidy.moved_whole connected, End.memories, List.flatten_append, List.flatten_append,
    List.append_assoc]
  apply List.prefix_append_right_inj _ |>.mpr
  cases here.call with
  | none => simp
  | some call =>
      simp only [Option.toList_some, List.flatMap_cons, List.flatMap_nil, List.append_nil,
        List.map_cons, List.map_nil, List.flatten_cons, List.flatten_nil]
      exact (List.take_prefix _ _).trans (List.prefix_append _ _)

end Ends

theorem write_faithful : Faithful write := by
  intro call count memory moved fits done
  simp only [write, Option.some.injEq, Prod.mk.injEq] at done
  obtain ⟨rfl, rfl⟩ := done
  refine ⟨rfl, ?_, List.take_add⟩
  rw [List.length_take, List.length_drop]
  omega

theorem read_faithful (unread : List UInt8) : Faithful (read unread) := by
  intro call count memory moved fits done
  unfold read at done
  split at done
  · simp at done
  · rename_i available
    simp only [Option.some.injEq, Prod.mk.injEq] at done
    obtain ⟨rfl, rfl⟩ := done
    refine ⟨?_, ?_, ?_⟩
    · simp only [List.length_append, List.length_take, List.length_drop]
      omega
    · rw [List.length_take]
      omega
    · apply List.take_left'
      simp only [List.length_append, List.length_take]
      omega

theorem read_moved {unread memory moved : List UInt8} {call : Call} {count : Nat}
    (done : read unread call count = some (memory, moved)) : moved <+: unread := by
  unfold read at done
  split at done
  · simp at done
  · simp only [Option.some.injEq, Prod.mk.injEq] at done
    obtain ⟨-, rfl⟩ := done
    exact List.take_prefix _ _

section Runs

variable {messages buffers : List (List UInt8)} {world after : World}

structure Framed (messages : List (List UInt8)) (world : World) : Prop where
  writer : Tidy world.writer
  reader : Tidy world.reader
  sources : world.writer.memories = messages
  sizes : world.reader.memories.map List.length = messages.map List.length
  entered : world.entered = world.writer.moved
  ordered : world.entered <+: messages.flatten
  within : world.taken ≤ world.entered.length
  received : world.reader.moved = world.entered.take world.taken
  delivered : ∀ (index : Nat) call, world.reader.returned[index]? = some (true, call) →
    messages[index]? = some call.memory

theorem initial_framed (sizes : buffers.map List.length = messages.map List.length) :
    Framed messages (initialWorld messages buffers) := by
  have tidy : ∀ memories, Tidy (initialEnd memories) := fun memories =>
    ⟨by simp [initialEnd], by simp [initialEnd], by simp [initialEnd], by simp [initialEnd]⟩
  exact ⟨tidy messages, tidy buffers, rfl, sizes, rfl, by simp [initialWorld], Nat.le_refl _, rfl,
    by simp [initialWorld, initialEnd]⟩

theorem Framed.writes {answer : Answer} (framed : Framed messages world)
    (step : writeAll answer world = some after) : Framed messages after := by
  obtain ⟨⟨writer, written⟩, stepped, rfl⟩ := Option.map_eq_some_iff.mp step
  have turn := step_cases stepped
  have tidy := framed.writer.turn write_faithful turn
  have moved := framed.writer.moved write_faithful turn
  have sources : writer.memories = messages := by
    have kept := turn.memories id fun call _ count memory moved _ done => by
      simp only [write, Option.some.injEq, Prod.mk.injEq] at done
      exact done.1.symm
    rw [List.map_id, List.map_id] at kept
    exact kept.trans framed.sources
  have entered : world.entered ++ written = writer.moved := by rw [moved, framed.entered]
  refine ⟨tidy, framed.reader, sources, framed.sizes, entered, ?_, ?_, ?_, framed.delivered⟩
  · cases turn with
    | enter | again | leave =>
        simpa using framed.ordered
    | advance running connected enough done =>
        have whole := tidy.moved_prefix connected
        rwa [← entered, sources] at whole
  · have within := framed.within
    simp only [List.length_append]
    omega
  · rw [framed.received, List.take_append_of_le_length framed.within]

theorem Framed.returns (framed : Framed messages world) {call : Call}
    (running : world.reader.call = some call) (complete : call.bytes = 0) :
    messages[world.reader.returned.length]? = some call.memory := by
  have split := framed.reader.split call running
  -- the memory of all calls, this one in the middle
  have memories : world.reader.memories = world.reader.returned.map (fun entry => entry.2.memory) ++
      call.memory :: world.reader.todo := by
    simp [End.memories, running]
  have sizes := framed.sizes
  have lengths := congrArg List.length sizes
  simp only [memories, List.length_map, List.length_append, List.length_cons] at lengths
  have bound : world.reader.returned.length < messages.length := by omega
  have same : call.memory.length = messages[world.reader.returned.length].length := by
    have here := congrArg (fun list => list[world.reader.returned.length]?) sizes
    simpa [memories, bound] using here
  rw [List.getElem?_eq_getElem bound, Option.some.injEq]
  cases connected : world.reader.lost with
  | true =>
      have current := framed.reader.still connected call running
      have empty : call.memory = [] := List.eq_nil_of_length_eq_zero (by omega)
      rw [empty] at same ⊢
      exact List.eq_nil_of_length_eq_zero same.symm
  | false =>
      have earlier : world.reader.returned.map (fun entry => entry.2.memory) =
          messages.take world.reader.returned.length := by
        apply List.ext_getElem?
        intro index
        rw [List.getElem?_map, List.getElem?_take]
        by_cases inside : index < world.reader.returned.length
        · have isEntry := List.getElem?_eq_getElem inside
          have succeeded := framed.reader.whole connected _ (List.mem_of_getElem? isEntry)
          rw [if_pos inside, isEntry, Option.map_some]
          refine (framed.delivered index world.reader.returned[index].2 ?_).symm
          rw [isEntry, ← succeeded]
        · rw [if_neg inside, List.getElem?_eq_none (by omega), Option.map_none]
      have whole := framed.reader.moved_whole connected
      have progress : call.progress = call.memory := List.take_of_length_le (by omega)
      simp only [running, Option.toList_some, List.flatMap_cons, List.flatMap_nil, List.append_nil,
        earlier, progress] at whole
      have ordered : world.reader.moved <+: messages.flatten := by
        rw [framed.received]
        exact (List.take_prefix _ _).trans framed.ordered
      have all : messages.flatten = (messages.take world.reader.returned.length).flatten ++
          (messages[world.reader.returned.length] ++
            (messages.drop (world.reader.returned.length + 1)).flatten) := by
        rw [← List.flatten_cons, ← List.drop_eq_getElem_cons bound, ← List.flatten_append,
          List.take_append_drop]
      rw [whole, all, List.prefix_append_right_inj] at ordered
      have front := List.prefix_of_prefix_length_le ordered (List.prefix_append _ _) same.le
      exact (front.eq_of_length same).symm

theorem Framed.reads {answer : Answer} (framed : Framed messages world)
    (step : readAll answer world = some after) : Framed messages after := by
  obtain ⟨⟨reader, received⟩, stepped, rfl⟩ := Option.map_eq_some_iff.mp step
  have turn := step_cases stepped
  have tidy := framed.reader.turn (read_faithful _) turn
  have moved := framed.reader.moved (read_faithful _) turn
  have sizes : reader.memories.map List.length = messages.map List.length := by
    have kept := turn.memories List.length fun call running count memory moved enough done =>
      (read_faithful _ call count memory moved
        (by have split := framed.reader.split call running; omega) done).1
    exact kept.trans framed.sizes
  have next : received <+: world.unread := by
    cases turn with
    | enter | again | leave => exact List.nil_prefix
    | advance running connected enough done => exact read_moved done
  have within := framed.within
  have fits : world.taken + received.length ≤ world.entered.length := by
    have length := next.length_le
    rw [World.unread, List.length_drop] at length
    omega
  refine ⟨framed.writer, tidy, framed.sources, sizes, framed.entered, framed.ordered, fits, ?_, ?_⟩
  · rw [moved, framed.received, List.take_add]
    congr 1
    exact List.prefix_iff_eq_take.mp next
  · cases turn with
    | enter | again | advance => exact framed.delivered
    | leave running isResult =>
        rename_i call result
        intro index other found
        simp only [End.leave] at found
        rcases Splits.getElem?_snoc found with old | ⟨rfl, same⟩
        · exact framed.delivered index other old
        · simp only [Prod.mk.injEq] at same
          obtain ⟨rfl, rfl⟩ := same
          exact framed.returns running (isResult.mp rfl)

theorem Reachable.framed (reached : Reachable messages buffers world)
    (sizes : buffers.map List.length = messages.map List.length) : Framed messages world := by
  apply Runs.Reachable.invariant (Framed messages) reached (initial_framed sizes)
  rintro before after framed ⟨move, done⟩
  cases move with
  | write answer => exact framed.writes done
  | read answer => exact framed.reads done

/-- The bytes of a call of `write_all` stand in the stream behind those of the calls before it. -/
theorem Framed.written (framed : Framed messages world) {index : Nat} {call : Call}
    (found : world.writer.returned[index]? = some (true, call)) :
    messages[index]? = some call.memory ∧
      (world.writer.returned.take index).flatMap (fun entry => entry.2.progress) ++ call.memory <+:
        world.entered := by
  obtain ⟨bound, entry⟩ := List.getElem?_eq_some_iff.mp found
  obtain ⟨split, result⟩ := framed.writer.results _ (List.mem_of_getElem? found)
  have progress : call.progress = call.memory :=
    List.take_of_length_le (by have complete := result.mp rfl; simp only at split complete; omega)
  constructor
  · rw [← framed.sources, End.memories, List.append_assoc,
      List.getElem?_append_left (by simpa using bound), List.getElem?_map, found]
    rfl
  · have parts : world.writer.returned = world.writer.returned.take index ++
        (true, call) :: world.writer.returned.drop (index + 1) := by
      rw [← entry, List.getElem_cons_drop, List.take_append_drop]
    rw [framed.entered, End.moved]
    conv => rhs; rw [parts]
    simp only [List.flatMap_append, List.flatMap_cons, progress, List.append_assoc]
    exact ⟨_, by rw [List.append_assoc]⟩

theorem Framed.cut_off (framed : Framed messages world) {answer : Answer}
    (ended : answer = .failed ∨ answer = .count 0) :
    (∀ call, world.writer.call = some call → call.current < call.memory.length →
      writeAll answer world = some { world with writer := world.writer.leave call false }) ∧
    ∀ call, world.reader.call = some call → call.current < call.memory.length →
      readAll answer world = some { world with reader := world.reader.leave call false } := by
  constructor
  · intro call running incomplete
    have split := framed.writer.split call running
    have remaining : call.bytes ≠ 0 := by omega
    rcases ended with rfl | rfl <;>
      simp [writeAll, End.step, running, remaining]
  · intro call running incomplete
    have split := framed.reader.split call running
    have remaining : call.bytes ≠ 0 := by omega
    rcases ended with rfl | rfl <;>
      simp [readAll, End.step, running, remaining]

end Runs

/-- However the bytes are fragmented, a `read_all` that returns true has the message of its
`write_all`. -/
theorem framing_survives {messages buffers : List (List UInt8)} {world : World}
    (sizes : buffers.map List.length = messages.map List.length)
    (reached : Reachable messages buffers world) :
    (∀ (index : Nat) call, world.reader.returned[index]? = some (true, call) →
        messages[index]? = some call.memory) ∧
      (∀ (index : Nat) call, world.writer.returned[index]? = some (true, call) →
        messages[index]? = some call.memory ∧
          (world.writer.returned.take index).flatMap (fun entry => entry.2.progress) ++
            call.memory <+: world.entered) ∧
      world.entered = world.writer.moved ∧ world.entered <+: messages.flatten ∧
      world.reader.moved = world.entered.take world.taken ∧
      (∀ entry ∈ world.writer.returned ++ world.reader.returned,
        (entry.1 = true ↔ entry.2.current = entry.2.memory.length)) ∧
      ∀ answer, answer = .failed ∨ answer = .count 0 →
        (∀ call, world.writer.call = some call → call.current < call.memory.length →
          writeAll answer world = some { world with writer := world.writer.leave call false }) ∧
        ∀ call, world.reader.call = some call → call.current < call.memory.length →
          readAll answer world = some { world with reader := world.reader.leave call false } := by
  have framed := reached.framed sizes
  refine ⟨framed.delivered, fun index call => framed.written, framed.entered, framed.ordered,
    framed.received, ?_, fun answer => framed.cut_off⟩
  intro entry member
  have results : entry.2.current + entry.2.bytes = entry.2.memory.length ∧
      (entry.1 = true ↔ entry.2.bytes = 0) := by
    rcases List.mem_append.mp member with written | read
    · exact framed.writer.results entry written
    · exact framed.reader.results entry read
  rw [results.2]
  omega

/-- A record of three bytes and one of a single byte, in pieces and interrupted. -/
def fragments : List Move :=
  [.write .interrupted, .write (.count 2), .read .interrupted, .read .interrupted,
    .read (.count 1), .write .interrupted, .write (.count 1), .write .failed,
    .write .interrupted, .write (.count 1), .read (.count 2), .read .failed, .read .interrupted,
    .read (.count 1), .read .failed]

theorem framing_survives_fragments :
    ∃ world, Reachable [[1, 2, 3], [4]] [[0, 0, 0], [9]] world ∧
      world.reader.returned.map Prod.fst = [true, true] ∧
      ∀ (index : Nat) call, world.reader.returned[index]? = some (true, call) →
        [[1, 2, 3], [4]][index]? = some call.memory := by
  have followed : (Runs.follow act fragments
      (initialWorld [[1, 2, 3], [4]] [[0, 0, 0], [9]])).isSome = true := by decide
  obtain ⟨world, run⟩ := Option.isSome_iff_exists.mp followed
  have reached : Reachable [[1, 2, 3], [4]] [[0, 0, 0], [9]] world :=
    Runs.reachable_of_follow (fun move _ _ done => ⟨move, done⟩) run
  have result : (Runs.follow act fragments (initialWorld [[1, 2, 3], [4]] [[0, 0, 0], [9]])).map
      (fun world => world.reader.returned.map Prod.fst) = some [true, true] := by decide
  rw [run] at result
  have sizes : ([[0, 0, 0], [9]] : List (List UInt8)).map List.length =
      ([[1, 2, 3], [4]] : List (List UInt8)).map List.length := rfl
  exact ⟨world, reached, Option.some.inj result, (framing_survives sizes reached).1⟩

end RingAllReduce.ControlStream
