import RingAllReduce.EndpointRefinement
import RingAllReduce.Library.Lockstep

/-! The collectives over a ring of `VerbsTransport`s: they end, they leave what they are for in the
buffers, and nothing of them is left in an endpoint. -/

namespace RingAllReduce.EndpointRing

open Exchange Rotation VerbsTransport
open VerbsRing (Handle Uniform Wide AllShallow VerbsWorld VerbsReachable verbsTransport idleFabric
  handles)

variable {Value : Type} {setup : Setup Value} {platform : Platform} {room : Nat → Bool}
  {sockets : Nat → Nat × Nat} {rank : Nat} {world : EndpointWorld Value} {mirror : VerbsWorld Value}

theorem twin_start (platform : Platform) (sockets : Nat → Nat × Nat) (setup : Setup Value) :
    Twin platform setup.worldSize (initialWorld setup (connected sockets))
      (initialWorld setup idleFabric) := by
  constructor
  case ranks => exact fun rank => ⟨rfl, rfl, rfl, rfl, rfl, fun slot => .none⟩
  case memory => rfl
  case books =>
    intro rank
    have none : ∀ {Known : Type}, table (fun _ : Nat => (none : Option Known)) (fun _ => none) =
        fun _ => none := by
      intro Known
      funext ⟨kind, place⟩
      cases kind <;> rfl
    have unused := books_unused (sockets rank).1 (sockets rank).2
    have stateOf : idleFabric.stateOf rank = fun _ => .none := (stateOf_eq idleFabric rank).trans none
    have entry : (connected sockets).entry rank = fun _ => .none := none
    have waits : waits (initialRank : RankState VerbsRing.Handle).log = fun _ => 0 := by
      funext kind
      cases kind <;> rfl
    have unpolled : unpolled idleFabric rank = fun _ => 0 := by
      funext kind
      cases kind <;> rfl
    simp only [initialWorld, stateOf, entry, waits, unpolled]
    exact unused
  case shown =>
    exact ⟨fun _ => .nil, fun _ => .nil, fun _ => .nil, fun sender bound => ⟨.nil, by
      simp [initialWorld, connected]⟩⟩

theorem mem_drop_handles (kind : RequestKind) (count first : Nat) (handle : Handle) :
    handle ∈ (handles kind count).drop first ↔
      handle.1 = kind ∧ first ≤ handle.2 ∧ handle.2 < count := by
  obtain ⟨other, place⟩ := handle
  simp only [handles, List.range_eq_range', ← List.map_drop, List.drop_range', List.mem_map,
    List.mem_range'_1, Prod.mk.injEq]
  constructor
  · rintro ⟨index, inside, rfl, rfl⟩
    exact ⟨rfl, by omega, by omega⟩
  · rintro ⟨rfl, le, less⟩
    exact ⟨place, by omega, rfl, rfl⟩

theorem handles_nodup (kind : RequestKind) (count : Nat) : (handles kind count).Nodup :=
  List.nodup_range.map fun _ _ same => (Prod.mk.inj same).2

theorem Alongside.returned {entry : Handle → Option WorkRequest} {state : RankState PgRequest}
    {other : RankState Handle} (alongside : Alongside entry state other) {call : Nat}
    {status : Status} (returned : state.Returned call status) : other.Returned call status :=
  ⟨alongside.todo.symm.trans returned.idle, alongside.results ▸ returned.last,
    alongside.results ▸ returned.status⟩

theorem Twin.pending_length (twin : Twin platform setup.worldSize world mirror)
    (reached : VerbsReachable (fun _ => true) setup mirror) (bound : rank < setup.worldSize) :
    (world.net.endpoints rank).pendingRequests.length =
      (openRecvs (events (world.rank rank).log)).length +
        (openSends (events (world.rank rank).log)).length := by
  have kept := VerbsRing.allKept_of_reachable reached rank bound
  have lengths := twin.shown.lengths rank
  let unwaited := (handles .receive (world.net.recvs rank).length).drop
      (waits (mirror.rank rank).log .receive) ++
    (handles .send (world.net.sends rank).length).drop (waits (mirror.rank rank).log .send)
  have nodup : unwaited.Nodup := by
    refine (((handles_nodup _ _).sublist (List.drop_sublist _ _)).append
      ((handles_nodup _ _).sublist (List.drop_sublist _ _))) ?_
    intro handle isRecv isSend
    have recv := ((mem_drop_handles _ _ _ _).mp isRecv).1
    have send := ((mem_drop_handles _ _ _ _).mp isSend).1
    simp [recv] at send
  have all : ∀ handle, handle ∈ unwaited ↔ (world.net.entry rank handle).isSome ∧
      waits (mirror.rank rank).log handle.1 ≤ handle.2 := by
    rintro ⟨kind, place⟩
    simp only [unwaited, List.mem_append, mem_drop_handles]
    cases kind with
    | send => simp [Ring.entry, table, column, and_comm]
    | receive => simp [Ring.entry, table, column, and_comm]
  rw [(twin.books rank).pending_length nodup all, (twin.ranks rank).log]
  have recvPosted := kept.slotted.recvLength
  have sendPosted := kept.slotted.sendLength
  simp only [handles, List.length_map, List.length_range] at recvPosted sendPosted
  simp only [unwaited, handles, waits, openRecvs, openSends, List.length_append, List.length_drop,
    List.length_map, List.length_range, lengths.1, lengths.2, recvPosted, sendPosted]

section Steps

variable (uniform : Uniform setup) (wide : Wide room) (shallow : AllShallow setup)

include uniform wide shallow

/-- The queues of the endpoints have room for what the ranks post. -/
theorem rankSteps (reached : VerbsReachable (fun _ => true) setup mirror)
    (twin : Twin platform setup.worldSize world mirror) (bound : rank < setup.worldSize) :
    Option.Rel (Twin platform setup.worldSize)
      (rankStep setup (endpointTransport Value platform room setup.worldSize) rank world)
      (rankStep setup (verbsTransport Value (fun _ => true) setup.worldSize) rank mirror) := by
  have inv := VerbsRing.verbsInvariant_of_reachable uniform (fun _ _ _ _ => ⟨rfl, rfl⟩) reached
  have kept := VerbsRing.allKept_of_reachable reached rank bound
  have begun : VerbsRing.Shallow setup rank (mirror.rank rank) := fun call inside args found =>
    shallow rank bound args (List.mem_of_getElem? found)
  apply twin.rankStep inv uniform (onSchedule_of_reachable reached) bound
  · intro post rest todo
    have few := VerbsRing.open_lt_postRecv reached bound begun todo
    exact wide _ (lt_of_le_of_lt kept.unpolled_le.1 few)
  · intro post rest todo
    have few := VerbsRing.open_lt_postSend reached bound begun todo
    exact wide _ (lt_of_le_of_lt kept.unpolled_le.2 few)

/-- Step by step, the ring of endpoints does what the ring of Verbs queues does. -/
theorem endpoints_lockstep : Runs.Lockstep
    (Step setup (endpointTransport Value platform room setup.worldSize))
    (Step setup (verbsTransport Value (fun _ => true) setup.worldSize))
    (initialWorld setup idleFabric) (Twin platform setup.worldSize) := by
  constructor
  case forward =>
    intro before after mirror reached twin step
    cases step with
    | rank rank bound taken =>
        have agrees := @rankSteps _ _ platform _ rank _ _ uniform wide shallow reached twin bound
        rw [taken] at agrees
        generalize moved : rankStep setup (verbsTransport Value (fun _ => true) setup.worldSize) rank
          mirror = there at agrees
        cases agrees with
        | some twin => exact ⟨_, .rank rank bound moved, twin⟩
    | @background ring memory done =>
        have sound :=
          (VerbsRing.verbsInvariant_of_reachable uniform (fun _ _ _ _ => ⟨rfl, rfl⟩) reached).sound
        have done : DeviceStep platform setup.worldSize before.net before.memory ring memory := done
        rw [twin.memory] at done
        obtain ⟨fabric, moved, shown, endpoints, tables⟩ := twin.shown.device sound done
        refine ⟨_, .background moved, fun rank => ?_, rfl, fun rank => ?_, shown⟩
        · rw [(tables rank).1]
          exact twin.ranks rank
        · rw [endpoints, (tables rank).1, (tables rank).2.1, (tables rank).2.2]
          exact twin.books rank
  case enabled =>
    intro state mirror mirror' reached twin step
    cases step with
    | rank rank bound taken =>
        have agrees := @rankSteps _ _ platform _ rank _ _ uniform wide shallow reached twin bound
        rw [taken] at agrees
        generalize moved : rankStep setup (endpointTransport Value platform room setup.worldSize) rank
          state = here at agrees
        cases agrees with
        | some twin => exact ⟨_, .rank rank bound moved⟩
    | @background fabric memory done =>
        have sound :=
          (VerbsRing.verbsInvariant_of_reachable uniform (fun _ _ _ _ => ⟨rfl, rfl⟩) reached).sound
        obtain ⟨ring, memory', moved⟩ := twin.shown.device_enabled sound done
        rw [← twin.memory] at moved
        exact ⟨_, .background moved⟩

theorem exists_mirror (reachable : EndpointReachable platform room sockets setup world) :
    ∃ mirror, VerbsReachable (fun _ => true) setup mirror ∧
      Twin platform setup.worldSize world mirror :=
  (endpoints_lockstep uniform wide shallow).reachable (twin_start platform sockets setup) reachable

theorem endpoints_ended (acceptable : Acceptable setup)
    (reachable : EndpointReachable platform room sockets setup world)
    (terminal : Runs.Terminal (Step setup (endpointTransport Value platform room setup.worldSize))
      world) (bound : rank < setup.worldSize) :
    (world.rank rank).todo = [] ∧
      (world.rank rank).results = List.replicate setup.calls.length .success := by
  obtain ⟨mirror, reached, twin⟩ := exists_mirror uniform wide shallow reachable
  have ended := (endpoints_lockstep uniform wide shallow).terminal reached twin terminal
  obtain ⟨idle, results⟩ := VerbsRing.acceptable_ended uniform acceptable reached ended bound
  exact ⟨(twin.ranks rank).todo.trans idle, (twin.ranks rank).results.trans results⟩

theorem endpoints_result (reachable : EndpointReachable platform room sockets setup world)
    (bound : rank < setup.worldSize) {call : Nat} {args : Call Value}
    (found : setup.calls[call]? = some args) (returned : (world.rank rank).Returned call .success)
    (known : args.known) {block index : Nat} (blockBound : block < setup.worldSize)
    (inside : args.inBlock setup.worldSize block index) :
    world.memory rank .workbuf index = setup.result args rank block index := by
  obtain ⟨mirror, reached, twin⟩ := exists_mirror uniform wide shallow reachable
  rw [twin.memory]
  exact VerbsRing.verbs_result uniform reached bound found ((twin.ranks rank).returned returned) known
    blockBound inside

/-- Calls of all kinds end over a ring of `VerbsTransport`s, whatever the interleaving; at the end
none has failed, and every rank that returns from a call holds its result. -/
theorem endpoints_collectives_correct (acceptable : Acceptable setup) :
    (∀ run : Nat → EndpointWorld Value, run 0 = initialWorld setup (connected sockets) →
      ¬ ∀ index, Step setup (endpointTransport Value platform room setup.worldSize) (run index)
        (run (index + 1))) ∧
    (∀ world, EndpointReachable platform room sockets setup world →
      Runs.Terminal (Step setup (endpointTransport Value platform room setup.worldSize)) world →
        ∀ rank < setup.worldSize, (world.rank rank).todo = [] ∧
          (world.rank rank).results = List.replicate setup.calls.length .success) ∧
    ∀ world, EndpointReachable platform room sockets setup world → ∀ rank < setup.worldSize,
      ∀ call args, setup.calls[call]? = some args → (world.rank rank).Returned call .success →
        ∀ block < setup.worldSize, ∀ index, args.inBlock setup.worldSize block index →
          world.memory rank .workbuf index = setup.result args rank block index := by
  have lockstep := @endpoints_lockstep _ setup platform room uniform wide shallow
  refine ⟨?_, ?_, ?_⟩
  · intro run start
    apply lockstep.no_infinite (VerbsRing.workLeft setup)
      (fun _ _ reached step => VerbsRing.workLeft_decreases reached step)
    rw [start]
    exact twin_start platform sockets setup
  · intro world reachable terminal rank bound
    exact endpoints_ended uniform wide shallow acceptable reachable terminal bound
  · intro world reachable rank bound call args found returned block blockBound index inside
    exact endpoints_result uniform wide shallow reachable bound found returned
      (acceptable.known args (List.mem_of_getElem? found)) blockBound inside

end Steps

def afterAll : List Address → Address
  | [] => 1
  | address :: rest => address + afterAll rest

theorem afterAll_pos (used : List Address) : 0 < afterAll used := by
  induction used with
  | nil => exact Nat.one_pos
  | cons address rest ih => exact Nat.add_pos_right address ih

theorem lt_afterAll {used : List Address} {address : Address} (member : address ∈ used) :
    address < afterAll used := by
  induction used with
  | nil => simp at member
  | cons first rest ih =>
      have positive := afterAll_pos rest
      simp only [afterAll]
      rcases List.mem_cons.mp member with rfl | later
      · exact Nat.lt_add_of_pos_right positive
      · exact Nat.lt_of_lt_of_le (ih later) (Nat.le_add_left _ _)

theorem afterAll_free {transport : VerbsTransport} (sound : Sound [] transport) :
    afterAll transport.pendingRequests ≠ 0 ∧
      transport.heap (afterAll transport.pendingRequests) = none := by
  refine ⟨(afterAll_pos _).ne', ?_⟩
  rw [Option.eq_none_iff_forall_ne_some]
  intro own found
  exact Nat.lt_irrefl _ (lt_afterAll ((sound.owned _).mpr ⟨own, found⟩))

def alternating : Buffer × Nat → Address
  | (.workbuf, index) => 3 * index + 1
  | (.sendbuf, index) => 3 * index + 2
  | (.temporary, index) => 3 * index + 3

theorem alternating_pos (place : Buffer × Nat) : alternating place ≠ 0 := by
  obtain ⟨buffer, index⟩ := place
  cases buffer <;> exact Nat.succ_ne_zero _

theorem alternating_injective {place other : Buffer × Nat}
    (same : alternating place = alternating other) : place = other := by
  obtain ⟨buffer, index⟩ := place
  obtain ⟨buffer', index'⟩ := other
  cases buffer <;> cases buffer' <;> simp only [alternating] at same <;> grind

/-- An allocator that goes past all that is in use, and buffers whose elements alternate. -/
def plainPlatform : Platform where
  allocate transport := afterAll transport.pendingRequests
  allocated _ sound := afterAll_free sound
  pointer _ _ place := alternating place
  notNull _ _ place := alternating_pos place
  apart _ _ _ _ same := alternating_injective same
  remoteKey _ region := UInt32.ofNat region

theorem uneven_run : ∃ world, EndpointReachable plainPlatform VerbsRing.createQp
      (fun rank => (rank, rank)) unevenSetup world ∧
    Runs.Terminal (Step unevenSetup (endpointTransport Nat plainPlatform VerbsRing.createQp 2)) world :=
  (endpoints_lockstep VerbsRing.unevenSetup_uniform VerbsRing.createQp_wide
    VerbsRing.unevenSetup_shallow).exists_terminal (VerbsRing.workLeft unevenSetup)
      (fun _ _ reached step => VerbsRing.workLeft_decreases reached step) .refl
      (twin_start plainPlatform _ unevenSetup)

theorem endpoints_collectives_correct_pair : ∃ world,
    EndpointReachable plainPlatform VerbsRing.createQp (fun rank => (rank, rank)) unevenSetup world ∧
    ∀ rank < 2, (world.rank rank).results = [.success, .success, .success] ∧
      ∀ index < 5, world.memory rank .workbuf index = 10 + index := by
  obtain ⟨-, ended, value⟩ := endpoints_collectives_correct VerbsRing.unevenSetup_uniform
    VerbsRing.createQp_wide VerbsRing.unevenSetup_shallow unevenSetup_acceptable
  obtain ⟨world, reachable, terminal⟩ := uneven_run
  refine ⟨world, reachable, fun rank bound => ?_⟩
  obtain ⟨idle, results⟩ := ended world reachable terminal rank bound
  refine ⟨results, fun index inside => ?_⟩
  have returned : (world.rank rank).Returned 2 .success :=
    ⟨idle, by rw [results]; rfl, by rw [results]; rfl⟩
  exact value world reachable rank bound 2 _ rfl returned 0 (by decide) index ⟨Nat.zero_le _, inside⟩

/-- At any time an endpoint holds the requests its rank has posted and not waited for, no others;
after a successful call nothing is left, and whatever was registered or allocated for a request was
given back once. -/
theorem endpoints_drained (uniform : Uniform setup) (wide : Wide room) (shallow : AllShallow setup)
    (reachable : EndpointReachable platform room sockets setup world)
    (bound : rank < setup.worldSize) :
    (world.net.endpoints rank).pendingRequests.length =
        (openRecvs (events (world.rank rank).log)).length +
          (openSends (events (world.rank rank).log)).length ∧
      (world.net.endpoints rank).pendingRequests.length ≤
        2 * (effectiveConfig (setup.config rank)).maxInflight ∧
      ∀ call, (world.rank rank).Returned call .success →
        (world.net.endpoints rank).pendingRequests = [] ∧
        (world.net.endpoints rank).posted = [] ∧
        (∀ address, (world.net.endpoints rank).heap address = none) ∧
        ∀ id, 0 < id → id < (world.net.endpoints rank).nextRequestId →
          Released id (story (world.net.endpoints rank).trace id) := by
  obtain ⟨mirror, reached, twin⟩ := exists_mirror uniform wide shallow reachable
  have books := twin.books rank
  have onSchedule := onSchedule_of_reachable reachable rank
  have length := twin.pending_length reached bound
  have within := open_length (onSchedule.events_log bound)
  refine ⟨length, by omega, ?_⟩
  intro call returned
  obtain ⟨made, log⟩ := onSchedule.log_returned returned
  have noError := onSchedule.noError
  rw [log] at noError
  have whole := events_codeUpTo bound made noError
  rw [log, whole] at length
  have none : (world.net.endpoints rank).pendingRequests = [] := by
    simpa [openRecvs, openSends] using length
  have empty : ∀ address, (world.net.endpoints rank).heap address = .none := by
    intro address
    rw [Option.eq_none_iff_forall_ne_some]
    intro own found
    have pending := (books.sound.owned address).mpr ⟨own, found⟩
    simp [none] at pending
  refine ⟨none, ?_, empty, ?_⟩
  · rw [List.eq_nil_iff_forall_not_mem]
    intro request member
    obtain ⟨own, found, -⟩ := books.sound.of_posted member
    simp [empty] at found
  · intro id positive below
    exact books.sound.released id positive below fun address own found => by simp [empty] at found

/-- Two requests in the middle of a call, and none after the last one. -/
theorem endpoints_drained_pair :
    (∃ world, EndpointReachable plainPlatform VerbsRing.createQp (fun rank => (rank, rank))
        (pairSetup 1) world ∧ (openRecvs (events (world.rank 0).log)).length +
          (openSends (events (world.rank 0).log)).length = 2) ∧
    ∃ world, EndpointReachable plainPlatform VerbsRing.createQp (fun rank => (rank, rank))
      unevenSetup world ∧ (world.rank 1).Returned 2 .success ∧
        (world.net.endpoints 1).pendingRequests = [] ∧ (world.net.endpoints 1).posted = [] := by
  constructor
  · have ran : (endpointFollow plainPlatform VerbsRing.createQp (fun rank => (rank, rank)) (pairSetup 1)
        [0, 0, 0, 1, 1, 1, 0]).map (fun world => (world.net.endpoints 0).pendingRequests) =
          some [2, 1] := by
      decide +kernel
    obtain ⟨world, followed, pending⟩ := Option.map_eq_some_iff.mp ran
    have reachable := endpointReachable_of_follow followed
    have length := (endpoints_drained VerbsRing.pairSetup_uniform VerbsRing.createQp_wide
      VerbsRing.pairSetup_shallow reachable (show 0 < (pairSetup 1).worldSize by decide)).1
    rw [pending] at length
    exact ⟨world, reachable, length.symm⟩
  · obtain ⟨world, reachable, terminal⟩ := uneven_run
    have bound : 1 < unevenSetup.worldSize := by decide
    obtain ⟨idle, results⟩ := endpoints_ended VerbsRing.unevenSetup_uniform VerbsRing.createQp_wide
      VerbsRing.unevenSetup_shallow unevenSetup_acceptable reachable terminal bound
    have returned : (world.rank 1).Returned 2 .success :=
      ⟨idle, by rw [results]; rfl, by rw [results]; rfl⟩
    obtain ⟨pending, posted, -⟩ := (endpoints_drained VerbsRing.unevenSetup_uniform
      VerbsRing.createQp_wide VerbsRing.unevenSetup_shallow reachable bound).2.2 2 returned
    exact ⟨world, reachable, returned, pending, posted⟩

end RingAllReduce.EndpointRing
