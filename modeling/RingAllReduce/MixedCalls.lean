import RingAllReduce.CallResults
import RingAllReduce.StatusAgreement

/-!
Any mix of the three collectives, one after the other, over the mock transport. The ranks agree on
the pieces; how many of them a rank keeps in flight, and in which mode, is its own business.
-/

namespace RingAllReduce

open Exchange Rotation

variable {Value : Type} {setup : Setup Value} {world : MockWorld Value} {rank : Nat}

/-- The calls pass every check of the collectives, on every rank. -/
structure Acceptable (setup : Setup Value) : Prop where
  ranks : setup.worldSize ≤ 129
  known : ∀ args ∈ setup.calls, args.known
  calls : ∀ args ∈ setup.calls, ∀ rank < setup.worldSize, args.accepted setup.worldSize rank
  pieces : ∀ args ∈ setup.calls, ∀ rank < setup.worldSize, ∀ block < setup.worldSize,
    pieceCountFor (blockCount args.count setup.worldSize block)
      (setup.pieceElements rank args.datatype) ≤ 4096

/-- The operation of an All-Gather is never looked at. -/
theorem callCode_gather (context : Context) {args : Call Value} (kind : args.kind = .allGather)
    (operation : Operation) :
    callCode context { args with operation := operation } = callCode context args := by
  simp only [callCode, kind]

theorem Acceptable.code_clear (acceptable : Acceptable setup) (bound : rank < setup.worldSize)
    (call : Nat) : Clear (setup.code rank call) := by
  cases found : setup.calls[call]? with
  | none => simp [Setup.code, found, Clear]
  | some args =>
      have member := List.mem_of_getElem? found
      have accepted := acceptable.calls args member rank bound
      have few := acceptable.pieces args member rank bound
      simp only [Setup.code, found]
      by_cases gathers : args.kind = .allGather
      · rw [← callCode_gather _ gathers .sum]
        exact callCode_clear bound acceptable.ranks accepted rfl few
      · exact callCode_clear bound acceptable.ranks accepted (acceptable.known args member gathers) few

theorem Acceptable.not_rejected (acceptable : Acceptable setup) {Request : Type}
    (bound : rank < setup.worldSize) {state : RankState Request} {call : Nat} {status : Status} :
    ¬ Rejected setup rank state call status := by
  rintro ⟨-, -, -, -, done, instr, rest, code, rejects, -⟩
  have clear := acceptable.code_clear bound call instr (by rw [code]; simp)
  simp [rejects] at clear

theorem Acceptable.alive (acceptable : Acceptable setup) (same : setup.SamePieces)
    (reachable : MockReachable setup world) (bound : rank < setup.worldSize) :
    (world.rank rank).alive := by
  rcases alive_or_rejected same reachable rank bound with alive | ⟨call, status, rejected⟩
  · exact alive
  · exact absurd rejected (acceptable.not_rejected bound)

/-- A rank that has ended its program has sent all it was to send. -/
theorem OnSchedule.sends_of_program {Request : Type} {state : RankState Request}
    (onSchedule : OnSchedule setup rank state) (bound : rank < setup.worldSize)
    (log : state.log = setup.program rank) :
    (sendPosts (events state.log)).map Post.toPiece = setup.sent rank := by
  have noError := onSchedule.noError
  rw [log] at noError ⊢
  have whole : events (setup.program rank) = run (setup.plan rank) :=
    events_codeUpTo bound (Nat.le_refl _) noError
  rw [whole, sendPosts_run]
  rfl

/-- Where no rank can go on, a rank that waits has a predecessor that waits too. -/
theorem waiting_of_next (same : setup.SamePieces)
    (onSchedule : ∀ rank, OnSchedule setup rank (world.rank rank)) (bound : rank < setup.worldSize)
    (halted : Halted setup world rank)
    (noError : ∀ call status, ¬ Rejected setup rank (world.rank rank) call status)
    (waiting : Waiting setup world.rank (next setup.worldSize rank)) :
    Waiting setup world.rank rank := by
  obtain ⟨post, rest, todo, unsent⟩ := waiting
  obtain ⟨planned, missing⟩ := unsent_of_waiting same onSchedule bound todo (unsent rank bound rfl)
  cases halted with
  | ended idle results log =>
      rw [(onSchedule rank).sends_of_program bound log] at missing
      exact absurd planned missing
  | rejected call status rejected => exact absurd rejected (noError call status)
  | waits waiting => exact waiting

theorem Acceptable.ended (acceptable : Acceptable setup) (same : setup.SamePieces)
    (reachable : MockReachable setup world)
    (terminal : Runs.Terminal (Step setup (mockTransport Value setup.worldSize)) world)
    (bound : rank < setup.worldSize) :
    (world.rank rank).todo = [] ∧
      (world.rank rank).results = List.replicate setup.calls.length .success := by
  have onSchedule := onSchedule_of_reachable reachable
  cases halted_of_terminal same reachable terminal bound with
  | ended idle results log => exact ⟨idle, results⟩
  | rejected call status rejected => exact absurd rejected (acceptable.not_rejected bound)
  | waits waiting =>
      exfalso
      apply not_all_waiting same onSchedule
      apply spreads_back bound waiting
      intro place placeBound waits
      exact waiting_of_next same onSchedule placeBound
        (halted_of_terminal same reachable terminal placeBound)
        (fun _ _ => acceptable.not_rejected placeBound) waits

/-- Calls of all kinds over the mock transport end, whatever the interleaving; at the end none has
failed, and every rank that returns from a call holds its result. -/
theorem collectives_correct (acceptable : Acceptable setup) (same : setup.SamePieces) :
    (∀ run : Nat → MockWorld Value, run 0 = initialWorld setup emptyRing →
      ¬ ∀ index, Step setup (mockTransport Value setup.worldSize) (run index) (run (index + 1))) ∧
    (∀ world, MockReachable setup world →
      Runs.Terminal (Step setup (mockTransport Value setup.worldSize)) world →
        ∀ rank < setup.worldSize, (world.rank rank).todo = [] ∧
          (world.rank rank).results = List.replicate setup.calls.length .success) ∧
    ∀ world, MockReachable setup world → ∀ rank < setup.worldSize, ∀ call args,
      setup.calls[call]? = some args → (world.rank rank).Returned call .success →
        ∀ block < setup.worldSize, ∀ index, args.inBlock setup.worldSize block index →
          world.memory rank .workbuf index = setup.result args rank block index := by
  refine ⟨?_, ?_, ?_⟩
  · intro run start
    exact Runs.no_infinite (effortLeft setup)
      (fun before after reachable step => effort_decreases reachable step) run start
  · intro world reachable terminal rank bound
    exact acceptable.ended same reachable terminal bound
  · intro world reachable rank bound call args found returned block blockBound index inside
    exact returned_result reachable bound found returned
      (acceptable.known args (List.mem_of_getElem? found)) blockBound inside

/-- Two ranks that make one call of each kind, with pieces of one element. The first rank has three
of them in flight at a time, the second one has one. -/
def unevenSetup : Setup Nat :=
  { pairSetup 0 with
    config := fun rank =>
      some { pipelinePieceBytes := 4, maxInflight := 3 - 2 * rank, transferMode := .auto }
    calls := [.allReduce, .reduceScatter, .allGather].map fun kind =>
      { kind := kind, count := 9, datatype := .int32, operation := .sum,
        inPlace := fun _ => true, owned := fun rank => 1 - rank, sendbuf := fun _ _ => 0,
        workbuf := fun rank index => 10 * rank + index } }

theorem unevenSetup_acceptable : Acceptable unevenSetup := by
  refine ⟨by decide, ?_, ?_, ?_⟩
  · intro args member _
    simp only [unevenSetup, List.map_cons, List.map_nil, List.mem_cons, List.not_mem_nil,
      or_false] at member
    rcases member with rfl | rfl | rfl <;> rfl
  · intro args member rank bound
    have place : rank < 2 := bound
    simp only [unevenSetup, List.map_cons, List.map_nil, List.mem_cons, List.not_mem_nil,
      or_false] at member
    obtain rfl | rfl : rank = 0 ∨ rank = 1 := by omega
    all_goals rcases member with rfl | rfl | rfl <;>
      simp [Call.accepted, Datatype.supported, next, unevenSetup, pairSetup]
  · intro args member rank bound block blockBound
    have place : rank < 2 := bound
    have place' : block < 2 := blockBound
    simp only [unevenSetup, List.map_cons, List.map_nil, List.mem_cons, List.not_mem_nil,
      or_false] at member
    obtain rfl | rfl : rank = 0 ∨ rank = 1 := by omega
    all_goals
      obtain rfl | rfl : block = 0 ∨ block = 1 := by omega
      all_goals rcases member with rfl | rfl | rfl <;> decide

theorem collectives_correct_pair : ∃ world, MockReachable unevenSetup world ∧
    ∀ rank < 2, (world.rank rank).results = [.success, .success, .success] ∧
      ∀ index < 5, world.memory rank .workbuf index = 10 + index := by
  obtain ⟨-, ended, value⟩ := collectives_correct unevenSetup_acceptable fun rank bound args member => rfl
  obtain ⟨world, reachable, terminal⟩ := exists_terminal unevenSetup
  refine ⟨world, reachable, fun rank bound => ?_⟩
  obtain ⟨idle, results⟩ := ended world reachable terminal rank bound
  refine ⟨results, fun index inside => ?_⟩
  have returned : (world.rank rank).Returned 2 .success :=
    ⟨idle, by rw [results]; rfl, by rw [results]; rfl⟩
  exact value world reachable rank bound 2 _ rfl returned 0 (by decide) index ⟨Nat.zero_le _, inside⟩

end RingAllReduce
