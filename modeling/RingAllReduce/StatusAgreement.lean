import RingAllReduce.AllReduceValue
import RingAllReduce.MockProgress
import RingAllReduce.Starvation

/-!
What All-Reduces return that all ranks make with the same arguments. Over the mock transport a rank
leaves its program only where its own code says so, so that the ranks end with the same statuses
unless some rank waits for one that has left.
-/

namespace RingAllReduce

open Exchange Rotation

variable {Value : Type} {setup : Setup Value} {world : MockWorld Value} {rank call : Nat}
  {status : Status}

/-- A call of a rank has returned the error of one of its own operations. -/
structure Rejected {Request : Type} (setup : Setup Value) (rank : Nat) (state : RankState Request)
    (call : Nat) (status : Status) : Prop where
  idle : state.todo = []
  results : state.results = List.replicate call .success ++ [status]
  error : status ≠ .success
  inside : call < setup.calls.length
  place : ∃ done instr rest, setup.code rank call = done ++ instr :: rest ∧
    instr.rejection = some status ∧ state.log = setup.codeUpTo rank call ++ done

/-- No call of a rank fails but through its own operations. -/
theorem alive_or_rejected (same : setup.SamePieces) (reachable : MockReachable setup world) :
    ∀ rank < setup.worldSize, (world.rank rank).alive ∨
      ∃ call status, Rejected setup rank (world.rank rank) call status := by
  apply Runs.Reachable.strengthen (fun world : MockWorld Value => ∀ rank < setup.worldSize,
    (world.rank rank).alive ∨ ∃ call status, Rejected setup rank (world.rank rank) call status)
    reachable
  · intro rank bound
    exact Or.inl (by simp [RankState.alive, initialWorld, initialRank])
  · intro before after earlier held step
    cases step with
    | background done => exact done.elim
    | rank mover moverBound taken =>
        intro rank bound
        by_cases here : rank = mover
        · subst here
          have onSchedule := onSchedule_of_reachable earlier
          cases rankStep_cases taken with
          | enter call idle succeeded next =>
              rw [World.put_rank_same]
              exact Or.inl succeeded
          | busy instr rest ring memory todo outcome => exact absurd outcome mock_not_busy
          | next instr rest ring memory vars todo outcome =>
              rw [World.put_rank_same]
              exact Or.inl ((onSchedule rank).alive_of_todo bound todo)
          | stop instr rest ring memory status todo outcome =>
              rw [World.put_rank_same]
              have alive := (onSchedule rank).alive_of_todo bound todo
              have noEvent := (mockInvariant_of_reachable earlier).not_stop same onSchedule bound todo
                outcome
              by_cases success : status = .success
              · exact Or.inl (Splits.forall_snoc alive success)
              right
              have rejects : instr.rejection = some status := by
                cases rejection : instr.rejection with
                | none => exact absurd (perform_clear rejection noEvent outcome) success
                | some other =>
                    rw [perform_rejected rejection] at outcome
                    simp only [Outcome.done.injEq, Verdict.stop.injEq] at outcome
                    rw [outcome.2]
              cases (onSchedule rank).control with
              | between calls callsBound idle results sequence log => simp [idle] at todo
              | failed call args found done other rest code idle status error results log =>
                  simp [idle] at todo
              | inside call args found done code busy results sequence log =>
                  refine ⟨call, status, rfl, ?_, success, (List.getElem?_eq_some_iff.mp found).1,
                    done, instr, rest, by rw [code, todo], rejects, ?_⟩
                  · rw [RankState.leave, results]
                  · simp [RankState.leave, success, log]
        · have kept : after.rank rank = before.rank rank := by
            cases rankStep_cases taken <;> exact World.put_rank_other _ _ _ _ _ here
          rw [kept]
          exact held rank bound

section Effort

def effortLeft (setup : Setup Value) (world : MockWorld Value) : Nat :=
  ∑ rank ∈ Finset.range setup.worldSize, 1 * (effort setup rank - progressOf (world.rank rank))

theorem effort_decreases {before after : MockWorld Value} (reachable : MockReachable setup before)
    (step : Step setup (mockTransport Value setup.worldSize) before after) :
    effortLeft setup after < effortLeft setup before := by
  have later := fun rank => (onSchedule_of_reachable (reachable.next step) rank).progress_le
  unfold effortLeft
  cases step with
  | background done => exact done.elim
  | rank rank bound taken =>
      have finished := later rank
      cases rankStep_cases taken with
      | busy instr rest ring memory todo outcome => exact absurd outcome mock_not_busy
      | enter call idle succeeded next =>
          rw [World.put_rank_same] at finished
          exact rank_progress 1 before.net (before.memory rank) bound (progress_enter idle call)
            finished
      | next instr rest ring memory vars todo outcome =>
          rw [World.put_rank_same] at finished
          exact rank_progress 1 ring memory bound (progress_advance _ vars instr rest) finished
      | stop instr rest ring memory status todo outcome =>
          rw [World.put_rank_same] at finished
          exact rank_progress 1 ring memory bound (progress_leave _ instr status) finished

theorem exists_terminal (setup : Setup Value) : ∃ world, MockReachable setup world ∧
    Runs.Terminal (Step setup (mockTransport Value setup.worldSize)) world :=
  Runs.exists_terminal_of_invariant (effortLeft setup)
    (fun _ _ earlier step => Runs.Reachable.next earlier step)
    (fun _ _ earlier step => effort_decreases earlier step) (initialWorld setup emptyRing)
    Relation.ReflTransGen.refl

end Effort

section Course

/-- A front part of the program of each rank which no rank leaves, and in which the ranks wait for
nothing but what their predecessors send in it. -/
structure Course (setup : Setup Value) (course : Nat → List Instr) : Prop where
  ahead : ∀ rank < setup.worldSize, course rank <+: setup.program rank
  clear : ∀ rank < setup.worldSize, Clear (course rank)
  linked : Linked setup course

/-- What a rank can be doing where none can go on. -/
inductive Halted (setup : Setup Value) (world : MockWorld Value) (rank : Nat) : Prop
  | ended (idle : (world.rank rank).todo = [])
      (results : (world.rank rank).results = List.replicate setup.calls.length .success)
      (log : (world.rank rank).log = setup.program rank)
  | rejected (call : Nat) (status : Status)
      (rejected : Rejected setup rank (world.rank rank) call status)
  | waits (waiting : Waiting setup world.rank rank)

theorem halted_of_terminal (same : setup.SamePieces) (reachable : MockReachable setup world)
    (terminal : Runs.Terminal (Step setup (mockTransport Value setup.worldSize)) world)
    (bound : rank < setup.worldSize) : Halted setup world rank := by
  have onSchedule := onSchedule_of_reachable reachable
  have noStep : rankStep setup (mockTransport Value setup.worldSize) rank world = none := by
    cases taken : rankStep setup (mockTransport Value setup.worldSize) rank world with
    | none => rfl
    | some after => exact absurd (.rank rank bound taken) (terminal after)
  cases todo : (world.rank rank).todo with
  | cons instr rest =>
      exact .waits ((mockInvariant_of_reachable reachable).waiting_of_noStep same onSchedule bound
        todo noStep)
  | nil =>
      rcases alive_or_rejected same reachable rank bound with alive | ⟨call, status, rejected⟩
      · have all : (world.rank rank).results.all (· = .success) = true := by
          simpa [RankState.alive] using alive
        simp only [rankStep, todo, all, if_true] at noStep
        split at noStep
        · simp at noStep
        rename_i none
        have most := List.getElem?_eq_none_iff.mp none
        cases (onSchedule rank).control with
        | between calls callsBound idle results sequence log =>
            have whole : calls = setup.calls.length := by
              rw [results, List.length_replicate] at most
              omega
            rw [whole] at results log
            exact .ended todo results log
        | inside call args found done code busy results sequence log => exact absurd todo busy
        | failed call args found done instr rest code idle status error results log =>
            exact absurd (alive status (by simp [results])) error
      · exact .rejected call status rejected

variable {course : Nat → List Instr}

theorem Course.performed (course_ : Course setup course) (same : setup.SamePieces)
    (reachable : MockReachable setup world)
    (halted : ∀ rank < setup.worldSize, Halted setup world rank) :
    ∀ rank < setup.worldSize, course rank <+: (world.rank rank).log := by
  have onSchedule := onSchedule_of_reachable reachable
  have waits : ∀ rank < setup.worldSize, ¬ course rank <+: (world.rank rank).log →
      ∃ post rest, (world.rank rank).todo = .waitRecv post :: rest ∧
        .waitRecv post ∈ course rank ∧ Waiting setup world.rank rank := by
    intro rank bound behind
    have ahead := course_.ahead rank bound
    cases halted rank bound with
    | ended idle results log => exact absurd (log ▸ ahead) behind
    | rejected call status rejected =>
        obtain ⟨done, instr, rest, code, rejects, log⟩ := rejected.place
        have next : (world.rank rank).log ++ [instr] <+: setup.program rank := by
          refine List.IsPrefix.trans ?_ (setup.codeUpTo_isPrefix rank rejected.inside)
          rw [setup.codeUpTo_succ, code, log]
          exact ⟨rest, by simp⟩
        have clear := course_.clear rank bound instr (Splits.mem_of_behind ahead next behind)
        simp [rejects] at clear
    | waits waiting =>
        obtain ⟨post, rest, todo, unsent⟩ := waiting
        refine ⟨post, rest, todo, ?_, post, rest, todo, unsent⟩
        have onProgram := (onSchedule rank).control.on_program
        rw [todo] at onProgram
        exact Splits.mem_of_behind ahead (List.IsPrefix.trans ⟨rest, by simp⟩ onProgram) behind
  by_contra late
  simp only [not_forall] at late
  obtain ⟨rank, bound, behind⟩ := late
  apply not_all_waiting same onSchedule
  have allBehind := @spreads_back setup.worldSize rank
    (fun place => ¬ course place <+: (world.rank place).log) bound behind (by
      intro place placeBound nextBehind performed
      obtain ⟨post, rest, todo, inCourse, waiting⟩ :=
        waits _ (next_lt setup.positive place) nextBehind
      obtain ⟨_, _, -, unsent⟩ := waiting
      obtain ⟨sent, inPrev, samePiece⟩ := course_.linked place placeBound post inCourse
      apply (unsent_of_waiting same onSchedule placeBound todo (unsent place placeBound rfl)).2
      refine List.mem_map.mpr ⟨sent, List.mem_filterMap.mpr ⟨.postSend sent, ?_, rfl⟩, samePiece⟩
      exact List.mem_filterMap.mpr ⟨_, performed.subset inPrev, rfl⟩)
  intro other otherBound
  obtain ⟨-, -, -, -, waiting⟩ := waits other otherBound (allBehind other otherBound)
  exact waiting

end Course

section Outcome

theorem Alike.samePieces (alike : Alike setup) : setup.SamePieces := by
  intro rank bound args member
  simp only [Setup.pieceElements, alike.config rank bound,
    alike.config _ (next_lt setup.positive rank)]

/-- What the ranks return is the beginning of one list of statuses, and all of it in the end. -/
structure Settled (setup : Setup Value) (final : List Status) : Prop where
  along : ∀ world, MockReachable setup world → ∀ rank < setup.worldSize,
    (world.rank rank).results <+: final
  atEnd : ∀ world, MockReachable setup world →
    Runs.Terminal (Step setup (mockTransport Value setup.worldSize)) world →
    ∀ rank < setup.worldSize, (world.rank rank).todo = [] ∧ (world.rank rank).results = final

/-- All calls before a given one are carried out by all ranks. -/
def Setup.PassesUpTo (setup : Setup Value) (call : Nat) : Prop :=
  ∀ earlier < call, ∀ args, setup.calls[earlier]? = some args → setup.Passes args

variable (alike : Alike setup)

include alike

theorem Alike.clear_upTo (passes : setup.PassesUpTo call) (bound : rank < setup.worldSize) :
    Clear (setup.codeUpTo rank call) := by
  intro instr member
  obtain ⟨earlier, earlierIn, inCode⟩ := List.mem_flatMap.mp member
  cases found : setup.calls[earlier]? with
  | none => simp [Setup.code, found] at inCode
  | some args =>
      have passed := passes earlier (List.mem_range.mp earlierIn) args found
      exact alike.code_clear found passed bound instr inCode

theorem Alike.linked_upTo (passes : setup.PassesUpTo call) :
    Linked setup fun rank => setup.codeUpTo rank call := by
  apply Linked.flatMap
  intro earlier earlierIn
  cases found : setup.calls[earlier]? with
  | none => exact Linked.of_no_wait fun rank bound post => by simp [Setup.code, found]
  | some args =>
      obtain ⟨nonempty, typed, -⟩ := passes earlier (List.mem_range.mp earlierIn) args found
      exact alike.code_linked found nonempty typed

theorem Alike.settled_of_passes (passes : setup.PassesUpTo setup.calls.length) :
    Settled setup (List.replicate setup.calls.length .success) := by
  have same := alike.samePieces
  have course : Course setup setup.program :=
    ⟨fun rank bound => List.prefix_rfl, fun rank bound => alike.clear_upTo passes bound,
      alike.linked_upTo passes⟩
  have kept : ∀ rank < setup.worldSize, ∀ (state : RankState RequestState) call status,
      ¬ Rejected setup rank state call status := by
    rintro rank bound state call status ⟨-, -, -, inside, done, instr, rest, code, rejects, -⟩
    have inProgram : instr ∈ setup.program rank :=
      List.mem_flatMap.mpr ⟨call, List.mem_range.mpr inside, by rw [code]; simp⟩
    simp [alike.clear_upTo passes bound instr inProgram] at rejects
  constructor
  · intro world reachable rank bound
    rcases alive_or_rejected same reachable rank bound with alive | ⟨call, status, rejected⟩
    · have control := (onSchedule_of_reachable reachable rank).control
      have finished := control.log_split.1
      rw [RankState.finished, List.count_eq_length.mpr fun status member =>
        (alive status member).symm] at finished
      rw [List.eq_replicate_iff.mpr ⟨rfl, alive⟩]
      exact List.prefix_replicate_iff.mpr ⟨by simpa using finished, by simp⟩
    · exact absurd rejected (kept rank bound _ _ _)
  · intro world reachable terminal rank bound
    have halted := fun rank bound => @halted_of_terminal _ setup world rank same reachable terminal bound
    have performed := course.performed same reachable halted rank bound
    cases halted rank bound with
    | ended idle results log => exact ⟨idle, results⟩
    | rejected call status rejected => exact absurd rejected (kept rank bound _ _ _)
    | waits waiting =>
        obtain ⟨post, rest, todo, -⟩ := waiting
        have within := (onSchedule_of_reachable reachable rank).control.on_program.length_le
        have whole := performed.length_le
        rw [todo, List.length_append, List.length_cons] at within
        omega

section Refused

variable {front : Nat → List Instr} (refusal : Refusal setup call status front)
  (passes : setup.PassesUpTo call) (inside : call < setup.calls.length)

include refusal inside

omit alike in
theorem Refusal.on_program (bound : rank < setup.worldSize) : ∃ middle rest,
    setup.code rank call = front rank ++ (middle ++ rest) ∧
      setup.codeUpTo rank call ++ front rank ++ (middle ++ rest) <+: setup.program rank ∧
      (∃ instr ∈ middle, instr.rejection = some status) ∧
      ∀ instr ∈ middle, instr.posts = true ∨ instr.rejection = some status := by
  obtain ⟨middle, rest, code, rejects, only⟩ := refusal.split rank bound
  refine ⟨middle, rest, code, ?_, rejects, only⟩
  rw [List.append_assoc, ← code, ← setup.codeUpTo_succ]
  exact setup.codeUpTo_isPrefix rank inside

omit alike in
theorem Refusal.past_front (reachable : MockReachable setup world) (bound : rank < setup.worldSize)
    {more : List Instr} (log : setup.codeUpTo rank call ++ front rank ++ more = (world.rank rank).log)
    {instr : Instr} (next : (world.rank rank).log ++ [instr] <+: setup.program rank) :
    instr.posts = true ∨ instr.rejection = some status := by
  obtain ⟨middle, rest, -, ⟨tail, whole⟩, ⟨stop, inMiddle, stops⟩, only⟩ :=
    refusal.on_program inside bound
  have behind : ¬ middle <+: more := by
    intro ahead
    have clear := log_clear reachable rank stop
      (by rw [← log]; exact List.mem_append_right _ (ahead.subset inMiddle))
    simp [stops] at clear
  rw [← log, ← whole, List.append_assoc _ more, List.append_assoc _ _ tail,
    List.prefix_append_right_inj, List.append_assoc] at next
  exact only instr (Splits.mem_of_behind (List.prefix_append _ _) next behind)

omit alike inside in
theorem Refusal.finished_le (reachable : MockReachable setup world) (bound : rank < setup.worldSize) :
    (world.rank rank).finished ≤ call := by
  by_contra late
  obtain ⟨middle, rest, code, ⟨instr, inMiddle, rejects⟩, -⟩ := refusal.split rank bound
  refine absurd (log_clear reachable rank instr ?_) (by simp [rejects])
  apply (onSchedule_of_reachable reachable rank).code_of_finished (show call < _ by omega)
  rw [code]
  exact List.mem_append_right _ (List.mem_append_left _ inMiddle)

include passes

theorem Refusal.rejected (reachable : MockReachable setup world) (bound : rank < setup.worldSize)
    {other : Nat} {status' : Status} (rejected : Rejected setup rank (world.rank rank) other status') :
    other = call ∧ status' = status := by
  obtain ⟨-, results, error, otherInside, done, instr, rest', code', rejects, log⟩ := rejected
  have finished := refusal.finished_le reachable bound
  rw [RankState.finished, results] at finished
  simp only [List.count_append, List.count_replicate_self, List.count_singleton, beq_iff_eq, error,
    if_false, Nat.add_zero] at finished
  have here : other = call := by
    by_contra different
    have inCode : instr ∈ setup.codeUpTo rank call := List.mem_flatMap.mpr
      ⟨other, List.mem_range.mpr (by omega), by rw [code']; simp⟩
    have clear := alike.clear_upTo passes bound instr inCode
    simp [rejects] at clear
  refine ⟨here, ?_⟩
  subst here
  obtain ⟨middle, rest, code, ⟨stop, inMiddle, stops⟩, only⟩ := refusal.split rank bound
  rw [← List.append_assoc] at code
  -- the check the rank has come to lies in the middle part, as it has not performed all of that
  have behind : ¬ front rank ++ middle <+: done := by
    intro ahead
    have clear := log_clear reachable rank stop
      (by rw [log]; exact List.mem_append_right _ (ahead.subset (List.mem_append_right _ inMiddle)))
    simp [stops] at clear
  have inPart := Splits.mem_of_behind (show _ <+: setup.code rank other from ⟨rest, code.symm⟩)
    (show done ++ [instr] <+: _ from ⟨rest', by rw [code']; simp⟩) behind
  rcases List.mem_append.mp inPart with inFront | inMiddle
  · have clear := refusal.clear rank bound instr inFront
    simp [rejects] at clear
  · rcases only instr inMiddle with posts | same
    · cases instr <;> simp [Instr.posts] at posts <;> simp [Instr.rejection] at rejects
    · exact Option.some.inj (rejects.symm.trans same)

theorem Refusal.course : Course setup fun rank => setup.codeUpTo rank call ++ front rank := by
  refine ⟨fun rank bound => ?_, fun rank bound =>
    (alike.clear_upTo passes bound).append (refusal.clear rank bound),
    (alike.linked_upTo passes).append refusal.linked⟩
  obtain ⟨middle, rest, -, onProgram, -⟩ := refusal.on_program inside bound
  exact (List.prefix_append _ _).trans onProgram

theorem Alike.settled_of_refusal :
    Settled setup (List.replicate call .success ++ [status]) := by
  have same := alike.samePieces
  have course := refusal.course alike passes inside
  constructor
  · intro world reachable rank bound
    have finished := refusal.finished_le reachable bound
    rcases alive_or_rejected same reachable rank bound with alive | ⟨other, status', rejected⟩
    · rw [RankState.finished, List.count_eq_length.mpr fun status member =>
        (alive status member).symm] at finished
      rw [List.eq_replicate_iff.mpr ⟨rfl, alive⟩]
      exact (List.prefix_replicate_iff.mpr ⟨by simpa using finished, by simp⟩).trans
        (List.prefix_append _ _)
    · obtain ⟨rfl, rfl⟩ := refusal.rejected alike passes inside reachable bound rejected
      rw [rejected.results]
  · intro world reachable terminal rank bound
    have halted := fun rank bound => @halted_of_terminal _ setup world rank same reachable terminal bound
    obtain ⟨more, logEq⟩ := course.performed same reachable halted rank bound
    have finished := refusal.finished_le reachable bound
    cases halted rank bound with
    | ended idle results log =>
        rw [RankState.finished, results, List.count_replicate_self] at finished
        omega
    | rejected other status' rejected =>
        obtain ⟨rfl, rfl⟩ := refusal.rejected alike passes inside reachable bound rejected
        exact ⟨rejected.idle, rejected.results⟩
    | waits waiting =>
        obtain ⟨post, rest, todo, -⟩ := waiting
        have ahead := (onSchedule_of_reachable reachable rank).control.on_program
        rw [todo] at ahead
        have next : (world.rank rank).log ++ [.waitRecv post] <+: setup.program rank :=
          List.IsPrefix.trans ⟨rest, by simp⟩ ahead
        rcases refusal.past_front inside reachable bound logEq next with posts | rejects
        · simp [Instr.posts] at posts
        · simp [Instr.rejection] at rejects

end Refused

omit alike in
/-- A rank that its predecessor leaves alone at a stage never returns from the call. -/
theorem Starvation.unreturned {args : Call Value} {stage : Nat}
    (starved : Starvation setup call args rank stage) (same : setup.SamePieces)
    (found : setup.calls[call]? = some args) (reachable : MockReachable setup world) :
    (world.rank (next setup.worldSize rank)).results.length ≤ call := by
  obtain ⟨bound, stageIn, ⟨stop, inStage, stops⟩, front, post, rest, code, frontClear, callEq,
    stageEq⟩ := starved
  have nextBound := next_lt setup.positive rank
  have onSchedule := onSchedule_of_reachable reachable
  -- had it got what it waits for, its predecessor would have passed the check
  have never : .waitRecv post ∉ (world.rank (next setup.worldSize rank)).log := by
    intro waited
    have received : post.toPiece ∈ (world.rank (next setup.worldSize rank)).waitedPieces :=
      List.mem_map.mpr ⟨post, List.mem_filterMap.mpr ⟨.waitRecv post,
        List.mem_filterMap.mpr ⟨_, waited, rfl⟩, rfl⟩, rfl⟩
    have sent := ((mockInvariant_of_reachable reachable).receivers rank bound).agreed.subset received
    obtain ⟨post', inPosts, samePiece⟩ := List.mem_map.mp sent
    obtain ⟨event, inEvents, isSend⟩ := List.mem_filterMap.mp inPosts
    have itemEq : event.item = post' := by
      cases event <;> simp [Event.postedSend] at isSend
      exact isSend
    refine stops (log_clear reachable rank stop ((onSchedule rank).passed bound found stageIn
      (Or.inr ⟨event, inEvents, ?_, ?_⟩) stop inStage))
    · rw [itemEq, show post'.call = post.call from congrArg Piece.call samePiece, callEq]
    · rw [itemEq, samePiece, stageEq]
      exact Nat.lt_succ_self stage
  have early : (world.rank (next setup.worldSize rank)).finished ≤ call := by
    by_contra late
    apply never
    apply (onSchedule _).code_of_finished (show call < _ by omega)
    rw [code]
    simp
  rcases alive_or_rejected same reachable _ nextBound with alive | ⟨other, status, rejected⟩
  · rwa [RankState.finished, List.count_eq_length.mpr fun status member =>
      (alive status member).symm] at early
  · obtain ⟨-, results, error, -, done, instr, rest', code', rejects, log⟩ := rejected
    rw [RankState.finished, results] at early
    simp only [List.count_append, List.count_replicate_self, List.count_singleton, beq_iff_eq,
      error, if_false, Nat.add_zero] at early
    rw [results, List.length_append, List.length_replicate, List.length_singleton]
    by_contra here
    obtain rfl : other = call := by omega
    -- the rank would have returned from the call at a check of its own, behind the wait
    have behind : ¬ front ++ [.waitRecv post] <+: done := by
      intro ahead
      apply never
      rw [log]
      exact List.mem_append_right _ (ahead.subset (by simp))
    have inPart := Splits.mem_of_behind
      (show front ++ [.waitRecv post] <+: setup.code _ other from ⟨rest, by rw [code]; simp⟩)
      (show done ++ [instr] <+: _ from ⟨rest', by rw [code']; simp⟩) behind
    rcases List.mem_append.mp inPart with inFront | isWait
    · have passed := frontClear instr inFront
      simp [rejects] at passed
    · rw [List.mem_singleton.mp isWait] at rejects
      simp [Instr.rejection] at rejects

end Outcome

/-- Whatever the interleaving, the calls come to an end, no two ranks return different statuses from
one call, and in the end all ranks have returned the same statuses. -/
structure StatusesAgree (setup : Setup Value) : Prop where
  finite : ∀ run : Nat → MockWorld Value, run 0 = initialWorld setup emptyRing →
    ¬ ∀ index, Step setup (mockTransport Value setup.worldSize) (run index) (run (index + 1))
  together : ∀ world, MockReachable setup world → ∀ first < setup.worldSize,
    ∀ second < setup.worldSize, (world.rank first).results <+: (world.rank second).results ∨
      (world.rank second).results <+: (world.rank first).results
  ended : ∀ world, MockReachable setup world →
    Runs.Terminal (Step setup (mockTransport Value setup.worldSize)) world →
    ∀ first < setup.worldSize, ∀ second < setup.worldSize, (world.rank first).todo = [] ∧
      (world.rank first).results = (world.rank second).results

theorem Settled.agree {final : List Status} (settled : Settled setup final) :
    StatusesAgree setup := by
  refine ⟨?_, ?_, ?_⟩
  · intro run start
    exact Runs.no_infinite (effortLeft setup)
      (fun before after reachable step => effort_decreases reachable step) run start
  · intro world reachable first firstBound second secondBound
    exact List.prefix_or_prefix_of_prefix (settled.along world reachable first firstBound)
      (settled.along world reachable second secondBound)
  · intro world reachable terminal first firstBound second secondBound
    obtain ⟨idle, results⟩ := settled.atEnd world reachable terminal first firstBound
    exact ⟨idle, results.trans (settled.atEnd world reachable terminal second secondBound).2.symm⟩

theorem Alike.disagree (alike : Alike setup) (several : 2 ≤ setup.worldSize) {args : Call Value}
    (found : setup.calls[call]? = some args) (passes : setup.PassesUpTo call)
    (starves : setup.Starves args) : ¬ StatusesAgree setup := by
  intro agree
  obtain ⟨rank, stage, starved⟩ := alike.exists_starvation found several starves
  obtain ⟨world, reachable, terminal⟩ := exists_terminal setup
  have same := alike.samePieces
  have nextBound := next_lt setup.positive rank
  have unreturned := starved.unreturned same found reachable
  have inside := (List.getElem?_eq_some_iff.mp found).1
  have idle := (agree.ended world reachable terminal _ nextBound _ nextBound).1
  cases halted_of_terminal same reachable terminal nextBound with
  | ended idle results log =>
      rw [results, List.length_replicate] at unreturned
      omega
  | waits waiting =>
      obtain ⟨_, _, todo, -⟩ := waiting
      simp [idle] at todo
  | rejected other status rejected =>
      obtain ⟨-, results, -, -, done, instr, rest, code, rejects, -⟩ := rejected
      rw [results, List.length_append, List.length_replicate, List.length_singleton] at unreturned
      have before : instr ∈ setup.codeUpTo (next setup.worldSize rank) call :=
        List.mem_flatMap.mpr ⟨other, List.mem_range.mpr (by omega), by rw [code]; simp⟩
      have clear := alike.clear_upTo passes nextBound instr before
      simp [rejects] at clear

/-- All ranks return the same status from each call exactly if no call starves a rank of all those
the ranks get to, that is, of those after calls that all ranks carry out. -/
theorem statuses_agree_iff {setup : Setup Value} (several : 2 ≤ setup.worldSize)
    (alike : Alike setup) :
    StatusesAgree setup ↔ ∀ call args, setup.calls[call]? = some args → setup.PassesUpTo call →
      ¬ setup.Starves args := by
  constructor
  · intro agree call args found passes starves
    exact alike.disagree several found passes starves agree
  · intro fed
    by_cases passes : setup.PassesUpTo setup.calls.length
    · exact (alike.settled_of_passes passes).agree
    · -- the first call that some rank does not carry out
      have exists_call : ∃ (call : Nat) (args : Call Value), setup.calls[call]? = some args ∧
          ¬ setup.Passes args := by
        simp only [Setup.PassesUpTo, not_forall] at passes
        obtain ⟨call, -, args, found, fails⟩ := passes
        exact ⟨call, args, found, fails⟩
      classical
      obtain ⟨args, found, fails⟩ := Nat.find_spec exists_call
      have earlier : setup.PassesUpTo (Nat.find exists_call) := by
        intro earlier less other otherFound
        by_contra otherFails
        exact Nat.find_min exists_call less ⟨other, otherFound, otherFails⟩
      obtain ⟨status, front, refusal, -⟩ :=
        alike.exists_refusal found several fails (fed _ args found earlier)
      exact (alike.settled_of_refusal refusal earlier (List.getElem?_eq_some_iff.mp found).1).agree

theorem pairSetup_alike (times : Nat) : Alike (pairSetup times) :=
  ⟨fun _ _ => rfl, fun args member => by rw [List.eq_of_mem_replicate member]⟩

theorem statuses_agree_pair : StatusesAgree (pairSetup 2) := by
  apply (statuses_agree_iff (show 2 ≤ (pairSetup 2).worldSize by decide) (pairSetup_alike 2)).mpr
  intro call args found passes starves
  have member := List.mem_of_getElem? found
  rw [List.eq_of_mem_replicate member] at starves
  revert starves
  simp [Setup.Starves, Datatype.supported, Operation.supported, pairSetup]

/-- Two ranks that combine some elements by an operation that is not in the enumeration. -/
def unknownSetup (count : Nat) : Setup Nat :=
  { worldSize := 2, positive := Nat.two_pos, config := fun _ => none,
    element := fun _ _ destination source => destination + source,
    calls := List.replicate 1
      { kind := .allReduce, count := count, datatype := .int32, operation := .other 7,
        inPlace := fun _ => true, owned := fun _ => 0, sendbuf := fun _ _ => 0,
        workbuf := fun rank index => 10 * rank + index },
    memory := fun _ _ _ => 0 }

/-- With a single element, one rank rejects the operation, and the other one waits for it for
good. -/
theorem unknown_operation_starves : ¬ StatusesAgree (unknownSetup 1) ∧
    ∃ world, MockReachable (unknownSetup 1) world ∧
      Runs.Terminal (Step (unknownSetup 1) (mockTransport Nat 2)) world ∧
      (world.rank 1).results = [.unsupportedOperation] ∧ (world.rank 0).results = [] ∧
      (world.rank 0).todo ≠ [] := by
  have ran : (mockFollow (unknownSetup 1) (List.replicate 6 0 ++ List.replicate 5 1)).map
      (fun world => ((world.rank 0).todo.length, (world.rank 0).results, (world.rank 1).results,
        (rankStep (unknownSetup 1) (mockTransport Nat 2) 0 world).isNone,
        (rankStep (unknownSetup 1) (mockTransport Nat 2) 1 world).isNone)) =
      some (3, [], [.unsupportedOperation], true, true) := by
    decide +kernel
  obtain ⟨world, followed, reached⟩ := Option.map_eq_some_iff.mp ran
  simp only [Prod.mk.injEq, Option.isNone_iff_eq_none] at reached
  obtain ⟨waits, results, results', stuck, stuck'⟩ := reached
  have reachable := mockReachable_of_follow followed
  have terminal : Runs.Terminal (Step (unknownSetup 1) (mockTransport Nat 2)) world := by
    intro after step
    cases step with
    | background done => exact done.elim
    | rank mover bound taken =>
        have moves : mover = 0 ∨ mover = 1 := by
          change mover < 2 at bound
          omega
        rcases moves with rfl | rfl
        · exact absurd (stuck.symm.trans taken) (by simp)
        · exact absurd (stuck'.symm.trans taken) (by simp)
  refine ⟨fun agree => ?_, world, reachable, terminal, results', results, fun idle => ?_⟩
  · have same := (agree.ended world reachable terminal 0 (by decide) 1 (by decide)).2
    rw [results, results'] at same
    simp at same
  · simp [idle] at waits

end RingAllReduce
