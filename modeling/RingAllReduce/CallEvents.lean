import Mathlib.Data.List.TakeWhile
import RingAllReduce.AllReduceValue
import RingAllReduce.Progress

/-! What a rank posts and waits for during one call, over any transport. -/

namespace RingAllReduce

open Exchange Rotation

variable {Value Net Request : Type} {setup : Setup Value} {rank : Nat}

def Instr.enters : Instr → Bool
  | .load _ => true
  | _ => false

def operationsOf (call : Nat) (log : List Instr) : List Instr :=
  ((log.dropWhile (· ≠ .load call)).drop 1).takeWhile (!·.enters)

theorem callCode_entry (context : Context) (call : Call Value) :
    ∃ body, callCode context call = .load context.call :: body ∧
      ∀ instr ∈ body, instr.enters = false := by
  have inner : ∀ {instr : Instr}, instr.Inner → instr.enters = false := by
    intro instr isInner
    cases instr <;> first | rfl | exact isInner.elim
  obtain ⟨body, bodyInner, success | ⟨status, bodyEq, failure⟩⟩ := callCode_shape context call
  · refine ⟨body ++ call.kind.ending, success, ?_⟩
    intro instr member
    rcases List.mem_append.mp member with inBody | ending
    · exact inner (bodyInner instr inBody)
    · cases kind : call.kind <;> rw [kind, Kind.ending] at ending <;> simp at ending
      · rcases ending with rfl | rfl <;> rfl
      · rw [ending]
        rfl
      · rw [ending]
        rfl
  · exact ⟨body, failure, fun instr member => inner (bodyInner instr member)⟩

theorem not_entered_before (setup : Setup Value) (rank call : Nat) :
    ∀ instr ∈ setup.codeUpTo rank call, instr ≠ .load call := by
  rintro instr member rfl
  obtain ⟨earlier, less, inCode⟩ := List.mem_flatMap.mp member
  rw [Setup.code] at inCode
  split at inCode
  · rename_i args found
    obtain ⟨body, codeEq, inner⟩ :=
      callCode_entry (setup.context rank (setup.sequenceAt earlier) earlier) args
    rw [codeEq] at inCode
    rcases List.mem_cons.mp inCode with same | inBody
    · have equal : call = earlier := Instr.load.inj same
      rw [List.mem_range] at less
      omega
    · have quiet := inner _ inBody
      simp [Instr.enters] at quiet
  · simp at inCode

/-- A rank that returned successfully has performed the code of the call, and nothing else. -/
theorem OnSchedule.operations {state : RankState Request}
    (onSchedule : OnSchedule setup rank state) {call : Nat} {args : Call Value}
    (found : setup.calls[call]? = some args) (returned : state.Returned call .success) :
    .load call :: operationsOf call state.log =
        callCode (setup.context rank (setup.sequenceAt call) call) args ∧
      (∀ status, .ret status ∈ callCode (setup.context rank (setup.sequenceAt call) call) args →
        status = .success) ∧
      state.log = setup.codeUpTo rank (call + 1) := by
  obtain ⟨control, noError⟩ := onSchedule
  obtain ⟨idle, last, status⟩ := returned
  cases control with
  | between calls callsBound todo results sequence log =>
      obtain rfl : calls = call + 1 := by simpa [results] using last
      have codeEq : setup.code rank call =
          callCode (setup.context rank (setup.sequenceAt call) call) args := by
        rw [Setup.code, found]
      obtain ⟨body, bodyEq, inner⟩ :=
        callCode_entry (setup.context rank (setup.sequenceAt call) call) args
      refine ⟨?_, ?_, log⟩
      · rw [log, setup.codeUpTo_succ, codeEq, bodyEq, operationsOf,
          List.dropWhile_append_of_pos (by simpa using not_entered_before setup rank call)]
        rw [Setup.context, List.dropWhile_cons_of_neg (by simp), List.drop_one, List.tail_cons,
          List.takeWhile_eq_self_iff.mpr (by simpa using inner)]
      · intro error member
        apply noError
        rw [log, setup.codeUpTo_succ, codeEq]
        exact List.mem_append_right _ member
  | inside number args' found' done code busy results sequence log => exact absurd idle busy
  | failed number args' found' done instr rest code todo error isError results log =>
      obtain rfl : number = call := by simpa [results] using last
      rw [results, List.getElem?_append_right (by simp)] at status
      exact absurd (by simpa using status) isError

theorem OnSchedule.events_operations {state : RankState Request}
    (onSchedule : OnSchedule setup rank state) (bound : rank < setup.worldSize) {call : Nat}
    {args : Call Value} (found : setup.calls[call]? = some args)
    (returned : state.Returned call .success) :
    args.accepted setup.worldSize rank ∧ events (operationsOf call state.log) =
      run ((args.kind.stages setup.worldSize).flatMap
        (stageBatches (setup.context rank (setup.sequenceAt call) call) args.count
          args.datatype)) := by
  obtain ⟨code, noError, -⟩ := onSchedule.operations found returned
  have accepted := accepted_of_noError noError
  refine ⟨accepted, ?_⟩
  have whole := events_callCode (setup.context rank (setup.sequenceAt call) call) bound accepted
  rw [← code, events_cons] at whole
  exact whole

section Bounds

theorem stageBatch_length (context : Context) (count : Nat) (datatype : Datatype)
    (stage index : Nat) :
    (stageBatch context count datatype stage index).recvs.length ≤ context.config.maxInflight ∧
      (stageBatch context count datatype stage index).sends.length ≤ context.config.maxInflight := by
  have turns : ∀ (phase : CollectivePhase) (step elementSize pieceElements : Nat) (flow : Flow),
      (posted (batchPosts context phase step elementSize pieceElements flow index)).length ≤
        context.config.maxInflight := by
    intro phase step elementSize pieceElements flow
    have filtered := List.length_filterMap_le Except.toOption
      (batchPosts context phase step elementSize pieceElements flow index)
    rw [posted]
    simp only [batchPosts, List.length_map, List.length_range'] at filtered ⊢
    omega
  exact ⟨turns _ _ _ _ _, turns _ _ _ _ _⟩

theorem plan_length {batch : Batch Post} (member : batch ∈ setup.plan rank) :
    batch.recvs.length ≤ (effectiveConfig (setup.config rank)).maxInflight ∧
      batch.sends.length ≤ (effectiveConfig (setup.config rank)).maxInflight := by
  obtain ⟨place, -, batchIn⟩ := List.mem_flatMap.mp member
  obtain ⟨args, index, -, rfl⟩ := setup.mem_batchesAt batchIn
  exact stageBatch_length _ _ _ _ _

theorem open_length {done : List (Event Post)} (ahead : done <+: run (setup.plan rank)) :
    (openRecvs done).length ≤ (effectiveConfig (setup.config rank)).maxInflight ∧
      (openSends done).length ≤ (effectiveConfig (setup.config rank)).maxInflight := by
  rcases open_within ahead with ⟨noRecvs, noSends⟩ | ⟨batch, member, recvs, sends⟩
  · simp [noRecvs, noSends]
  · have lengths := plan_length member
    exact ⟨recvs.length_le.trans lengths.1, sends.length_le.trans lengths.2⟩

/-- Only requests that are open are kept. -/
def RankState.Tidy (state : RankState Request) : Prop :=
  (∀ piece request, state.vars.requests (.recv piece) = some request →
    ∃ post ∈ openRecvs (events state.log), post.pieceIndex = piece) ∧
  ∀ piece request, state.vars.requests (.send piece) = some request →
    ∃ post ∈ openSends (events state.log), post.pieceIndex = piece

theorem RankState.Tidy.quiet {before after : RankState Request} (tidy : before.Tidy)
    (eventsEq : events after.log = events before.log)
    (requests : after.vars.requests = before.vars.requests) : after.Tidy := by
  unfold RankState.Tidy at tidy ⊢
  rwa [eventsEq, requests]

theorem perform_event_next {transport : Transport Value Net Request} {vars after : Variables Request}
    {net net' : Net} {memory memory' : Memory Value} {instr : Instr}
    (outcome : perform setup transport rank vars net memory instr =
      .done (net', memory') (.next after)) :
    (∀ post, instr = .postRecv post → ∃ request,
      after = vars.assign (.recv post.pieceIndex) (some request)) ∧
    (∀ post, instr = .postSend post → ∃ request,
      after = vars.assign (.send post.pieceIndex) (some request)) ∧
    (∀ post, instr = .waitRecv post → after = vars.assign (.recv post.pieceIndex) none) ∧
    ∀ post, instr = .waitSend post → after = vars.assign (.send post.pieceIndex) none := by
  have mapped : ∀ {Answer : Type} {convert : Answer → Verdict Request}
      {base : Outcome (Net × Memory Value) Answer},
      base.map convert = .done (net', memory') (.next after) →
        ∃ answer, convert answer = .next after := by
    intro Answer convert base eq
    cases base <;> simp only [Outcome.map, reduceCtorEq, Outcome.done.injEq] at eq
    exact ⟨_, eq.2⟩
  refine ⟨?_, ?_, ?_, ?_⟩ <;> rintro post rfl
  · obtain ⟨answer, answered⟩ := mapped outcome
    cases answer with
    | none => simp at answered
    | some request => exact ⟨request, (Verdict.next.inj answered).symm⟩
  · obtain ⟨answer, answered⟩ := mapped outcome
    cases answer with
    | none => simp at answered
    | some request => exact ⟨request, (Verdict.next.inj answered).symm⟩
  · simp only [perform] at outcome
    split at outcome
    · simp at outcome
    · obtain ⟨answer, answered⟩ := mapped outcome
      cases answer with
      | false => simp at answered
      | true => exact (Verdict.next.inj answered).symm
  · simp only [perform] at outcome
    split at outcome
    · simp at outcome
    · obtain ⟨answer, answered⟩ := mapped outcome
      cases answer with
      | false => simp at answered
      | true => exact (Verdict.next.inj answered).symm

theorem RankState.Tidy.next {state : RankState Request} (tidy : state.Tidy)
    (onSchedule : OnSchedule setup rank state) (bound : rank < setup.worldSize)
    {transport : Transport Value Net Request} {net net' : Net} {memory memory' : Memory Value}
    {instr : Instr} {rest : List Instr} {vars : Variables Request}
    (todo : state.todo = instr :: rest)
    (outcome : perform setup transport rank state.vars net memory instr =
      .done (net', memory') (.next vars)) : (state.advance vars instr rest).Tidy := by
  obtain ⟨postedRecv, postedSend, waitedRecv, waitedSend⟩ := perform_event_next outcome
  obtain ⟨recvs, sends⟩ := tidy
  cases event : instr.event with
  | none =>
      obtain ⟨-, requests, -⟩ := perform_local_next event outcome
      exact RankState.Tidy.quiet ⟨recvs, sends⟩ (by simp [RankState.advance, event]) requests
  | some _ =>
      cases instr with
      | postRecv post =>
          obtain ⟨request, rfl⟩ := postedRecv post rfl
          have snoc := (onSchedule.postRecv_new bound todo).1
          constructor
          · intro piece found kept
            simp only [RankState.advance, events_append, events_cons, Instr.event,
              Option.toList_some, events_nil, List.append_nil]
            rw [snoc]
            by_cases same : piece = post.pieceIndex
            · exact ⟨post, by simp, same.symm⟩
            · obtain ⟨other, member, isPiece⟩ := recvs piece found (by
                simpa [RankState.advance, Variables.assign, same] using kept)
              exact ⟨other, List.mem_append_left _ member, isPiece⟩
          · intro piece found kept
            obtain ⟨other, member, isPiece⟩ := sends piece found (by
              simpa [RankState.advance, Variables.assign] using kept)
            exact ⟨other, by simpa [RankState.advance, Instr.event] using member, isPiece⟩
      | postSend post =>
          obtain ⟨request, rfl⟩ := postedSend post rfl
          have snoc := onSchedule.postSend_new bound todo
          constructor
          · intro piece found kept
            obtain ⟨other, member, isPiece⟩ := recvs piece found (by
              simpa [RankState.advance, Variables.assign] using kept)
            exact ⟨other, by simpa [RankState.advance, Instr.event] using member, isPiece⟩
          · intro piece found kept
            simp only [RankState.advance, events_append, events_cons, Instr.event,
              Option.toList_some, events_nil, List.append_nil]
            rw [snoc]
            by_cases same : piece = post.pieceIndex
            · exact ⟨post, by simp, same.symm⟩
            · obtain ⟨other, member, isPiece⟩ := sends piece found (by
                simpa [RankState.advance, Variables.assign, same] using kept)
              exact ⟨other, List.mem_append_left _ member, isPiece⟩
      | waitRecv post =>
          obtain rfl := waitedRecv post rfl
          obtain ⟨later, opensEq, afterEq, -⟩ := onSchedule.waitRecv_oldest bound todo
          constructor
          · intro piece found kept
            have different : piece ≠ post.pieceIndex := by
              rintro rfl
              simp [RankState.advance, Variables.assign] at kept
            obtain ⟨other, member, isPiece⟩ := recvs piece found (by
              simpa [RankState.advance, Variables.assign, different] using kept)
            refine ⟨other, ?_, isPiece⟩
            rw [opensEq, List.mem_cons] at member
            simp only [RankState.advance, events_append, events_cons, Instr.event,
              Option.toList_some, events_nil, List.append_nil]
            rw [afterEq]
            exact member.resolve_left fun same => different (by rw [← isPiece, same])
          · intro piece found kept
            obtain ⟨other, member, isPiece⟩ := sends piece found (by
              simpa [RankState.advance, Variables.assign] using kept)
            exact ⟨other, by simpa [RankState.advance, Instr.event] using member, isPiece⟩
      | waitSend post =>
          obtain rfl := waitedSend post rfl
          obtain ⟨later, opensEq, afterEq, -⟩ := onSchedule.waitSend_oldest bound todo
          constructor
          · intro piece found kept
            obtain ⟨other, member, isPiece⟩ := recvs piece found (by
              simpa [RankState.advance, Variables.assign] using kept)
            exact ⟨other, by simpa [RankState.advance, Instr.event] using member, isPiece⟩
          · intro piece found kept
            have different : piece ≠ post.pieceIndex := by
              rintro rfl
              simp [RankState.advance, Variables.assign] at kept
            obtain ⟨other, member, isPiece⟩ := sends piece found (by
              simpa [RankState.advance, Variables.assign, different] using kept)
            refine ⟨other, ?_, isPiece⟩
            rw [opensEq, List.mem_cons] at member
            simp only [RankState.advance, events_append, events_cons, Instr.event,
              Option.toList_some, events_nil, List.append_nil]
            rw [afterEq]
            exact member.resolve_left fun same => different (by rw [← isPiece, same])
      | _ => simp [Instr.event] at event

theorem tidy_of_reachable {transport : Transport Value Net Request} {net : Net}
    {world : World Value Net Request} (reachable : Reachable setup transport net world) :
    ∀ rank < setup.worldSize, (world.rank rank).Tidy := by
  apply Runs.Reachable.strengthen
    (fun world => ∀ rank < setup.worldSize, (world.rank rank).Tidy) reachable
  · intro rank _
    simp [initialWorld, initialRank, RankState.Tidy]
  · intro before after earlier tidy step rank bound
    cases step with
    | background done => exact tidy rank bound
    | rank mover moverBound stepped =>
        have taken := rankStep_cases stepped
        by_cases same : rank = mover
        · subst same
          have here := tidy rank bound
          cases taken with
          | enter call idle succeeded next =>
              rw [World.put_rank_same]
              exact here.quiet rfl rfl
          | busy instr rest net memory todo outcome => rwa [World.put_rank_same]
          | next instr rest net memory vars todo outcome =>
              rw [World.put_rank_same]
              exact here.next (onSchedule_of_reachable earlier rank) bound todo outcome
          | stop instr rest net memory status todo outcome =>
              rw [World.put_rank_same]
              refine here.quiet ?_ rfl
              by_cases success : status = .success
              · obtain rfl := perform_stop_success (success ▸ outcome)
                exact leave_log _ _ rfl
              · simp [RankState.leave, success]
        · have kept : after.rank rank = before.rank rank := by
            cases taken <;> exact World.put_rank_other _ _ _ _ _ same
          rw [kept]
          exact tidy rank bound

end Bounds

/-- No more than `max_inflight` receives or sends are open at any time, every post starts from an
empty request, and a call that returns successfully has waited for all it posted: batch by batch,
the receives and then the sends, in posting order. -/
theorem requests_bounded_and_consumed {transport : Transport Value Net Request} {net : Net}
    {world : World Value Net Request} (reachable : Reachable setup transport net world)
    (bound : rank < setup.worldSize) :
    (openRecvs (events (world.rank rank).log)).length ≤
        (effectiveConfig (setup.config rank)).maxInflight ∧
      (openSends (events (world.rank rank).log)).length ≤
        (effectiveConfig (setup.config rank)).maxInflight ∧
      (∀ post rest, (world.rank rank).todo = .postRecv post :: rest →
        (world.rank rank).vars.requests (.recv post.pieceIndex) = none) ∧
      (∀ post rest, (world.rank rank).todo = .postSend post :: rest →
        (world.rank rank).vars.requests (.send post.pieceIndex) = none) ∧
      ∀ call args, setup.calls[call]? = some args → (world.rank rank).Returned call .success →
        (∃ batches, events (operationsOf call (world.rank rank).log) = run batches ∧
          (∀ batch ∈ batches,
            batch.recvs.length ≤ (effectiveConfig (setup.config rank)).maxInflight ∧
            batch.sends.length ≤ (effectiveConfig (setup.config rank)).maxInflight) ∧
          (allRecvs batches).Nodup ∧ (allSends batches).Nodup) ∧
        openRecvs (events (world.rank rank).log) = [] ∧
        openSends (events (world.rank rank).log) = [] ∧
        ∀ slot, (world.rank rank).vars.requests slot = none := by
  have onSchedule := onSchedule_of_reachable reachable rank
  obtain ⟨recvBound, sendBound⟩ := open_length (onSchedule.events_log bound)
  obtain ⟨recvsKept, sendsKept⟩ := tidy_of_reachable reachable rank bound
  refine ⟨recvBound, sendBound, ?_, ?_, ?_⟩
  · intro post rest todo
    rw [Option.eq_none_iff_forall_ne_some]
    intro request kept
    obtain ⟨other, member, same⟩ := recvsKept _ request kept
    exact ((onSchedule.postRecv_new bound todo).2 other member).2.1 same
  · intro post rest todo
    rw [Option.eq_none_iff_forall_ne_some]
    intro request kept
    obtain ⟨other, member, same⟩ := sendsKept _ request kept
    exact onSchedule.postSend_apart bound todo other member same
  · intro call args found returned
    obtain ⟨accepted, eventsEq⟩ := onSchedule.events_operations bound found returned
    obtain ⟨-, noError, log⟩ := onSchedule.operations found returned
    have callBound := (List.getElem?_eq_some_iff.mp found).1
    have whole : events (world.rank rank).log = run (setup.planUpTo rank (call + 1)) := by
      rw [log]
      exact events_codeUpTo bound callBound fun status member =>
        onSchedule.noError status (by rwa [log])
    have noRecvs : openRecvs (events (world.rank rank).log) = [] := by
      simp [whole, openRecvs]
    have noSends : openSends (events (world.rank rank).log) = [] := by
      simp [whole, openSends]
    have inPlan : (args.kind.stages setup.worldSize).flatMap (stageBatches (setup.context rank
        (setup.sequenceAt call) call) args.count args.datatype) <:+: setup.plan rank := by
      obtain ⟨later, planEq⟩ := setup.planUpTo_isPrefix rank callBound
      rw [setup.planUpTo_succ, found] at planEq
      simp only [accepted.1, if_true] at planEq
      exact ⟨_, _, planEq⟩
    refine ⟨⟨_, eventsEq, ?_, ?_, ?_⟩, noRecvs, noSends, ?_⟩
    · intro batch member
      exact plan_length (inPlan.subset member)
    · obtain ⟨before, after, planEq⟩ := inPlan
      have nodup := (setup.plan_posts_nodup rank).1
      rw [← planEq, allRecvs_append, allRecvs_append] at nodup
      exact nodup.of_append_left.of_append_right
    · obtain ⟨before, after, planEq⟩ := inPlan
      have nodup := (setup.plan_posts_nodup rank).2
      rw [← planEq, allSends_append, allSends_append] at nodup
      exact nodup.of_append_left.of_append_right
    · intro slot
      rw [Option.eq_none_iff_forall_ne_some]
      intro request kept
      cases slot with
      | recv piece =>
          obtain ⟨post, member, -⟩ := recvsKept piece request kept
          simp [noRecvs] at member
      | send piece =>
          obtain ⟨post, member, -⟩ := sendsKept piece request kept
          simp [noSends] at member

theorem requests_bounded_and_consumed_pair : ∃ world, MockReachable (pairSetup 1) world ∧
    (openRecvs (events (world.rank 1).log)).length ≤ 4 ∧ ∀ slot,
      (world.rank 1).vars.requests slot = none := by
  obtain ⟨world, reachable, -, returned⟩ := pair_run
  have bounded := requests_bounded_and_consumed reachable (show 1 < (pairSetup 1).worldSize by decide)
  exact ⟨world, reachable, bounded.1, (bounded.2.2.2.2 0 _ rfl returned).2.2.2⟩

end RingAllReduce
