import RingAllReduce.AllReduceValue
import RingAllReduce.MockProgress
import RingAllReduce.ZeroCopyLinks

/-! The zero-copy transport refines the one that copies when a send is posted. -/

namespace RingAllReduce

open Exchange Rotation TagQueue

variable {Value Part Net Request : Type} {parts : Parts Value Part} {setup : Setup Value}

/-- Two ranks, over different transports, that are at the same point of their calls. -/
structure Mirrors {Other : Type} (state : RankState Request) (mirror : RankState Other) : Prop where
  sequence : mirror.vars.sequence = state.vars.sequence
  owned : mirror.vars.owned = state.vars.owned
  todo : mirror.todo = state.todo
  results : mirror.results = state.results
  log : mirror.log = state.log

/-- Two answers that differ at most in the requests. -/
inductive Verdict.Mirrors {Other : Type} : Verdict Request → Verdict Other → Prop
  | next (vars : Variables Request) (vars' : Variables Other)
      (sequence : vars'.sequence = vars.sequence) (owned : vars'.owned = vars.owned) :
      Mirrors (.next vars) (.next vars')
  | stop (status : Status) : Mirrors (.stop status) (.stop status)

section Mirrors

variable {Other : Type} {state : RankState Request} {mirror : RankState Other}

theorem Mirrors.enter (mirrors : Mirrors state mirror) (rank : Nat) (call : Call Value) :
    Mirrors (state.enter setup rank call) (mirror.enter setup rank call) := by
  refine ⟨mirrors.sequence, mirrors.owned, ?_, mirrors.results, mirrors.log⟩
  simp only [RankState.enter, mirrors.sequence, mirrors.results]

theorem Mirrors.advance (mirrors : Mirrors state mirror) {vars : Variables Request}
    {vars' : Variables Other} (sequence : vars'.sequence = vars.sequence)
    (owned : vars'.owned = vars.owned) (instr : Instr) (rest : List Instr) :
    Mirrors (state.advance vars instr rest) (mirror.advance vars' instr rest) := by
  refine ⟨sequence, owned, rfl, mirrors.results, ?_⟩
  simp only [RankState.advance, mirrors.log]

theorem Mirrors.leave (mirrors : Mirrors state mirror) (instr : Instr) (status : Status) :
    Mirrors (state.leave instr status) (mirror.leave instr status) := by
  refine ⟨mirrors.sequence, mirrors.owned, rfl, ?_, ?_⟩
  · simp only [RankState.leave, mirrors.results]
  · simp only [RankState.leave, mirrors.log]

end Mirrors

/-- Whether an operation of the rank itself fails does not depend on the data. -/
theorem performLocal_error {rank : Nat} {memory : Memory Value} {instr : Instr} {status : Status}
    (failed : performLocal setup rank memory instr = .error status) (other : Memory Value) :
    performLocal setup rank other instr = .error status := by
  cases instr with
  | load call =>
      simp only [performLocal] at failed
      split at failed <;> simp at failed
  | reduce destination source count datatype operation =>
      by_cases empty : count = 0
      · simp [performLocal, reduceInPlace, empty] at failed
      · cases datatype <;> cases operation <;>
          simp_all [performLocal, reduceInPlace, reduceTyped]
  | ret code => exact failed
  | _ => simp [performLocal] at failed

theorem perform_local_mirror {Other OtherNet : Type} {transport : Transport Value Net Request}
    (other : Transport Value OtherNet Other) {rank : Nat} {instr : Instr}
    (noEvent : instr.event = none) {vars : Variables Request} {vars' : Variables Other}
    (sequence : vars'.sequence = vars.sequence) (owned : vars'.owned = vars.owned)
    {net net' : Net} {memory memory' : Memory Value} {verdict : Verdict Request}
    (outcome : perform setup transport rank vars net memory instr = .done (net', memory') verdict)
    (otherNet : OtherNet) (otherMemory : Memory Value) :
    ∃ after verdict', perform setup other rank vars' otherNet otherMemory instr =
        .done (otherNet, after) verdict' ∧ verdict.Mirrors verdict' := by
  cases instr with
  | postRecv post | postSend post | waitRecv post | waitSend post => simp [Instr.event] at noEvent
  | storeOwned block =>
      simp only [perform, Outcome.done.injEq] at outcome
      obtain ⟨-, rfl⟩ := outcome
      exact ⟨otherMemory, _, rfl, .next _ _ sequence rfl⟩
  | advanceSequence =>
      simp only [perform, Outcome.done.injEq] at outcome
      obtain ⟨-, rfl⟩ := outcome
      exact ⟨otherMemory, _, rfl, .next _ _ (by simp only [sequence]) owned⟩
  | load call | copyInput count | reduce _ _ _ _ _ | ret status =>
      simp only [perform] at outcome ⊢
      generalize performed : performLocal setup rank memory _ = result at outcome
      cases result with
      | ok after =>
          obtain ⟨-, rfl⟩ := Outcome.done.inj outcome
          generalize performed' : performLocal setup rank otherMemory _ = result'
          cases result' with
          | ok after' => exact ⟨after', _, rfl, .next _ _ sequence owned⟩
          | error status =>
              rw [performLocal_error performed'] at performed
              simp at performed
      | error status =>
          obtain ⟨-, rfl⟩ := Outcome.done.inj outcome
          rw [performLocal_error performed]
          exact ⟨otherMemory, _, rfl, .stop status⟩

theorem rankStep_of_next {transport : Transport Value Net Request} {rank : Nat}
    {world : World Value Net Request} {instr : Instr} {rest : List Instr}
    (todo : (world.rank rank).todo = instr :: rest) {net : Net} {memory : Memory Value}
    {vars : Variables Request}
    (outcome : perform setup transport rank (world.rank rank).vars world.net (world.memory rank)
      instr = .done (net, memory) (.next vars)) :
    rankStep setup transport rank world =
      some (world.put rank ((world.rank rank).advance vars instr rest) net memory) := by
  simp only [rankStep, todo, outcome]

theorem rankStep_of_stop {transport : Transport Value Net Request} {rank : Nat}
    {world : World Value Net Request} {instr : Instr} {rest : List Instr}
    (todo : (world.rank rank).todo = instr :: rest) {net : Net} {memory : Memory Value}
    {status : Status}
    (outcome : perform setup transport rank (world.rank rank).vars world.net (world.memory rank)
      instr = .done (net, memory) (.stop status)) :
    rankStep setup transport rank world =
      some (world.put rank ((world.rank rank).leave instr status) net memory) := by
  simp only [rankStep, todo, outcome]

section Simulation

variable {before after : ZeroCopyWorld Value Part} {mirror : MockWorld Value} {mover : Nat}

theorem mirrors_put (mirrors : ∀ rank < setup.worldSize,
      Mirrors (before.rank rank) (mirror.rank rank))
    {state : RankState ZeroCopyRequest} {state' : RankState RequestState}
    (moved : Mirrors state state') (net : ZeroCopyNet Part) (memory : Memory Value)
    (ring : MockRing Value) (memory' : Memory Value) :
    ∀ rank < setup.worldSize, Mirrors ((before.put mover state net memory).rank rank)
      ((mirror.put mover state' ring memory').rank rank) := by
  intro rank bound
  by_cases same : rank = mover
  · subst same
    simpa using moved
  · rw [World.put_rank_other _ _ _ _ _ same, World.put_rank_other _ _ _ _ _ same]
    exact mirrors rank bound

theorem ZeroCopyInvariant.sent_of_completed (inv : ZeroCopyInvariant parts setup before)
    (onSchedule : ∀ rank, OnSchedule setup rank (before.rank rank)) (same : setup.SamePieces)
    {prev : Nat} (prevBound : prev < setup.worldSize) {place : Nat} {cell : RecvCell}
    (found : (before.net.recvs (next setup.worldSize prev))[place]? = some cell)
    (completed : cell.completed = true) :
    (before.rank prev).sentPieces[place]? = some cell.post.toPiece := by
  obtain ⟨sent, expected⟩ := inv.posted onSchedule same prevBound
  have posted := inv.fed prev prevBound place cell found completed
  have target := (List.getElem?_eq_some_iff.mp found).1
  have wanted := Splits.prefix_getElem? expected (show place < _ by simpa using target)
  rw [Splits.prefix_getElem? sent (by simpa using posted), List.getElem?_map, List.getElem?_map,
    found, ← List.getElem?_map] at wanted
  rw [RankState.sentPieces, ← (inv.ends prev prevBound).sendCells, List.map_map]
  exact wanted

theorem mirror_step (same : setup.SamePieces) (inv : ZeroCopyInvariant parts setup before)
    (onSchedule : ∀ rank, OnSchedule setup rank (before.rank rank))
    (reached : MockReachable setup mirror)
    (mirrors : ∀ rank < setup.worldSize, Mirrors (before.rank rank) (mirror.rank rank))
    (bound : mover < setup.worldSize)
    (taken : RankStep setup (zeroCopyTransport parts setup.worldSize) mover before after) :
    ∃ mirror', Step setup (mockTransport Value setup.worldSize) mirror mirror' ∧
      ∀ rank < setup.worldSize, Mirrors (after.rank rank) (mirror'.rank rank) := by
  have mine := mirrors mover bound
  cases taken with
  | enter call idle succeeded next =>
      refine ⟨_, .rank mover bound ?_, mirrors_put mirrors (mine.enter mover call) _ _ mirror.net
        (mirror.memory mover)⟩
      have allDone : (before.rank mover).results.all (· = .success) = true := by
        simpa using succeeded
      simp only [rankStep, mine.todo, idle, allDone, if_true, mine.results, next]
  | busy instr rest net memory todo outcome => exact absurd outcome zeroCopy_not_busy
  | stop instr rest net memory status todo outcome =>
      have todo' := mine.todo.trans todo
      cases event : instr.event with
      | none =>
          obtain ⟨memory', verdict, performed, agrees⟩ := perform_local_mirror
            (mockTransport Value setup.worldSize) event mine.sequence mine.owned outcome mirror.net
            (mirror.memory mover)
          cases agrees with
          | stop status =>
              exact ⟨_, .rank mover bound (rankStep_of_stop todo' performed),
                mirrors_put mirrors (mine.leave instr status) _ _ _ _⟩
      | some _ =>
          cases instr with
          | postRecv post | postSend post =>
              simp [perform, zeroCopyTransport, zeroCopyPostRecv, zeroCopyPostSend, Outcome.map]
                at outcome
          | waitRecv post =>
              have answer := ((inv.ends mover bound).perform_waitRecv (onSchedule mover) bound todo
                rfl outcome).2.1
              simp at answer
          | waitSend post =>
              have answer := ((inv.ends mover bound).perform_waitSend (onSchedule mover) bound todo
                rfl outcome).2.1
              simp at answer
          | _ => simp [Instr.event] at event
  | next instr rest net memory vars todo outcome =>
      have todo' := mine.todo.trans todo
      cases event : instr.event with
      | none =>
          obtain ⟨memory', verdict, performed, agrees⟩ := perform_local_mirror
            (mockTransport Value setup.worldSize) event mine.sequence mine.owned outcome mirror.net
            (mirror.memory mover)
          cases agrees with
          | next vars vars' sequence owned =>
              exact ⟨_, .rank mover bound (rankStep_of_next todo' performed),
                mirrors_put mirrors (mine.advance sequence owned instr rest) _ _ _ _⟩
      | some _ =>
          cases instr with
          | postRecv post =>
              obtain ⟨ring, memory', request, performed⟩ := @mock_postRecv _ setup mover
                (mirror.rank mover).vars mirror.net (mirror.memory mover) post
              simp only [perform, zeroCopyTransport, zeroCopyPostRecv, Outcome.map,
                Outcome.done.injEq, Verdict.next.injEq] at outcome
              obtain ⟨-, rfl⟩ := outcome
              exact ⟨_, .rank mover bound (rankStep_of_next todo' performed), mirrors_put mirrors
                (mine.advance (by exact mine.sequence) (by exact mine.owned) _ rest) _ _ _ _⟩
          | postSend post =>
              simp only [perform, zeroCopyTransport, zeroCopyPostSend, Outcome.map,
                Outcome.done.injEq, Verdict.next.injEq] at outcome
              obtain ⟨-, rfl⟩ := outcome
              exact ⟨_, .rank mover bound (rankStep_of_next todo' rfl), mirrors_put mirrors
                (mine.advance (by exact mine.sequence) (by exact mine.owned) _ rest) _ _ _ _⟩
          | waitSend post =>
              have answer := ((inv.ends mover bound).perform_waitSend (onSchedule mover) bound todo
                rfl outcome).2.1
              obtain rfl := Verdict.next.inj answer
              obtain ⟨performed, -⟩ := (mockInvariant_of_reachable reached).waitSend_step
                (onSchedule_of_reachable reached mover) bound todo'
              exact ⟨_, .rank mover bound (rankStep_of_next todo' performed), mirrors_put mirrors
                (mine.advance (by exact mine.sequence) (by exact mine.owned) _ rest) _ _ _ _⟩
          | waitRecv post =>
              obtain ⟨-, answer, cell, found, postEq, completed⟩ := (inv.ends mover bound).perform_waitRecv
                (onSchedule mover) bound todo rfl outcome
              obtain rfl := Verdict.next.inj answer
              obtain ⟨prev, prevBound, isNext⟩ := exists_prev bound
              have sent := inv.sent_of_completed onSchedule same prevBound (by rw [isNext]; exact found)
                completed
              have waited : (mirror.rank mover).waitedPieces.length =
                  (recvWaits (events (before.rank mover).log)).length := by
                rw [RankState.waitedPieces, mine.log, List.length_map]
              have pieces : (mirror.rank prev).sentPieces = (before.rank prev).sentPieces := by
                rw [RankState.sentPieces, RankState.sentPieces, (mirrors prev prevBound).log]
              obtain ⟨ring, memory', performed⟩ :=
                (mockInvariant_of_reachable reached).waitRecv_answered
                  (fun rank => onSchedule_of_reachable reached rank) prevBound isNext todo'
                  (by rw [pieces, waited, sent, postEq])
              exact ⟨_, .rank mover bound (rankStep_of_next todo' performed), mirrors_put mirrors
                (mine.advance (by exact mine.sequence) (by exact mine.owned) _ rest) _ _ _ _⟩
          | _ => simp [Instr.event] at event

/-- Every run over the zero-copy transport is mirrored by a run over the mock. -/
theorem exists_mirror (same : setup.SamePieces) {world : ZeroCopyWorld Value Part}
    (reachable : ZeroCopyReachable parts setup world) :
    ∃ mirror, MockReachable setup mirror ∧
      ∀ rank < setup.worldSize, Mirrors (world.rank rank) (mirror.rank rank) := by
  apply Runs.Reachable.strengthen (fun world => ∃ mirror, MockReachable setup mirror ∧
    ∀ rank < setup.worldSize, Mirrors (world.rank rank) (mirror.rank rank)) reachable
  · exact ⟨_, .refl, fun rank _ => ⟨rfl, rfl, rfl, rfl, rfl⟩⟩
  · rintro before after earlier ⟨mirror, reached, mirrors⟩ step
    cases step with
    | background done => exact ⟨mirror, reached, mirrors⟩
    | rank mover bound taken =>
        obtain ⟨mirror', stepped, mirrors'⟩ := mirror_step same
          (zeroCopyInvariant_of_reachable same earlier)
          (fun rank => onSchedule_of_reachable earlier rank) reached mirrors bound
          (rankStep_cases taken)
        exact ⟨mirror', reached.next stepped, mirrors'⟩

end Simulation

/-- Over a transport that reads the source of a send and writes the destination of a receive part by
part and at any moment, every run is that of the mock: the ranks are at the same points of their
calls, and the work buffers are equal after every successful call. For no rank touches what its
open requests cover, and no open receive overlaps another open request. -/
theorem zeroCopy_refines (same : setup.SamePieces) {world : ZeroCopyWorld Value Part}
    (reachable : ZeroCopyReachable parts setup world) :
    (∃ mirror, MockReachable setup mirror ∧
      ∀ rank < setup.worldSize, Mirrors (world.rank rank) (mirror.rank rank)) ∧
    (∀ mirror, MockReachable setup mirror → ∀ rank < setup.worldSize, ∀ call,
      (world.rank rank).Returned call .success → (mirror.rank rank).Returned call .success →
        world.memory rank .workbuf = mirror.memory rank .workbuf) ∧
    ∀ rank < setup.worldSize,
      (∀ cell ∈ world.net.sends rank, cell.completed = false →
        cell.post ∈ openSends (events (world.rank rank).log)) ∧
      (∀ cell ∈ world.net.recvs rank, cell.completed = false →
        cell.post ∈ openRecvs (events (world.rank rank).log)) ∧
      (openRecvs (events (world.rank rank).log)).Nodup ∧
      Apart (openRecvs (events (world.rank rank).log)) (openSends (events (world.rank rank).log)) ∧
      ∀ instr rest, (world.rank rank).todo = instr :: rest →
        RaceFree (events (world.rank rank).log) instr := by
  have inv := zeroCopyInvariant_of_reachable same reachable
  have onSchedule := fun rank => onSchedule_of_reachable reachable rank
  refine ⟨exists_mirror same reachable, ?_, ?_⟩
  · intro mirror reached rank bound call returned returned'
    obtain ⟨made, log⟩ := (onSchedule rank).log_returned returned
    obtain ⟨-, log'⟩ := (onSchedule_of_reachable reached rank).log_returned returned'
    have noneOpen := ((onSchedule rank).returned bound (List.getElem?_eq_getElem made) returned).1
    have agree := (inv.ends rank bound).landing.agree
    have agree' := (mockInvariant_of_reachable reached).memory rank bound
    rw [RankState.opens, log', ← log] at agree'
    rw [noneOpen] at agree agree'
    funext index
    rw [agree .workbuf index (by simp), agree' .workbuf index (by simp)]
  · intro rank bound
    have ends := inv.ends rank bound
    have ahead := (onSchedule rank).events_log bound
    refine ⟨?_, ?_, (open_nodup ahead).1, open_apart bound ahead, ?_⟩
    · intro cell member incomplete
      obtain ⟨place, found⟩ := List.mem_iff_getElem?.mp member
      exact ends.open_send found incomplete
    · intro cell member incomplete
      obtain ⟨place, found⟩ := List.mem_iff_getElem?.mp member
      exact ends.open_recv found incomplete
    · intro instr rest todo
      exact (onSchedule rank).raceFree bound todo

def bothRanks (operations : Nat) : List ZeroCopyMove :=
  List.replicate operations (.rank 0) ++ List.replicate operations (.rank 1)

/-- The transfer of the only element of a message, from each of two ranks to the other. -/
def bothTransfers (place : Nat) : List ZeroCopyMove :=
  [0, 1].flatMap fun sender => [.fetch sender place 0 0, .deliver sender place 0 0,
    .completeRecv sender place, .completeSend sender place]

/-- Both ranks add up two elements each, and return with the sums. -/
theorem zeroCopy_refines_pair : ∃ world mirror, ZeroCopyReachable (Parts.whole Nat) (pairSetup 1) world ∧
    (∀ rank < 2, (world.rank rank).results = [.success]) ∧ world.memory 1 .workbuf 1 = 12 ∧
    MockReachable (pairSetup 1) mirror ∧ ∀ rank < 2, Mirrors (world.rank rank) (mirror.rank rank) ∧
      world.memory rank .workbuf = mirror.memory rank .workbuf := by
  have ran : (Runs.follow (zeroCopyMove (Parts.whole Nat) (pairSetup 1)) (bothRanks 4 ++
      bothTransfers 0 ++ bothRanks 6 ++ bothTransfers 1 ++ bothRanks 4)
      (initialWorld (pairSetup 1) emptyCells)).map (fun world =>
        ([0, 1].map fun rank => ((world.rank rank).todo, (world.rank rank).results),
          world.memory 1 .workbuf 1)) = some ([([], [.success]), ([], [.success])], 12) := by
    decide +kernel
  obtain ⟨world, followed, reached⟩ := Option.map_eq_some_iff.mp ran
  have reachable := zeroCopyReachable_of_follow followed
  simp only [List.map_cons, List.map_nil, Prod.mk.injEq, List.cons.injEq, and_true] at reached
  obtain ⟨⟨⟨todo0, results0⟩, todo1, results1⟩, sum⟩ := reached
  have results : ∀ rank < 2, (world.rank rank).results = [.success] := by
    intro rank bound
    obtain rfl | rfl : rank = 0 ∨ rank = 1 := by omega
    · exact results0
    · exact results1
  have returned : ∀ rank < 2, (world.rank rank).Returned 0 .success := by
    intro rank bound
    refine ⟨?_, by rw [results rank bound]; rfl, by rw [results rank bound]; rfl⟩
    obtain rfl | rfl : rank = 0 ∨ rank = 1 := by omega
    · exact todo0
    · exact todo1
  have same : (pairSetup 1).SamePieces := fun rank bound args member => rfl
  obtain ⟨⟨mirror, mirrored, mirrors⟩, equal, -⟩ := zeroCopy_refines same reachable
  refine ⟨world, mirror, reachable, results, sum, mirrored, fun rank bound => ?_⟩
  have mine := mirrors rank bound
  obtain ⟨idle, last, status⟩ := returned rank bound
  have there : (mirror.rank rank).Returned 0 .success :=
    ⟨mine.todo.trans idle, by rw [mine.results]; exact last, by rw [mine.results]; exact status⟩
  exact ⟨mine, equal mirror mirrored rank bound 0 (returned rank bound) there⟩

end RingAllReduce
