import RingAllReduce.Agreement
import RingAllReduce.EndpointRing

/-!
What a rank of a ring does with its `VerbsTransport`, whatever its arguments and its neighbours, is
one of the uses `VerbsTransport.Step` allows; a turn of `wait_request` is like a call of `progress`.
-/

namespace RingAllReduce.EndpointRing

open Rotation VerbsTransport

variable {Value : Type}

section Nets

variable {Net Request : Type}

def Outcome.net? {Answer : Type} : Outcome (Net × Memory Value) Answer → Option Net
  | .blocked => none
  | .busy state => some state.1
  | .done state _ => some state.1

theorem Outcome.net?_map {Answer Result : Type} (convert : Answer → Result)
    (outcome : Outcome (Net × Memory Value) Answer) :
    Outcome.net? (outcome.map convert) = Outcome.net? outcome := by
  cases outcome <;> rfl

/-- What the functions of a transport may do to the net of a rank. -/
structure Moves (transport : Transport Value Net Request) (rank : Nat) (net : Net)
    (moved : Net → Prop) : Prop where
  stays : moved net
  postRecv : ∀ post memory after,
    Outcome.net? (transport.postRecv rank post net memory) = some after → moved after
  postSend : ∀ post memory after,
    Outcome.net? (transport.postSend rank post net memory) = some after → moved after
  wait : ∀ request memory after,
    Outcome.net? (transport.wait rank request net memory) = some after → moved after

variable {setup : Setup Value} {transport : Transport Value Net Request} {rank : Nat} {net after : Net}
  {moved : Net → Prop}

theorem Moves.perform (moves : Moves transport rank net moved) {vars : Variables Request}
    {memory : Memory Value} {instr : Instr}
    (performed : Outcome.net? (perform setup transport rank vars net memory instr) = some after) :
    moved after := by
  cases instr with
  | postRecv post =>
      simp only [RingAllReduce.perform, Outcome.net?_map] at performed
      exact moves.postRecv post memory after performed
  | postSend post =>
      simp only [RingAllReduce.perform, Outcome.net?_map] at performed
      exact moves.postSend post memory after performed
  | waitRecv post =>
      simp only [RingAllReduce.perform] at performed
      split at performed
      · obtain rfl := Option.some.inj performed
        exact moves.stays
      · rw [Outcome.net?_map] at performed
        exact moves.wait _ memory after performed
  | waitSend post =>
      simp only [RingAllReduce.perform] at performed
      split at performed
      · obtain rfl := Option.some.inj performed
        exact moves.stays
      · rw [Outcome.net?_map] at performed
        exact moves.wait _ memory after performed
  | storeOwned block | advanceSequence =>
      obtain rfl := Option.some.inj performed
      exact moves.stays
  | load call | copyInput count | reduce _ _ _ _ _ | ret status =>
      simp only [RingAllReduce.perform] at performed
      split at performed
      · obtain rfl := Option.some.inj performed
        exact moves.stays
      · obtain rfl := Option.some.inj performed
        exact moves.stays

theorem Moves.rankStep {world later : World Value Net Request}
    (moves : Moves transport rank world.net moved) (taken : rankStep setup transport rank world =
      some later) : moved later.net := by
  cases rankStep_cases taken with
  | enter call idle succeeded next => exact moves.stays
  | busy instr rest net memory todo outcome =>
      exact moves.perform (congrArg Outcome.net? outcome)
  | next instr rest net memory vars todo outcome =>
      exact moves.perform (congrArg Outcome.net? outcome)
  | stop instr rest net memory status todo outcome =>
      exact moves.perform (congrArg Outcome.net? outcome)

end Nets

/-! One endpoint. -/

section Endpoint

variable {endpoint after : VerbsTransport} {offer : Offer}

/-- The transport a call has come to, also where it waits. -/
def soFar {Answer : Type} : CallResult Answer → Option VerbsTransport
  | .returned _ transport => some transport
  | .threw _ transport => some transport
  | .waiting transport => some transport
  | .undefined => none

theorem handleCompletion_not_waiting (completion : WorkCompletion) (transport : VerbsTransport) :
    endpoint.handleCompletion completion ≠ .waiting transport := by
  unfold handleCompletion
  simp only
  repeat' split
  all_goals simp

theorem ibvPollCq_single (limit : Nat) :
    endpoint.ibvPollCq (limit + 1) [offer] = endpoint.ibvPollCq 1 [offer] := by
  simp [ibvPollCq]

theorem ibvPollCq_few : (endpoint.ibvPollCq 1 [offer]).1.length ≤ 1 := by
  simp only [ibvPollCq, List.take_succ_cons, List.take_nil, complete]
  split <;> simp

theorem waitLoop_turn {address : Address}
    (turned : soFar (endpoint.waitLoop address [[offer]]) = some after) :
    Relation.ReflGen VerbsTransport.Step endpoint after := by
  have few := @ibvPollCq_few endpoint offer
  have same := @ibvPollCq_single endpoint offer 15
  have progress : ∀ result : CallResult Nat, endpoint.pollAvailable [[offer]] 0 = result →
      (∀ transport, result ≠ .waiting transport) → soFar result = some after →
        Relation.ReflGen VerbsTransport.Step endpoint after := by
    intro result isResult never reached
    refine .single ⟨.progress [[offer]], trivial, ?_⟩
    simp only [call, VerbsTransport.progress, isResult]
    cases result with
    | returned _ transport => exact reached
    | threw _ transport => exact reached
    | waiting transport => exact absurd rfl (never transport)
    | undefined => exact reached
  simp only [waitLoop] at turned
  simp only [pollAvailable, same] at progress
  split at turned
  · simp [soFar] at turned
  · split at turned
    · obtain rfl := Option.some.inj turned
      exact .refl
    · generalize endpoint.ibvPollCq 1 [offer] = polled at turned few progress
      obtain ⟨completions, middle⟩ := polled
      cases completions with
      | nil =>
          refine progress _ rfl (by simp) ?_
          simp only at turned
          split at turned
          · simp [soFar] at turned
          · split at turned <;> exact turned
      | cons completion rest =>
          obtain rfl : rest = [] := by simpa using few
          simp only [handleAll] at progress
          simp only at turned
          cases handled : middle.handleCompletion completion with
          | returned _ transport =>
              refine progress _ rfl (by simp [handled, CallResult.bind]) ?_
              simp only [handled, CallResult.bind] at turned ⊢
              split at turned
              · simp [soFar] at turned
              · split at turned <;> exact turned
          | threw text transport =>
              refine progress _ rfl (by simp [handled, CallResult.bind]) ?_
              simpa only [handled, CallResult.bind, soFar] using turned
          | waiting transport => exact absurd handled (handleCompletion_not_waiting _ _)
          | undefined => simp [handled, CallResult.bind, soFar] at turned

end Endpoint

/-! All endpoints of a ring. -/

section Ring

variable {platform : Platform} {room : Nat → Bool} {sockets : Nat → Nat × Nat} {setup : Setup Value}
  {worldSize rank : Nat} {ring : Ring}

/-- No endpoint has been used in a way a rank may not. -/
def Ring.Lives (ring after : Ring) : Prop :=
  ∀ rank, Relation.ReflGen VerbsTransport.Step (ring.endpoints rank) (after.endpoints rank)

theorem Ring.lives_update {endpoint : VerbsTransport} {after : Ring}
    (endpoints : after.endpoints = Function.update ring.endpoints rank endpoint)
    (used : Relation.ReflGen VerbsTransport.Step (ring.endpoints rank) endpoint) :
    ring.Lives after := by
  intro other
  rw [endpoints]
  by_cases here : other = rank
  · subst here
    simpa using used
  · simpa [here] using Relation.ReflGen.refl

theorem finish_lives {post : Post} {memory : Memory Value}
    {result : CallResult Unit × Option PgRequest} {after : Ring}
    (finished : Outcome.net? (ring.finish rank post memory result) = some after) :
    ∃ endpoint, result.1.transport? = some endpoint ∧
      after.endpoints = Function.update ring.endpoints rank endpoint := by
  obtain ⟨ended, request⟩ := result
  cases ended with
  | returned _ endpoint =>
      obtain rfl := Option.some.inj finished
      exact ⟨endpoint, rfl, rfl⟩
  | threw _ endpoint =>
      obtain rfl := Option.some.inj finished
      exact ⟨endpoint, rfl, rfl⟩
  | waiting endpoint => simp [Ring.finish, Outcome.net?] at finished
  | undefined => simp [Ring.finish, Outcome.net?] at finished

theorem wait_lives {request : PgRequest} {memory : Memory Value} {after : Ring}
    (waited : Outcome.net? (wait rank request ring memory) = some after) : ring.Lives after := by
  unfold wait at waited
  simp only at waited
  split at waited
  · rename_i status given endpoint returned
    obtain rfl := Option.some.inj waited
    refine Ring.lives_update rfl (.single ⟨.waitRequest [] (some request), trivial, ?_⟩)
    simp only [call, returned]
    rfl
  · rename_i text endpoint threw
    obtain rfl := Option.some.inj waited
    refine Ring.lives_update rfl (.single ⟨.waitRequest [] (some request), trivial, ?_⟩)
    simp only [call, threw]
    rfl
  · simp [Outcome.net?] at waited
  · split at waited
    · simp [Outcome.net?] at waited
    · rename_i offer rest queue
      have turn := fun endpoint =>
        @waitLoop_turn (ring.endpoints rank) endpoint offer request.internal
      split at waited
      · rename_i endpoint turned
        obtain rfl := Option.some.inj waited
        exact Ring.lives_update rfl (turn endpoint (by rw [turned]; rfl))
      · rename_i endpoint turned
        obtain rfl := Option.some.inj waited
        exact Ring.lives_update rfl (turn endpoint (by rw [turned]; rfl))
      · rename_i text endpoint turned
        obtain rfl := Option.some.inj waited
        exact Ring.lives_update rfl (turn endpoint (by rw [turned]; rfl))
      · simp [Outcome.net?] at waited

theorem ring_moves (platform : Platform) (room : Nat → Bool) (worldSize : Nat)
    (sound : Sound [] (ring.endpoints rank)) :
    Moves (endpointTransport Value platform room worldSize) rank ring ring.Lives := by
  have fresh : ∀ kind descriptor, (ring.endpoints rank).Fresh
      (answers platform room rank (ring.endpoints rank) kind descriptor) := fun _ _ =>
    platform.allocated _ sound
  constructor
  case stays => exact fun _ => .refl
  case postRecv =>
    intro post memory after posted
    obtain ⟨endpoint, ended, endpoints⟩ := finish_lives posted
    exact Ring.lives_update endpoints (.single ⟨.postReceivePrevious .., fresh _ _, ended⟩)
  case postSend =>
    intro post memory after posted
    simp only [endpointTransport, postSend] at posted
    split at posted
    · split at posted
      · simp [Outcome.net?] at posted
      · obtain ⟨endpoint, ended, endpoints⟩ := finish_lives posted
        exact Ring.lives_update endpoints (.single ⟨.postSendNext .., fresh _ _, ended⟩)
    · obtain ⟨endpoint, ended, endpoints⟩ := finish_lives posted
      exact Ring.lives_update endpoints (.single ⟨.postSendNext .., fresh _ _, ended⟩)
  case wait => exact fun request memory after waited => wait_lives waited

theorem device_endpoints {memory memory' : Nat → Memory Value} {after : Ring}
    (done : DeviceStep platform worldSize ring memory after memory') :
    after.endpoints = ring.endpoints := by
  cases done <;> rfl

/-- Whatever the ranks call and whatever goes wrong, each of them has used its transport as a rank
may. -/
theorem endpoint_reachable {world : EndpointWorld Value}
    (reachable : EndpointReachable platform room sockets setup world) (rank : Nat) :
    VerbsTransport.Reachable true true (sockets rank).1 (sockets rank).2
      (world.net.endpoints rank) := by
  suffices every : ∀ rank, VerbsTransport.Reachable true true (sockets rank).1 (sockets rank).2
      (world.net.endpoints rank) from every rank
  apply Runs.Reachable.invariant (fun world : EndpointWorld Value => ∀ rank,
    VerbsTransport.Reachable true true (sockets rank).1 (sockets rank).2 (world.net.endpoints rank))
    reachable
  · exact fun rank => .refl
  · intro before after earlier step rank
    cases step with
    | rank mover bound taken =>
        have lives := (ring_moves platform room setup.worldSize (earlier mover).sound).rankStep taken
        exact (earlier rank).trans (lives rank).to_reflTransGen
    | background done =>
        rw [device_endpoints done]
        exact earlier rank

end Ring

end RingAllReduce.EndpointRing
