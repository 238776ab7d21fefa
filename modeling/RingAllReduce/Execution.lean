import Mathlib.Logic.Function.Basic
import RingAllReduce.Library.Runs
import RingAllReduce.RingCollectives

/-!
All ranks of a ring at work. Each rank makes the same list of calls on its own context and
performs their operations one by one, in any interleaving with the others; what posting and
waiting do is up to a transport (`pg_transport_ops_t`). A rank makes no further call after one
that did not return `PG_SUCCESS`.
-/

namespace RingAllReduce

inductive Kind where
  | allReduce
  | reduceScatter
  | allGather
  deriving DecidableEq, Repr

/-- One collective as all ranks call it. `sendbuf` and `workbuf` hold what each rank's buffers
contain at entry; of an in-place call only `workbuf` is used. `owned` is the `owned_block` a rank
passes to the All-Gather. -/
structure Call (Value : Type) where
  kind : Kind
  count : Nat
  datatype : Datatype
  operation : Operation
  inPlace : Nat → Bool
  owned : Nat → Int
  sendbuf : Nat → Nat → Value
  workbuf : Nat → Nat → Value

def callCode {Value : Type} (context : Context) (call : Call Value) : List Instr :=
  .load context.call :: match call.kind with
    | .allReduce =>
        ringAllReduce context (call.inPlace context.rank) call.count call.datatype call.operation
    | .reduceScatter =>
        ringReduceScatterInplace context call.count call.datatype call.operation ++
          [.ret .success]
    | .allGather =>
        ringAllGatherInplace context call.count call.datatype (call.owned context.rank) ++
          [.ret .success]

/-- A ring, its configurations and the calls its ranks make. -/
structure Setup (Value : Type) where
  worldSize : Nat
  positive : 0 < worldSize
  config : Nat → Option Config
  element : Datatype → Operation → Value → Value → Value
  calls : List (Call Value)
  memory : Nat → Memory Value

/-- The context of a rank before its call number `call`. -/
def Setup.context {Value : Type} (setup : Setup Value) (rank : Nat) (sequence : UInt32)
    (call : Nat) : Context :=
  { config := effectiveConfig (setup.config rank), rank := rank, worldSize := setup.worldSize,
    sequence := sequence, call := call }

theorem Setup.context_created {Value : Type} (setup : Setup Value) {rank : Nat}
    (bound : rank < setup.worldSize) :
    ringCollectiveCreate rank setup.worldSize (setup.config rank) =
      .ok (setup.context rank 0 0) := by
  have inside : ¬((rank : Int) < 0 ∨ (setup.worldSize : Int) ≤ 0 ∨ (setup.worldSize : Int) ≤ rank) := by
    omega
  rw [ringCollectiveCreate, if_neg inside]
  simp [Setup.context]

/-- The `PostedRequest` a wait refers to: its vector and its piece. -/
inductive Slot where
  | recv (piece : Nat)
  | send (piece : Nat)
  deriving DecidableEq, Repr

/-- What the transport makes of one of its functions: it blocks, it goes on for another step, or
it returns an answer. -/
inductive Outcome (State Answer : Type) where
  | blocked
  | busy (state : State)
  | done (state : State) (answer : Answer)

def Outcome.map {State Answer Result : Type} (convert : Answer → Result) :
    Outcome State Answer → Outcome State Result
  | .blocked => .blocked
  | .busy state => .busy state
  | .done state answer => .done state (convert answer)

theorem Outcome.map_eq_done {State Answer Result : Type} {convert : Answer → Result}
    {outcome : Outcome State Answer} {state : State} {result : Result}
    (done : outcome.map convert = .done state result) :
    ∃ answer, outcome = .done state answer ∧ convert answer = result := by
  cases outcome with
  | blocked => simp [Outcome.map] at done
  | busy _ => simp [Outcome.map] at done
  | done _ answer =>
      simp only [Outcome.map, Outcome.done.injEq] at done
      exact ⟨answer, by rw [done.1], done.2⟩

theorem Outcome.map_eq_busy {State Answer Result : Type} {convert : Answer → Result}
    {outcome : Outcome State Answer} {state : State}
    (busy : outcome.map convert = .busy state) : outcome = .busy state := by
  cases outcome with
  | blocked => simp [Outcome.map] at busy
  | busy _ => simpa [Outcome.map] using busy
  | done _ _ => simp [Outcome.map] at busy

theorem Outcome.map_eq_blocked {State Answer Result : Type} {convert : Answer → Result}
    {outcome : Outcome State Answer} (blocked : outcome.map convert = .blocked) :
    outcome = .blocked := by
  cases outcome <;> simp [Outcome.map] at blocked ⊢

/-- The functions of `pg_transport_ops_t` a collective uses, for the endpoint of a given rank.
A post answers with the new `request->internal`, or `none` where it fails; a wait answers whether
its status is zero. `background` is what the transport does on its own. -/
structure Transport (Value Net Request : Type) where
  postRecv : Nat → Post → Net → Memory Value → Outcome (Net × Memory Value) (Option Request)
  postSend : Nat → Post → Net → Memory Value → Outcome (Net × Memory Value) (Option Request)
  wait : Nat → Request → Net → Memory Value → Outcome (Net × Memory Value) Bool
  background : Net → (Nat → Memory Value) → Net → (Nat → Memory Value) → Prop

/-- The variables of a rank that its operations change. -/
structure Variables (Request : Type) where
  sequence : UInt32
  owned : Int
  requests : Slot → Option Request

/-- A rank: its variables, the operations its current call has yet to perform, the statuses its
calls returned, and the operations performed so far. -/
structure RankState (Request : Type) where
  vars : Variables Request
  todo : List Instr
  results : List Status
  log : List Instr

structure World (Value Net Request : Type) where
  rank : Nat → RankState Request
  memory : Nat → Memory Value
  net : Net

inductive Verdict (Request : Type) where
  | next (vars : Variables Request)
  | stop (status : Status)

variable {Value Net Request : Type}

def Variables.assign (vars : Variables Request) (slot : Slot) (request : Option Request) :
    Variables Request :=
  { vars with requests := Function.update vars.requests slot request }

/-- What a call finds in the rank's buffers at entry. -/
def Call.handOver (call : Call Value) (rank : Nat) (memory : Memory Value) : Memory Value
  | .workbuf => call.workbuf rank
  | .sendbuf => call.sendbuf rank
  | .temporary => memory .temporary

def performLocal (setup : Setup Value) (rank : Nat) (memory : Memory Value) :
    Instr → Except Status (Memory Value)
  | .load call => match setup.calls[call]? with
      | some call => .ok (call.handOver rank memory)
      | none => .ok memory
  | .copyInput count => .ok (memory.store .workbuf 0 (memory.load .sendbuf 0 count))
  | .reduce destination source count datatype operation =>
      match reduceInPlace setup.element (memory.load .workbuf destination count)
          (memory.load .temporary source count) count datatype operation with
      | .ok reduced => .ok (memory.store .workbuf destination reduced)
      | .error status => .error status
  | .ret status => .error status
  | _ => .ok memory

def perform (setup : Setup Value) (transport : Transport Value Net Request) (rank : Nat)
    (vars : Variables Request) (net : Net) (memory : Memory Value) (instr : Instr) :
    Outcome (Net × Memory Value) (Verdict Request) :=
  match instr with
  | .postRecv post => (transport.postRecv rank post net memory).map fun
      | some request => .next (vars.assign (.recv post.pieceIndex) (some request))
      | none => .stop .transport
  | .postSend post => (transport.postSend rank post net memory).map fun
      | some request => .next (vars.assign (.send post.pieceIndex) (some request))
      | none => .stop .transport
  | .waitRecv post => match vars.requests (.recv post.pieceIndex) with
      | none => .done (net, memory) (.stop .transport)
      | some request => (transport.wait rank request net memory).map fun ok =>
          if ok then .next (vars.assign (.recv post.pieceIndex) none) else .stop .transport
  | .waitSend post => match vars.requests (.send post.pieceIndex) with
      | none => .done (net, memory) (.stop .transport)
      | some request => (transport.wait rank request net memory).map fun ok =>
          if ok then .next (vars.assign (.send post.pieceIndex) none) else .stop .transport
  | .storeOwned block => .done (net, memory) (.next { vars with owned := block })
  | .advanceSequence => .done (net, memory) (.next { vars with sequence := vars.sequence + 1 })
  | other => match performLocal setup rank memory other with
      | .ok memory => .done (net, memory) (.next vars)
      | .error status => .done (net, memory) (.stop status)

def World.put (world : World Value Net Request) (rank : Nat) (state : RankState Request)
    (net : Net) (memory : Memory Value) : World Value Net Request :=
  { rank := Function.update world.rank rank state
    memory := Function.update world.memory rank memory
    net := net }

def RankState.enter (setup : Setup Value) (rank : Nat) (state : RankState Request)
    (call : Call Value) : RankState Request :=
  { state with
    todo := callCode (setup.context rank state.vars.sequence state.results.length) call }

def RankState.advance (state : RankState Request) (vars : Variables Request) (instr : Instr)
    (rest : List Instr) : RankState Request :=
  { state with vars := vars, todo := rest, log := state.log ++ [instr] }

def RankState.leave (state : RankState Request) (instr : Instr) (status : Status) :
    RankState Request :=
  { state with
    todo := []
    results := state.results ++ [status]
    log := if status = .success then state.log ++ [instr] else state.log }

/-- The next step of a rank, or `none` while it is blocked or has nothing left to do. -/
def rankStep (setup : Setup Value) (transport : Transport Value Net Request) (rank : Nat)
    (world : World Value Net Request) : Option (World Value Net Request) :=
  let state := world.rank rank
  match state.todo with
  | [] =>
      if state.results.all (· = .success) then
        match setup.calls[state.results.length]? with
        | some call =>
            some (world.put rank (state.enter setup rank call) world.net (world.memory rank))
        | none => none
      else none
  | instr :: rest =>
      match perform setup transport rank state.vars world.net (world.memory rank) instr with
      | .blocked => none
      | .busy (net, memory) => some (world.put rank state net memory)
      | .done (net, memory) (.next vars) =>
          some (world.put rank (state.advance vars instr rest) net memory)
      | .done (net, memory) (.stop status) =>
          some (world.put rank (state.leave instr status) net memory)

inductive Step (setup : Setup Value) (transport : Transport Value Net Request) :
    World Value Net Request → World Value Net Request → Prop
  | rank {before after : World Value Net Request} (rank : Nat) (bound : rank < setup.worldSize)
      (taken : rankStep setup transport rank before = some after) : Step setup transport before after
  | background {before : World Value Net Request} {net : Net} {memory : Nat → Memory Value}
      (done : transport.background before.net before.memory net memory) :
      Step setup transport before { before with net := net, memory := memory }

/-- Fresh contexts: nothing called, posted or returned yet. -/
def initialRank : RankState Request :=
  { vars := { sequence := 0, owned := -1, requests := fun _ => none }
    todo := [], results := [], log := [] }

def initialWorld (setup : Setup Value) (net : Net) : World Value Net Request :=
  { rank := fun _ => initialRank, memory := setup.memory, net := net }

def Reachable (setup : Setup Value) (transport : Transport Value Net Request) (net : Net)
    (world : World Value Net Request) : Prop :=
  Runs.Reachable (Step setup transport) (initialWorld setup net) world

inductive RankStep (setup : Setup Value) (transport : Transport Value Net Request) (rank : Nat)
    (world : World Value Net Request) : World Value Net Request → Prop
  | enter (call : Call Value) (idle : (world.rank rank).todo = [])
      (succeeded : ∀ status ∈ (world.rank rank).results, status = .success)
      (next : setup.calls[(world.rank rank).results.length]? = some call) :
      RankStep setup transport rank world
        (world.put rank ((world.rank rank).enter setup rank call) world.net (world.memory rank))
  | busy (instr : Instr) (rest : List Instr) (net : Net) (memory : Memory Value)
      (todo : (world.rank rank).todo = instr :: rest)
      (outcome : perform setup transport rank (world.rank rank).vars world.net
        (world.memory rank) instr = .busy (net, memory)) :
      RankStep setup transport rank world (world.put rank (world.rank rank) net memory)
  | next (instr : Instr) (rest : List Instr) (net : Net) (memory : Memory Value)
      (vars : Variables Request) (todo : (world.rank rank).todo = instr :: rest)
      (outcome : perform setup transport rank (world.rank rank).vars world.net
        (world.memory rank) instr = .done (net, memory) (.next vars)) :
      RankStep setup transport rank world
        (world.put rank ((world.rank rank).advance vars instr rest) net memory)
  | stop (instr : Instr) (rest : List Instr) (net : Net) (memory : Memory Value)
      (status : Status) (todo : (world.rank rank).todo = instr :: rest)
      (outcome : perform setup transport rank (world.rank rank).vars world.net
        (world.memory rank) instr = .done (net, memory) (.stop status)) :
      RankStep setup transport rank world
        (world.put rank ((world.rank rank).leave instr status) net memory)

theorem rankStep_cases {setup : Setup Value} {transport : Transport Value Net Request}
    {rank : Nat} {before after : World Value Net Request}
    (taken : rankStep setup transport rank before = some after) :
    RankStep setup transport rank before after := by
  simp only [rankStep] at taken
  split at taken
  · rename_i idle
    split at taken
    · rename_i succeeded
      split at taken
      · rename_i call next
        simp only [Option.some.injEq] at taken
        subst taken
        exact .enter call idle (by simpa using succeeded) next
      · simp at taken
    · simp at taken
  · rename_i instr rest todo
    split at taken
    · simp at taken
    · rename_i net memory outcome
      simp only [Option.some.injEq] at taken
      subst taken
      exact .busy instr rest net memory todo outcome
    · rename_i net memory vars outcome
      simp only [Option.some.injEq] at taken
      subst taken
      exact .next instr rest net memory vars todo outcome
    · rename_i net memory status outcome
      simp only [Option.some.injEq] at taken
      subst taken
      exact .stop instr rest net memory status todo outcome

/-- A rank with an operation to perform is stuck only where the transport blocks. -/
theorem rankStep_eq_none {setup : Setup Value} {transport : Transport Value Net Request}
    {rank : Nat} {world : World Value Net Request} {instr : Instr} {rest : List Instr}
    (todo : (world.rank rank).todo = instr :: rest)
    (stuck : rankStep setup transport rank world = none) :
    perform setup transport rank (world.rank rank).vars world.net (world.memory rank) instr =
      .blocked := by
  simp only [rankStep, todo] at stuck
  split at stuck <;> simp_all

section Put

variable (world : World Value Net Request) (rank : Nat) (state : RankState Request) (net : Net)
  (memory : Memory Value)

@[simp] theorem World.put_rank_same : (world.put rank state net memory).rank rank = state := by
  simp [World.put]

@[simp] theorem World.put_memory_same : (world.put rank state net memory).memory rank = memory := by
  simp [World.put]

@[simp] theorem World.put_net : (world.put rank state net memory).net = net := rfl

theorem World.put_rank_other {other : Nat} (different : other ≠ rank) :
    (world.put rank state net memory).rank other = world.rank other := by
  simp [World.put, different]

theorem World.put_memory_other {other : Nat} (different : other ≠ rank) :
    (world.put rank state net memory).memory other = world.memory other := by
  simp [World.put, different]

end Put

end RingAllReduce
