import Mathlib.Data.Finset.Basic
import Mathlib.Data.Finset.Lattice.Lemmas

/-!
Resources that are acquired and released again. A resource rests on others: they are held as long as
it is. A program that may fail acquires and releases resources on its way.
-/

namespace Leases

variable {Resource : Type}

inductive Action (Resource : Type) where
  | acquire (resource : Resource)
  | release (resource : Resource)
  deriving DecidableEq, Repr

def Action.resource : Action Resource → Resource
  | .acquire resource => resource
  | .release resource => resource

section Actions

variable [DecidableEq Resource] (bases : Resource → Finset Resource)

/-- A resource is acquired where it is not held but all that it rests on, and released where it is
held and nothing rests on it. Anything else is an error. -/
def act (held : Finset Resource) : Action Resource → Option (Finset Resource)
  | .acquire resource =>
      if resource ∉ held ∧ bases resource ⊆ held then some (insert resource held) else none
  | .release resource =>
      if resource ∈ held ∧ ∀ other ∈ held, resource ∉ bases other then some (held.erase resource)
      else none

def ledger (held : Finset Resource) : List (Action Resource) → Option (Finset Resource)
  | [] => some held
  | action :: rest => (act bases held action).bind fun held => ledger held rest

variable {bases} {held after : Finset Resource} {resource : Resource}
  {actions first second : List (Action Resource)}

theorem act_acquire (free : resource ∉ held) (supported : bases resource ⊆ held) :
    act bases held (.acquire resource) = some (insert resource held) :=
  if_pos ⟨free, supported⟩

theorem act_release (member : resource ∈ held) (top : ∀ other ∈ held, resource ∉ bases other) :
    act bases held (.release resource) = some (held.erase resource) :=
  if_pos ⟨member, top⟩

theorem ledger_append : ledger bases held (first ++ second) =
    (ledger bases held first).bind fun held => ledger bases held second := by
  induction first generalizing held with
  | nil => rfl
  | cons action first ih =>
      simp only [List.cons_append, ledger]
      cases act bases held action with
      | none => rfl
      | some between => exact ih

theorem ledger_trans {between : Finset Resource} (left : ledger bases held first = some between)
    (right : ledger bases between second = some after) :
    ledger bases held (first ++ second) = some after := by
  rw [ledger_append, left]
  exact right

/-- What is held besides, that no action is about and that rests on nothing released, stays held. -/
theorem ledger_frame {extra : Finset Resource} (performed : ledger bases held actions = some after)
    (apart : ∀ action ∈ actions, action.resource ∉ extra)
    (free : ∀ resource, .release resource ∈ actions → ∀ other ∈ extra, resource ∉ bases other) :
    ledger bases (held ∪ extra) actions = some (after ∪ extra) := by
  induction actions generalizing held with
  | nil =>
      obtain rfl := Option.some.inj performed
      rfl
  | cons action rest ih =>
      obtain ⟨between, acted, rested⟩ := Option.bind_eq_some_iff.mp performed
      have later := ih rested (fun action member => apart action (List.mem_cons_of_mem _ member))
        (fun resource member => free resource (List.mem_cons_of_mem _ member))
      have alone := apart action (by simp)
      have framed : act bases (held ∪ extra) action = some (between ∪ extra) := by
        cases action with
        | acquire resource =>
            simp only [act] at acted
            split at acted
            · rename_i possible
              obtain rfl := Option.some.inj acted
              rw [act_acquire, Finset.insert_union resource held extra]
              · rw [Finset.mem_union, not_or]
                exact ⟨possible.1, alone⟩
              · exact possible.2.trans Finset.subset_union_left
            · simp at acted
        | release resource =>
            simp only [act] at acted
            split at acted
            · rename_i possible
              obtain rfl := Option.some.inj acted
              rw [act_release, Finset.erase_union_distrib,
                Finset.erase_eq_of_notMem (show resource ∉ extra from alone)]
              · exact Finset.mem_union_left _ possible.1
              · intro other member
                rcases Finset.mem_union.mp member with inHeld | inExtra
                · exact possible.2 other inHeld
                · exact free resource (by simp) other inExtra
            · simp at acted
      rw [ledger, framed]
      exact later

end Actions

/-- What a program answers, and what it has done until then. -/
structure Run (Resource Error Answer : Type) where
  result : Except Error Answer
  actions : List (Action Resource)

namespace Run

variable {Error Answer Next : Type}

def bind (program : Run Resource Error Answer) (next : Answer → Run Resource Error Next) :
    Run Resource Error Next :=
  match program.result with
  | .ok answer => ⟨(next answer).result, program.actions ++ (next answer).actions⟩
  | .error error => ⟨.error error, program.actions⟩

instance : Monad (Run Resource Error) where
  pure answer := ⟨.ok answer, []⟩
  bind := bind

def acquire (resource : Resource) : Run Resource Error Unit := ⟨.ok (), [.acquire resource]⟩

def release (resource : Resource) : Run Resource Error Unit := ⟨.ok (), [.release resource]⟩

def fail (error : Error) : Run Resource Error Answer := ⟨.error error, []⟩

def catching {Other : Type} (program : Run Resource Error Answer)
    (handler : Error → Run Resource Other Answer) : Run Resource Other Answer :=
  match program.result with
  | .ok answer => ⟨.ok answer, program.actions⟩
  | .error error => ⟨(handler error).result, program.actions ++ (handler error).actions⟩

theorem bind_ok {program : Run Resource Error Answer} {next : Answer → Run Resource Error Next}
    {final : Next} (answered : (program >>= next).result = .ok final) :
    ∃ answer, program.result = .ok answer ∧ (next answer).result = .ok final := by
  change (program.bind next).result = .ok final at answered
  unfold bind at answered
  cases result : program.result with
  | error error => simp [result] at answered
  | ok answer =>
      rw [result] at answered
      exact ⟨answer, rfl, answered⟩

theorem catching_ok {Other : Type} {program : Run Resource Error Answer}
    {handler : Error → Run Resource Other Answer} {answer : Answer}
    (answered : (program.catching handler).result = .ok answer) : program.result = .ok answer ∨
      ∃ error, program.result = .error error ∧ (handler error).result = .ok answer := by
  unfold catching at answered
  cases result : program.result with
  | ok found =>
      rw [result] at answered
      exact Or.inl (congrArg Except.ok (Except.ok.inj answered))
  | error error =>
      rw [result] at answered
      exact Or.inr ⟨error, rfl, answered⟩

end Run

section Triples

variable [DecidableEq Resource] {Error Answer Next : Type} (bases : Resource → Finset Resource)

/-- A program that starts with `held` has `answered` where it answers, and `failed` where it fails. -/
def Triple (held : Finset Resource) (program : Run Resource Error Answer)
    (answered : Answer → Finset Resource) (failed : Finset Resource) : Prop :=
  ledger bases held program.actions = some (match program.result with
    | .ok answer => answered answer
    | .error _ => failed)

instance (held : Finset Resource) (program : Run Resource Error Answer)
    (answered : Answer → Finset Resource) (failed : Finset Resource) :
    Decidable (Triple bases held program answered failed) :=
  inferInstanceAs (Decidable (_ = some _))

variable {bases} {held failed : Finset Resource} {answered : Answer → Finset Resource}
  {concluded : Next → Finset Resource}

theorem Triple.pure {answer : Answer} (same : answered answer = held) :
    Triple bases held (Pure.pure answer : Run Resource Error Answer) answered failed :=
  congrArg some same.symm

theorem Triple.acquire {resource : Resource} (free : resource ∉ held)
    (supported : bases resource ⊆ held) : Triple bases held
      (Run.acquire resource : Run Resource Error Unit) (fun _ => insert resource held) failed := by
  simp only [Triple, Run.acquire, ledger, act_acquire free supported, Option.bind_some]

theorem Triple.release {resource : Resource} (member : resource ∈ held)
    (top : ∀ other ∈ held, resource ∉ bases other) : Triple bases held
      (Run.release resource : Run Resource Error Unit) (fun _ => held.erase resource) failed := by
  simp only [Triple, Run.release, ledger, act_release member top, Option.bind_some]

theorem Triple.bind {program : Run Resource Error Answer} {next : Answer → Run Resource Error Next}
    (first : Triple bases held program answered failed)
    (second : ∀ answer, Triple bases (answered answer) (next answer) concluded failed) :
    Triple bases held (program >>= next) concluded failed := by
  change Triple bases held (program.bind next) concluded failed
  unfold Triple at first ⊢
  unfold Run.bind
  cases result : program.result with
  | error error => simpa [result] using first
  | ok answer =>
      rw [result] at first
      exact ledger_trans first (second answer)

theorem Triple.catching {Other : Type} {program : Run Resource Error Answer}
    {handler : Error → Run Resource Other Answer} {between : Finset Resource}
    (first : Triple bases held program answered between)
    (second : ∀ error, Triple bases between (handler error) answered failed) :
    Triple bases held (program.catching handler) answered failed := by
  unfold Triple at first ⊢
  unfold Run.catching
  cases result : program.result with
  | ok answer => simpa [result] using first
  | error error =>
      rw [result] at first
      exact ledger_trans first (second error)

end Triples

end Leases
