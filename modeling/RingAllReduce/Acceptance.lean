import RingAllReduce.Rejections

/-!
Calls that no rank rejects: All-Reduces on at most 129 ranks, of supported types and operations,
whose blocks have at most 4096 pieces.
-/

namespace RingAllReduce

open Exchange Rotation

variable {Value : Type}

/-- The calls are All-Reduces that pass every check of the collectives. -/
structure AllReduces (setup : Setup Value) : Prop where
  ranks : setup.worldSize ≤ 129
  calls : ∀ args ∈ setup.calls, args.kind = .allReduce ∧ 1 ≤ args.count ∧
    args.datatype.supported = true ∧ args.operation.supported = true
  pieces : ∀ args ∈ setup.calls, ∀ rank < setup.worldSize, ∀ block < setup.worldSize,
    pieceCountFor (blockCount args.count setup.worldSize block)
      (setup.pieceElements rank args.datatype) ≤ 4096

theorem stageStep_le {worldSize stage : Nat} (ranks : worldSize ≤ 129)
    (bound : stage < 2 * (worldSize - 1)) : stageStep worldSize stage ≤ 127 := by
  unfold stageStep
  split <;> omega

theorem opening_clear (context : Context) (args : Call Value) :
    Clear (.load context.call :: args.copies context.rank) := by
  intro instr member
  unfold Call.copies at member
  split at member
  · rcases List.mem_pair.mp member with rfl | rfl <;> rfl
  · rw [List.mem_singleton.mp member]
    rfl

theorem reports_clear (context : Context) (args : Call Value) : Clear (args.reports context) := by
  intro instr member
  unfold Call.reports at member
  split at member
  · simp at member
  · rw [List.mem_singleton.mp member]
    rfl

theorem ending_clear (kind : Kind) : Clear kind.ending := by
  intro instr member
  cases kind <;> simp only [Kind.ending, List.mem_cons, List.not_mem_nil, or_false] at member
  · rcases member with rfl | rfl <;> rfl
  · rw [member]
    rfl
  · rw [member]
    rfl

theorem callCode_clear_of_stages {context : Context} {args : Call Value}
    (bound : context.rank < context.worldSize)
    (accepted : args.accepted context.worldSize context.rank)
    (staged : ∀ stage ∈ args.kind.stages context.worldSize,
      Clear (stageCode context args.count args.datatype args.operation stage)) :
    Clear (callCode context args) := by
  rw [callCode_accepted context bound accepted, ← List.cons_append]
  apply (opening_clear context args).append
  refine Clear.append ?_ ((reports_clear context args).append (Clear.append ?_ (ending_clear _)))
  · intro instr member
    obtain ⟨stage, stageIn, inStage⟩ := List.mem_flatMap.mp member
    exact staged stage (List.mem_append_left _ stageIn) instr inStage
  · intro instr member
    obtain ⟨stage, stageIn, inStage⟩ := List.mem_flatMap.mp member
    exact staged stage (List.mem_append_right _ stageIn) instr inStage

theorem callCode_clear {context : Context} {args : Call Value}
    (bound : context.rank < context.worldSize) (ranks : context.worldSize ≤ 129)
    (accepted : args.accepted context.worldSize context.rank)
    (known : args.operation.supported = true)
    (few : ∀ block < context.worldSize, context.pieces args.count args.datatype block ≤ 4096) :
    Clear (callCode context args) := by
  apply callCode_clear_of_stages bound accepted
  intro stage stageIn
  apply stageCode_clear accepted.1 _ fun _ _ => known
  intro piece inBlock
  have received := few (context.received stage) (blockAt_lt (by omega) _ _)
  have passedOn := few (context.passedOn stage) (blockAt_lt (by omega) _ _)
  exact ⟨stageStep_le ranks (Kind.mem_stages stageIn), by omega⟩

theorem AllReduces.code_clear {setup : Setup Value} (accepted : AllReduces setup) {rank : Nat}
    (bound : rank < setup.worldSize) (call : Nat) : Clear (setup.code rank call) := by
  cases found : setup.calls[call]? with
  | none => simp [Setup.code, found, Clear]
  | some args =>
      have member := List.mem_of_getElem? found
      obtain ⟨kind, count, typed, known⟩ := accepted.calls args member
      simp only [Setup.code, found]
      refine @callCode_clear _ (setup.context rank (setup.sequenceAt call) call) args bound
        accepted.ranks ⟨typed, ?_⟩ known (accepted.pieces args member rank bound)
      rw [kind]
      simp only
      omega

end RingAllReduce
