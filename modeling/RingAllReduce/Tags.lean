import Mathlib.Tactic.Ring
import RingAllReduce.RingCollectives

/-! What the 32 bits of a tag say: when `make_tag` succeeds and which pieces share a tag. -/

namespace RingAllReduce

theorem makeTag_error {sequence : UInt32} {phase : CollectivePhase} {step : Int} {piece : Nat}
    {status : Status} (failed : makeTag sequence phase step piece = .error status) :
    status = .tagRange := by
  unfold makeTag at failed
  split at failed
  · simpa using failed.symm
  · simp at failed

theorem makeTag_ok_iff (sequence : UInt32) (phase : CollectivePhase) (step : Int) (piece : Nat) :
    (∃ tag, makeTag sequence phase step piece = .ok tag) ↔ 0 ≤ step ∧ step ≤ 127 ∧ piece ≤ 4095 := by
  have stepMask : kStepMask.toNat = 127 := rfl
  have pieceMask : kPieceMask.toNat = 4095 := rfl
  unfold makeTag
  rw [stepMask, pieceMask]
  split
  · simp only [reduceCtorEq, exists_false, false_iff]
    omega
  · simp only [Except.ok.injEq, exists_eq', true_iff]
    omega

theorem CollectivePhase.code_toNat_lt (phase : CollectivePhase) : phase.code.toNat < 2 := by
  cases phase <;> decide

theorem makeTag_toNat {sequence : UInt32} {phase : CollectivePhase} {step piece : Nat}
    {tag : UInt32} (made : makeTag sequence phase step piece = .ok tag) :
    step ≤ 127 ∧ piece ≤ 4095 ∧
      tag.toNat = sequence.toNat % 4096 * 2 ^ 20 + phase.code.toNat * 2 ^ 19 + step * 2 ^ 12 +
        piece := by
  have bounds := (makeTag_ok_iff sequence phase step piece).mp ⟨tag, made⟩
  have stepBound : step ≤ 127 := by omega
  have pieceBound : piece ≤ 4095 := bounds.2.2
  refine ⟨stepBound, pieceBound, ?_⟩
  have phaseBound := phase.code_toNat_lt
  have inRange : ¬((step : Int) < 0 ∨ kStepMask.toNat < (step : Int).toNat ∨
      kPieceMask.toNat < piece) := by
    have stepMask : kStepMask.toNat = 127 := rfl
    have pieceMask : kPieceMask.toNat = 4095 := rfl
    omega
  simp only [makeTag, if_neg inRange, Except.ok.injEq] at made
  have sequenceField : ((sequence &&& kSequenceMask) <<< kSequenceShift).toNat =
      sequence.toNat % 4096 * 2 ^ 20 := by
    have shift : kSequenceShift.toNat = 20 := rfl
    have mask : kSequenceMask.toNat = 2 ^ 12 - 1 := rfl
    rw [UInt32.toNat_shiftLeft, UInt32.toNat_and, mask, shift, Nat.and_two_pow_sub_one_eq_mod,
      Nat.shiftLeft_eq]
    simp only [Nat.reduceMod, Nat.reducePow]
    omega
  have phaseField : ((phase.code &&& 1) <<< kPhaseShift).toNat = phase.code.toNat * 2 ^ 19 := by
    cases phase <;> decide
  have stepField : ((UInt32.ofNat (step : Int).toNat &&& kStepMask) <<< kStepShift).toNat =
      step * 2 ^ 12 := by
    have shift : kStepShift.toNat = 12 := rfl
    have mask : kStepMask.toNat = 2 ^ 7 - 1 := rfl
    rw [UInt32.toNat_shiftLeft, UInt32.toNat_and, mask, shift, Nat.and_two_pow_sub_one_eq_mod,
      Nat.shiftLeft_eq, UInt32.toNat_ofNat', Int.toNat_natCast]
    simp only [Nat.reduceMod, Nat.reducePow]
    omega
  have pieceField : (UInt32.ofNat piece &&& kPieceMask).toNat = piece := by
    have mask : kPieceMask.toNat = 2 ^ 12 - 1 := rfl
    rw [UInt32.toNat_and, mask, Nat.and_two_pow_sub_one_eq_mod, UInt32.toNat_ofNat']
    omega
  rw [← made, UInt32.toNat_or, UInt32.toNat_or, UInt32.toNat_or, sequenceField, phaseField,
    stepField, pieceField]
  -- each field stays below the lowest bit of the fields to its left
  generalize sequence.toNat % 4096 = top
  generalize phase.code.toNat = middle at phaseBound
  have joinPhase := Nat.shiftLeft_add_eq_or_of_lt (show middle * 2 ^ 19 < 2 ^ 20 by omega) top
  have joinStep := Nat.shiftLeft_add_eq_or_of_lt (show step * 2 ^ 12 < 2 ^ 19 by omega)
    (top * 2 + middle)
  have joinPiece := Nat.shiftLeft_add_eq_or_of_lt (show piece < 2 ^ 12 by omega)
    ((top * 2 + middle) * 2 ^ 7 + step)
  simp only [Nat.shiftLeft_eq] at joinPhase joinStep joinPiece
  have upper : (top * 2 + middle) * 2 ^ 19 = top * 2 ^ 20 + middle * 2 ^ 19 := by ring
  have lower : ((top * 2 + middle) * 2 ^ 7 + step) * 2 ^ 12 =
      (top * 2 + middle) * 2 ^ 19 + step * 2 ^ 12 := by ring
  rw [← joinPhase, ← upper, ← joinStep, ← lower, ← joinPiece]

theorem CollectivePhase.code_injective {first second : CollectivePhase}
    (same : first.code.toNat = second.code.toNat) : first = second := by
  cases first <;> cases second <;> first | rfl | (exact absurd same (by decide))

theorem makeTag_eq_iff {sequence sequence' : UInt32} {phase phase' : CollectivePhase}
    {step step' piece piece' : Nat} {tag tag' : UInt32}
    (made : makeTag sequence phase step piece = .ok tag)
    (made' : makeTag sequence' phase' step' piece' = .ok tag') :
    tag = tag' ↔ sequence.toNat % 4096 = sequence'.toNat % 4096 ∧ phase = phase' ∧
      step = step' ∧ piece = piece' := by
  obtain ⟨stepBound, pieceBound, value⟩ := makeTag_toNat made
  obtain ⟨stepBound', pieceBound', value'⟩ := makeTag_toNat made'
  have phaseBound := phase.code_toNat_lt
  have phaseBound' := phase'.code_toNat_lt
  rw [← UInt32.toNat_inj, value, value']
  constructor
  · intro same
    exact ⟨by omega, CollectivePhase.code_injective (by omega), by omega, by omega⟩
  · rintro ⟨sequenceEq, rfl, rfl, rfl⟩
    rw [sequenceEq]

theorem makeTag_step {sequence : UInt32} {phase : CollectivePhase} {step : Int} {piece : Nat}
    {tag : UInt32} (made : makeTag sequence phase step piece = .ok tag) :
    ∃ index : Nat, step = index := by
  have bounds := (makeTag_ok_iff sequence phase step piece).mp ⟨tag, made⟩
  exact ⟨step.toNat, by omega⟩

theorem makeTag_fields {sequence : UInt32} {phase : CollectivePhase} {step piece : Nat}
    {tag : UInt32} (made : makeTag sequence phase step piece = .ok tag) :
    tag >>> 20 = sequence % 4096 ∧ (tag >>> 19) &&& 1 = phase.code ∧
      ((tag >>> 12) &&& 0x7f).toNat = step ∧ (tag &&& 0xfff).toNat = piece := by
  obtain ⟨stepBound, pieceBound, value⟩ := makeTag_toNat made
  have phaseBound := phase.code_toNat_lt
  have phaseMask : (1 : UInt32).toNat = 2 ^ 1 - 1 := rfl
  have stepMask : (0x7f : UInt32).toNat = 2 ^ 7 - 1 := rfl
  have pieceMask : (0xfff : UInt32).toNat = 2 ^ 12 - 1 := rfl
  rw [← UInt32.toNat_inj, ← UInt32.toNat_inj, UInt32.toNat_and, UInt32.toNat_and, UInt32.toNat_and,
    phaseMask, stepMask, pieceMask, Nat.and_two_pow_sub_one_eq_mod,
    Nat.and_two_pow_sub_one_eq_mod, Nat.and_two_pow_sub_one_eq_mod]
  simp only [UInt32.toNat_shiftRight, Nat.shiftRight_eq_div_pow, UInt32.toNat_mod,
    UInt32.reduceToNat, Nat.reduceMod, Nat.reducePow, value]
  refine ⟨?_, ?_, ?_, ?_⟩ <;> omega

theorem iterate_sequence (sequence : UInt32) (calls : Nat) :
    ((· + 1)^[calls] sequence).toNat = (sequence.toNat + calls) % 2 ^ 32 := by
  induction calls with
  | zero =>
      have bound := sequence.toNat_lt
      simp only [Function.iterate_zero, id_eq]
      omega
  | succ calls ih =>
      rw [Function.iterate_succ_apply', UInt32.toNat_add, ih]
      simp only [UInt32.reduceToNat]
      omega

/-- Packing a tag loses nothing but the upper bits of the sequence number. -/
theorem makeTag_exact (sequence : UInt32) (phase : CollectivePhase) (step : Int) (piece : Nat) :
    ((∃ tag, makeTag sequence phase step piece = .ok tag) ↔
        0 ≤ step ∧ step ≤ 127 ∧ piece ≤ 4095) ∧
      (∀ tag, makeTag sequence phase step piece = .ok tag →
        tag >>> 20 = sequence % 4096 ∧ (tag >>> 19) &&& 1 = phase.code ∧
          (((tag >>> 12) &&& 0x7f).toNat : Int) = step ∧ (tag &&& 0xfff).toNat = piece) ∧
      (∀ (sequence' : UInt32) (phase' : CollectivePhase) (step' : Int) (piece' : Nat)
          (tag tag' : UInt32), makeTag sequence phase step piece = .ok tag →
        makeTag sequence' phase' step' piece' = .ok tag' →
        (tag = tag' ↔ sequence % 4096 = sequence' % 4096 ∧ phase = phase' ∧ step = step' ∧
          piece = piece')) ∧
      ∀ calls calls' : Nat,
        (· + 1)^[calls] sequence % 4096 = (· + 1)^[calls'] sequence % 4096 ↔
          calls % 4096 = calls' % 4096 := by
  refine ⟨makeTag_ok_iff sequence phase step piece, ?_, ?_, ?_⟩
  · intro tag made
    obtain ⟨index, rfl⟩ := makeTag_step made
    obtain ⟨sequenceEq, phaseEq, stepEq, pieceEq⟩ := makeTag_fields made
    exact ⟨sequenceEq, phaseEq, congrArg Nat.cast stepEq, pieceEq⟩
  · intro sequence' phase' step' piece' tag tag' made made'
    obtain ⟨index, rfl⟩ := makeTag_step made
    obtain ⟨index', rfl⟩ := makeTag_step made'
    rw [makeTag_eq_iff made made', ← UInt32.toNat_inj, UInt32.toNat_mod, UInt32.toNat_mod,
      Int.natCast_inj]
    simp only [UInt32.reduceToNat]
  · intro calls calls'
    rw [← UInt32.toNat_inj, UInt32.toNat_mod, UInt32.toNat_mod, iterate_sequence, iterate_sequence]
    simp only [UInt32.reduceToNat]
    omega

/-- Calls 4096 apart, the counter having wrapped in between. -/
theorem makeTag_exact_wrap :
    ∃ tag tag', makeTag 4294967295 .allGather 127 4095 = .ok tag ∧
      makeTag 4095 .allGather 127 4095 = .ok tag' ∧ tag = tag' := by
  refine ⟨4294967295, 4294967295, by decide, by decide, ?_⟩
  exact ((makeTag_exact 4294967295 .allGather 127 4095).2.2.1 4095 .allGather 127 4095 _ _
    (by decide) (by decide)).mpr ⟨by decide, rfl, rfl, rfl⟩

end RingAllReduce
