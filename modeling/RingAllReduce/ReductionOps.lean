import RingAllReduce.Interface

/-! `reduction_ops.cpp`: element sizes and the in-place reduction. `element datatype operation`
is the statement of the inner loop, as a function of `destination[i]` and `source[i]`. -/

namespace RingAllReduce

variable {Value : Type}

def reduceTyped (element : Operation → Value → Value → Value) (destination source : List Value)
    (operation : Operation) : Except Status (List Value) :=
  match operation with
  | .sum => .ok (destination.zipWith (element .sum) source)
  | .min => .ok (destination.zipWith (element .min) source)
  | .max => .ok (destination.zipWith (element .max) source)
  | .other _ => .error .unsupportedOperation

def datatypeSize : Datatype → Nat
  | .int32 => 4
  | .float32 => 4
  | .float64 => 8
  | .other _ => 0

/-- Both lists have `count` elements; a count of zero is answered before any code is looked at. -/
def reduceInPlace (element : Datatype → Operation → Value → Value → Value)
    (destination source : List Value) (count : Nat) (datatype : Datatype)
    (operation : Operation) : Except Status (List Value) :=
  if count = 0 then .ok destination
  else match datatype with
    | .int32 => reduceTyped (element .int32) destination source operation
    | .float32 => reduceTyped (element .float32) destination source operation
    | .float64 => reduceTyped (element .float64) destination source operation
    | .other _ => .error .unsupportedDatatype

def Datatype.supported : Datatype → Bool
  | .other _ => false
  | _ => true

def Operation.supported : Operation → Bool
  | .other _ => false
  | _ => true

theorem datatypeSize_eq_zero (datatype : Datatype) :
    datatypeSize datatype = 0 ↔ datatype.supported = false := by
  cases datatype <;> simp [datatypeSize, Datatype.supported]

theorem reduceInPlace_ok (element : Datatype → Operation → Value → Value → Value)
    {destination source : List Value} {count : Nat} {datatype : Datatype} {operation : Operation}
    (positive : 0 < count) (typed : datatype.supported = true) (known : operation.supported = true) :
    reduceInPlace element destination source count datatype operation =
      .ok (destination.zipWith (element datatype operation) source) := by
  have nonzero : count ≠ 0 := by omega
  cases datatype <;> cases operation <;>
    simp_all [reduceInPlace, reduceTyped, Datatype.supported, Operation.supported]

theorem reduceInPlace_unknown (element : Datatype → Operation → Value → Value → Value)
    {destination source : List Value} {count : Nat} {datatype : Datatype} {operation : Operation}
    (positive : 0 < count) (typed : datatype.supported = true)
    (unknown : operation.supported = false) :
    reduceInPlace element destination source count datatype operation =
      .error .unsupportedOperation := by
  have nonzero : count ≠ 0 := by omega
  cases datatype <;> cases operation <;>
    simp_all [reduceInPlace, reduceTyped, Datatype.supported, Operation.supported]

theorem reduceInPlace_error {element : Datatype → Operation → Value → Value → Value}
    {destination source : List Value} {count : Nat} {datatype : Datatype} {operation : Operation}
    {status : Status}
    (failed : reduceInPlace element destination source count datatype operation = .error status) :
    status = .unsupportedDatatype ∨ status = .unsupportedOperation := by
  unfold reduceInPlace at failed
  split at failed
  · simp at failed
  · cases datatype <;> cases operation <;> simp_all [reduceTyped]

end RingAllReduce
