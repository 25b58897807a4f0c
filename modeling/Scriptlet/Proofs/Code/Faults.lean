/-
This file tells faults of data from faults of code. Most faults tell of the values that a
run computes with: all that operators, builtins and assignments report are of this kind.
Three tell of the code itself: a jump that nothing around it takes up, for each of the two
jumps, and an update of something that is not a variable.
-/

import Scriptlet.Proofs.CounterLoop
import Scriptlet.Proofs.Output

namespace Scriptlet

/-! ### Faults of data -/

/-- Whether a fault tells of the data of a run and not of its code. -/
def RuntimeFault.isOfData : RuntimeFault → Bool
  | .breakOutsideLoop => false
  | .continueOutsideLoop => false
  | .invalidAssignmentTarget => false
  | _ => true

/-- If an operation fails, then because of its data. -/
def OfData {α : Type} (result : Except RuntimeFault α) : Prop :=
  ∀ fault, result = .error fault → fault.isOfData = true

namespace OfData

variable {α : Type}

theorem ok (value : α) : OfData (.ok value) := nofun

theorem error {fault : RuntimeFault} (ofData : fault.isOfData = true) :
    OfData (.error fault : Except RuntimeFault α) := by
  intro other same
  injection same with same
  rw [← same]
  exact ofData

theorem ofInt (number : Int) : OfData (Value.ofInt number) := by
  unfold Value.ofInt
  split
  · exact ok _
  · exact error rfl

/-- Integers divide by zero or leave their range, and nothing else goes wrong. -/
theorem onInts (operation : Arithmetic) (left right : Int64) :
    OfData (operation.onInts left right) := by
  unfold Arithmetic.onInts
  cases operation with
  | divide =>
    dsimp only
    split
    · exact error rfl
    · exact ofInt _
  | remainder =>
    dsimp only
    split
    · exact error rfl
    split
    · exact ofInt _
    · exact error rfl
  | _ => exact ofInt _

/-- Floats divide by zero, and nothing else goes wrong. -/
theorem onFloats (operation : Arithmetic) (left right : Float) :
    OfData (operation.onFloats left right) := by
  unfold Arithmetic.onFloats
  cases operation with
  | add => exact ok _
  | subtract => exact ok _
  | multiply => exact ok _
  | _ =>
    dsimp only
    split
    · exact error rfl
    · exact ok _

/-- Operands that are no numbers are data of the run, too. -/
theorem onNumbers (operation : Arithmetic) (left right : Value) :
    OfData (operation.onNumbers left right) := by
  unfold Arithmetic.onNumbers
  split
  · exact onFloats _ _ _
  · exact error rfl

theorem join (left right : Value) : OfData (left.join right) := by
  unfold Value.join
  split
  · exact ok _
  · exact error rfl

/-- All that operators between two values report tells of the values. -/
theorem binary (op : BinaryOp) (left right : Value) : OfData (op.apply left right) := by
  cases op with
  | arithmetic operation =>
    rw [BinaryOp.apply]
    unfold Arithmetic.apply
    split
    · exact onInts _ _ _
    · exact ok _
    · split
      · exact join _ _
      · exact onNumbers _ _ _
    · exact onNumbers _ _ _
  | _ => exact ok _

/-- All that operators in front of a value report tells of the value. The update of something that
is not a variable is reported by the run and not by the operator. -/
theorem unary (op : UnaryOp) (value : Value) : OfData (op.apply value) := by
  unfold UnaryOp.apply
  split
  · exact ok _
  · exact error rfl
  · exact ofInt _
  · exact ok _
  · exact ofInt _
  · exact ok _
  · exact error rfl

theorem expectBool (value : Value) : OfData value.expectBool := by
  cases value with
  | bool truth => exact ok _
  | _ => exact error rfl

theorem elementAt (items : List α) (index : Int64) : OfData (elementAt items index) := by
  unfold Scriptlet.elementAt
  dsimp only
  split
  · split
    · exact ok _
    · exact error rfl
  · exact error rfl

/-- An index that is out of range and a target that has no elements are data. -/
theorem element (target : Value) (index : Int64) : OfData (target.element index) := by
  unfold Value.element
  split
  · exact elementAt _ index
  · rename_i text
    cases found : Scriptlet.elementAt text.toList index with
    | ok character => exact ok _
    | error fault => exact error (elementAt text.toList index fault found)
  · exact error rfl

theorem single (builtin : SingleBuiltin) (value : Value) : OfData (builtin.apply value) := by
  cases builtin with
  | assert =>
    cases value with
    | bool truth =>
      cases truth with
      | true => exact ok _
      | false => exact error rfl
    | _ => exact error rfl
  | str => exact ok _
  | len =>
    cases value with
    | str text => exact ofInt _
    | list items => exact ofInt _
    | _ => exact error rfl
  | isNil =>
    cases value with
    | _ => exact ok _
  | isEmpty =>
    cases value with
    | list items => exact ok _
    | _ => exact error rfl
  | _ =>
    cases value with
    | list items =>
      cases items with
      | _ => exact ok _
    | _ => exact error rfl

/-- All that builtins report tells of their arguments, a wrong number of them too. -/
theorem builtin (builtin : Builtin) (arguments : List Value) :
    OfData (builtin.result arguments) := by
  unfold Builtin.result
  split
  · exact ok _
  · exact ok _
  · exact single _ _
  · exact error rfl

end OfData

/-- An assignment fails because of what its name stands for. -/
theorem Eval.isOfData_assignFault (context : Context) (name : String) (fault : AssignFault) :
    (assignFault context name fault).isOfData = true := by
  cases fault with
  | constant => rfl
  | undefined =>
    unfold assignFault
    dsimp only
    cases context.procedures.find? name with
    | _ => rfl

/-- The fault of a jump that nothing takes up. -/
def Jump.fault : Jump → RuntimeFault
  | .leaveLoop => .breakOutsideLoop
  | .nextRound => .continueOutsideLoop

end Scriptlet
