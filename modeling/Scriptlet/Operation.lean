/-
This file applies operators to values. Integer results are exact or reported as
an overflow; a remainder overflows where its quotient does. Mixed numbers are
computed as doubles, and dividing by either zero is an error for both kinds.
Addition also joins lists, and texts with anything that has a plain shown form.
-/

import Scriptlet.RuntimeError
import Scriptlet.Value.Comparison
import Scriptlet.Value.Display

namespace Scriptlet

/-! ### Integers -/

/-- Whether a whole number is a 64-bit integer. -/
def fitsInt64 (number : Int) : Prop :=
  -9223372036854775808 ≤ number ∧ number ≤ 9223372036854775807

instance (number : Int) : Decidable (fitsInt64 number) :=
  inferInstanceAs (Decidable (_ ∧ _))

/-- The value of a whole number, if it is a 64-bit integer. -/
def Value.ofInt (number : Int) : Except RuntimeFault Value :=
  if fitsInt64 number then .ok (.int (Int64.ofInt number)) else .error .integerOverflow

/-- An operation on integers. Quotients are cut off toward zero. -/
def Arithmetic.onInts (operation : Arithmetic) (left right : Int64) : Except RuntimeFault Value :=
  let first := left.toInt
  let second := right.toInt
  match operation with
  | .add => Value.ofInt (first + second)
  | .subtract => Value.ofInt (first - second)
  | .multiply => Value.ofInt (first * second)
  | .divide => if second = 0 then .error .divisionByZero else Value.ofInt (first.tdiv second)
  | .remainder =>
    if second = 0 then .error .divisionByZero
    else if fitsInt64 (first.tdiv second) then Value.ofInt (first.tmod second)
    else .error .integerOverflow

/-! ### Doubles -/

/-- An operation on doubles. -/
def Arithmetic.onFloats (operation : Arithmetic) (left right : Float) :
    Except RuntimeFault Value :=
  match operation with
  | .add => .ok (.float (left + right))
  | .subtract => .ok (.float (left - right))
  | .multiply => .ok (.float (left * right))
  | .divide =>
    if Double.isZero right then .error .divisionByZero else .ok (.float (left / right))
  | .remainder =>
    if Double.isZero right then .error .divisionByZero
    else .ok (.float (Double.remainder left right))

/-! ### Values -/

/-- Whether a value can be joined to a text. -/
def Value.isPlain : Value → Bool
  | .str _ => true
  | .int _ => true
  | .float _ => true
  | .bool _ => true
  | _ => false

/-- Whether a value is a text. -/
def Value.isText : Value → Bool
  | .str _ => true
  | _ => false

/-- The fault of an operation that the types of its operands do not allow. -/
def Arithmetic.mismatch (operation : Arithmetic) (left right : Value) : RuntimeFault :=
  .typeMismatch (.operands operation left.type right.type)

/-- An operation on numbers of which not both are integers. -/
def Arithmetic.onNumbers (operation : Arithmetic) (left right : Value) :
    Except RuntimeFault Value :=
  match left.toFloat?, right.toFloat? with
  | some first, some second => operation.onFloats first second
  | _, _ => .error (operation.mismatch left right)

/-- Two values one after the other, at least one of which is a text. -/
def Value.join (left right : Value) : Except RuntimeFault Value :=
  if left.isPlain && right.isPlain then .ok (.str (left.display ++ right.display))
  else .error (Arithmetic.add.mismatch left right)

/-- An arithmetic operation on values. -/
def Arithmetic.apply (operation : Arithmetic) (left right : Value) : Except RuntimeFault Value :=
  match operation, left, right with
  | _, .int first, .int second => operation.onInts first second
  | .add, .list first, .list second => .ok (.list (first ++ second))
  | .add, _, _ =>
    if left.isText || right.isText then left.join right else operation.onNumbers left right
  | _, _, _ => operation.onNumbers left right

/-- An operation on two values. -/
def BinaryOp.apply (op : BinaryOp) (left right : Value) : Except RuntimeFault Value :=
  match op with
  | .arithmetic operation => operation.apply left right
  | .relation comparison => .ok (.bool (comparison.test left right))
  | .equal => .ok (.bool (left.equal right))
  | .notEqual => .ok (.bool (!left.equal right))

/-- The number an update adds. -/
def Step.delta : Step → Int
  | .increment => 1
  | .decrement => -1

/-- The double an update adds. -/
def Step.deltaFloat : Step → Float
  | .increment => 1.0
  | .decrement => -1.0

/-- An operation on one value. An update gives the stepped value, whichever value it yields. -/
def UnaryOp.apply (op : UnaryOp) (value : Value) : Except RuntimeFault Value :=
  match op, value with
  | .not, .bool truth => .ok (.bool (!truth))
  | .not, other => .error (.expectedBoolean other.type)
  | .negate, .int number => Value.ofInt (-number.toInt)
  | .negate, .float number => .ok (.float (-number))
  | .update step _, .int number => Value.ofInt (number.toInt + step.delta)
  | .update step _, .float number => .ok (.float (number + step.deltaFloat))
  | _, other => .error (.typeMismatch (.operand op other.type))

/-- The truth value of a value that must be one. -/
def Value.expectBool (value : Value) : Except RuntimeFault Bool :=
  match value with
  | .bool truth => .ok truth
  | other => .error (.expectedBoolean other.type)

/-! ### Elements -/

/-- The element at an index, counted from zero. -/
def elementAt {α : Type} (items : List α) (index : Int64) : Except RuntimeFault α :=
  let outside : Except RuntimeFault α := .error (.indexOutOfBounds index items.length)
  match index.toInt with
  | .ofNat place =>
    match items[place]? with
    | some item => .ok item
    | none => outside
  | .negSucc _ => outside

/-- The text of one character. -/
def Value.ofChar (character : Char) : Value :=
  .str (String.singleton character)

/-- Whether a value has elements. -/
def Value.isIndexable : Value → Bool
  | .list _ => true
  | .str _ => true
  | _ => false

/-- The element of a list or the character of a text at an index. -/
def Value.element (target : Value) (index : Int64) : Except RuntimeFault Value :=
  match target with
  | .list items => elementAt items index
  | .str text => (elementAt text.toList index).map Value.ofChar
  | other => .error (.notIndexable other.type)

end Scriptlet
