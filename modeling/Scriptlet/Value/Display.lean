/-
This file says how values are shown. Texts are shown as they are, also inside
lists; a function shows its name.
-/

import Scriptlet.Decimal.FloatStyle
import Scriptlet.Value.Basic

namespace Scriptlet

/-- A whole double shows its exact value and a zero behind the point; any other one shows the
fewest digits that read back. There is never an exponent. -/
def Value.floatStyle : FloatStyle :=
  { exactWhole := true, pointZero := true, positionalOrders := none }

/-- The shown form of a function. -/
def Closure.display (closure : Closure) : String :=
  if closure.procedure.name == Procedure.lambdaName then Procedure.lambdaName
  else "<proc " ++ closure.procedure.name ++ ">"

mutual

/-- The shown form of a value. -/
def Value.display : Value → String
  | .int value => toString value.toInt
  | .float value => Value.floatStyle.text value
  | .str value => value
  | .bool value => if value then "true" else "false"
  | .void => "void"
  | .nil => "nil"
  | .list items => "[" ++ ", ".intercalate (displays items) ++ "]"
  | .function closure => closure.display

/-- The shown forms of values. -/
def displays : List Value → List String
  | [] => []
  | value :: values => value.display :: displays values

end

theorem displays_eq_map (values : List Value) : displays values = values.map Value.display := by
  induction values with
  | nil => simp [displays]
  | cons value values inductionHypothesis => simp [displays, inductionHypothesis]

end Scriptlet
