/-
This file defines the values a program computes with. Integers have 64 bits and
never wrap. A function value is a procedure together with the scope it was made
in; two function values are the same only if they were made at the same moment,
which their identities tell.
-/

import Scriptlet.Double
import Scriptlet.Tree.Basic

namespace Scriptlet

/-! ### Types -/

/-- The types that values have. -/
inductive ValueType where
  | int
  | float
  | string
  | bool
  | void
  | nil
  | list
  | function
deriving DecidableEq

/-- The name of a type in messages. -/
def ValueType.name : ValueType → String
  | .int => "int"
  | .float => "float"
  | .string => "string"
  | .bool => "bool"
  | .void => "void"
  | .nil => "nil"
  | .list => "list"
  | .function => "function"

/-! ### Values -/

/-- A place in a store. -/
abbrev ScopeId := Nat

/-- A procedure and the scope its body sees. -/
structure Closure where
  identity : Nat
  procedure : Procedure
  scope : ScopeId

/-- What an expression evaluates to. Calls without a result yield `void`; `nil` stands for a
missing element. -/
inductive Value where
  | int (value : Int64)
  | float (value : Float)
  | str (value : String)
  | bool (value : Bool)
  | void
  | nil
  | list (items : List Value)
  | function (closure : Closure)

namespace Value

/-- The type of a value. -/
def type : Value → ValueType
  | .int _ => .int
  | .float _ => .float
  | .str _ => .string
  | .bool _ => .bool
  | .void => .void
  | .nil => .nil
  | .list _ => .list
  | .function _ => .function

/-- The value of a literal. -/
def ofLiteral : Literal → Value
  | .int value => .int value
  | .float value => .float value
  | .str value => .str value
  | .bool value => .bool value
  | .nil => .nil

/-- The double a number stands for where doubles are needed. -/
def toFloat? : Value → Option Float
  | .int value => some (Double.ofInt64 value)
  | .float value => some value
  | _ => none

/-- The truth value of a truth value. -/
def toBool? : Value → Option Bool
  | .bool value => some value
  | _ => none

/-- Whether a value is the result of a call without a result. -/
def isVoid : Value → Bool
  | .void => true
  | _ => false

end Value

end Scriptlet
