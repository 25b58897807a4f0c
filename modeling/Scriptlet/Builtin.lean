/-
This file defines the procedures that every program has. Some take any number of
arguments, the others exactly one; the call checks it. Only the two that print
touch the sink.
-/

import Scriptlet.Operation
import Scriptlet.Sink

namespace Scriptlet

/-- The builtins that take any number of arguments. -/
inductive VariadicBuiltin where
  | print
  | println
  | list
deriving DecidableEq

/-- The builtins that take one argument. -/
inductive SingleBuiltin where
  | assert
  | str
  | len
  | head
  | rest
  | isEmpty
  | isNil
deriving DecidableEq

/-- The builtins. -/
inductive Builtin where
  | variadic (builtin : VariadicBuiltin)
  | single (builtin : SingleBuiltin)
deriving DecidableEq

namespace Builtin

/-- Every builtin. -/
def all : List Builtin :=
  [.variadic .print, .variadic .println, .single .assert, .single .str, .single .len,
    .variadic .list, .single .head, .single .rest, .single .isEmpty, .single .isNil]

/-- The name a builtin is called by. -/
def name : Builtin → String
  | .variadic .print => "print"
  | .variadic .println => "println"
  | .variadic .list => "list"
  | .single .assert => "assert"
  | .single .str => "str"
  | .single .len => "len"
  | .single .head => "head"
  | .single .rest => "rest"
  | .single .isEmpty => "is_empty"
  | .single .isNil => "is_nil"

/-- The builtin with a name. -/
def ofName? (name : String) : Option Builtin :=
  all.find? fun builtin => builtin.name == name

/-- The number of arguments a builtin takes, if it is fixed. -/
def arity? : Builtin → Option Nat
  | .variadic _ => none
  | .single _ => some 1

/-- Whether a builtin takes a number of arguments. -/
def accepts (builtin : Builtin) (count : Nat) : Bool :=
  match builtin.arity? with
  | none => true
  | some arity => count == arity

theorem mem_all (builtin : Builtin) : builtin ∈ all := by
  rcases builtin with builtin | builtin <;> cases builtin <;> decide

end Builtin

/-- The items of a value that must be a list. -/
def Value.expectList (value : Value) : Except RuntimeFault (List Value) :=
  match value with
  | .list items => .ok items
  | other => .error (.expectedList other.type)

/-- The number of characters of a text or items of a list. -/
def Value.length (value : Value) : Except RuntimeFault Value :=
  match value with
  | .str text => Value.ofInt text.length
  | .list items => Value.ofInt items.length
  | other => .error (.typeMismatch (.length other.type))

/-- The line that printing values writes. -/
def Value.line (values : List Value) : String :=
  " ".intercalate (values.map Value.display)

/-- The result of a builtin with one argument. -/
def SingleBuiltin.apply : SingleBuiltin → Value → Except RuntimeFault Value
  | .assert, value => do
    if ← value.expectBool then return .void else throw .assertionFailed
  | .str, value => return .str value.display
  | .len, value => value.length
  | .head, value => do
    match ← value.expectList with
    | [] => return .nil
    | first :: _ => return first
  | .rest, value => do
    match ← value.expectList with
    | [] => return .nil
    | _ :: others => return .list others
  | .isEmpty, value => return .bool (← value.expectList).isEmpty
  | .isNil, value =>
    match value with
    | .nil => return .bool true
    | _ => return .bool false

/-- The result of a builtin with any number of arguments. The line break is a write of its own. -/
def VariadicBuiltin.run : VariadicBuiltin → List Value → EStateM RuntimeFault Sink Value
  | .print, values => do
    Sink.write (Value.line values)
    return .void
  | .println, values => do
    Sink.write (Value.line values)
    Sink.write "\n"
    return .void
  | .list, values => return .list values

/-- Calls a builtin with arguments. -/
def Builtin.run : Builtin → List Value → EStateM RuntimeFault Sink Value
  | .variadic builtin, values => builtin.run values
  | .single builtin, [value] =>
    match builtin.apply value with
    | .ok result => return result
    | .error fault => throw fault
  | .single builtin, values => throw (.arityMismatch (Builtin.single builtin).name 1 values.length)

end Scriptlet
