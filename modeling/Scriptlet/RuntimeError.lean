/-
This file defines what can go wrong in a run. An error is a cause and, for all
causes but two, the place it is reported at. The wording of every cause stands
in one function.
-/

import Scriptlet.Value.Basic

namespace Scriptlet

/-- How the types of operands fail an operation. -/
inductive Mismatch where
  | operand (op : UnaryOp) (found : ValueType)
  | operands (operation : Arithmetic) (left right : ValueType)
  | length (found : ValueType)
deriving DecidableEq

/-- The wording of a mismatch. -/
def Mismatch.message : Mismatch → String
  | .operand op found => "Cannot apply '" ++ op.spelling ++ "' to " ++ found.name
  | .operands operation left right =>
    "Cannot use '" ++ operation.spelling ++ "' on " ++ left.name ++ " and " ++ right.name
  | .length found => "len expects a string or a list, found " ++ found.name

/-- Why a run failed. -/
inductive RuntimeFault where
  | undefinedVariable (name : String)
  | constReassignment (name : String)
  | procedureReassignment (name : String)
  | typeMismatch (mismatch : Mismatch)
  | expectedBoolean (found : ValueType)
  | notCallable (found : ValueType)
  | arityMismatch (name : String) (expected found : Nat)
  | divisionByZero
  | integerOverflow
  | breakOutsideLoop
  | continueOutsideLoop
  | notIndexable (found : ValueType)
  | indexOutOfBounds (index : Int64) (length : Nat)
  | expectedInteger (found : ValueType)
  | expectedList (found : ValueType)
  | invalidAssignmentTarget
  | assertionFailed
  | output (details : String)
  | missingEntryPoint (name : String)
  | stackOverflow (limit : Nat)
deriving DecidableEq

/-- The wording of a fault. -/
def RuntimeFault.message : RuntimeFault → String
  | .undefinedVariable name => "Undefined variable '" ++ name ++ "'."
  | .constReassignment name => "Cannot reassign constant '" ++ name ++ "'."
  | .procedureReassignment name => "Cannot reassign top-level procedure '" ++ name ++ "'."
  | .typeMismatch mismatch => "Type mismatch: " ++ mismatch.message ++ "."
  | .expectedBoolean found => "Expected bool, found " ++ found.name ++ "."
  | .notCallable found => "Value of type " ++ found.name ++ " is not callable."
  | .arityMismatch name expected found =>
    "'" ++ name ++ "' expects " ++ toString expected ++ " argument(s) but was given " ++
      toString found ++ "."
  | .divisionByZero => "Division by zero."
  | .integerOverflow => "Integer overflow."
  | .breakOutsideLoop => "'break' used outside of a loop."
  | .continueOutsideLoop => "'continue' used outside of a loop."
  | .notIndexable found => "Value of type " ++ found.name ++ " is not indexable."
  | .indexOutOfBounds index length =>
    "Index " ++ toString index.toInt ++ " is out of bounds for length " ++ toString length ++ "."
  | .expectedInteger found => "Expected int, found " ++ found.name ++ "."
  | .expectedList found => "Expected list, found " ++ found.name ++ "."
  | .invalidAssignmentTarget => "Invalid assignment target."
  | .assertionFailed => "Assertion failed."
  | .output details => "Failed to write output: " ++ details ++ "."
  | .missingEntryPoint name => "No procedure named '" ++ name ++ "' to run."
  | .stackOverflow limit => "Maximum call depth of " ++ toString limit ++ " exceeded."

/-- A fault and the place it is reported at, if it has one. -/
structure RuntimeError where
  fault : RuntimeFault
  position : Option Position
deriving DecidableEq

namespace RuntimeError

/-- The wording of the error's fault. -/
def message (error : RuntimeError) : String :=
  error.fault.message

/-- The line shown to the user. -/
def display (error : RuntimeError) : String :=
  match error.position with
  | some position => "Runtime error at " ++ position.text ++ ": " ++ error.message
  | none => "Runtime error: " ++ error.message

end RuntimeError

end Scriptlet
