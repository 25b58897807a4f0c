/-
This file defines the state of a run and the steps that change it. A machine
holds the variables, the output, the number of calls under way and the number
of function values made so far. A step yields a value or is interrupted, by a
fault or because its budget ran out; either way the machine keeps what has been
done. The procedures of the program and the limit on nested calls stay the same
through a run and stand beside the machine.
-/

import Scriptlet.Builtin
import Scriptlet.Store

namespace Scriptlet

/-! ### State -/

/-- The procedures of a program as function values, the latest first. -/
structure ProcedureTable where
  entries : List Closure

namespace ProcedureTable

/-- The table without procedures. -/
def empty : ProcedureTable := ⟨[]⟩

/-- The latest procedure with a name. -/
def find? (table : ProcedureTable) (name : String) : Option Closure :=
  table.entries.find? fun closure => closure.procedure.name == name

/-- The table of procedures whose bodies see a scope, with identities counted from
`identity`. -/
def build (identity : Nat) (scope : ScopeId) (procedures : List Procedure) : ProcedureTable :=
  ⟨(procedures.mapIdx fun place procedure => ⟨identity + place, procedure, scope⟩).reverse⟩

end ProcedureTable

/-- What stays the same through a run. -/
structure Context where
  procedures : ProcedureTable
  maxDepth : Nat

/-- What changes in a run. -/
structure Machine where
  store : Store
  sink : Sink
  depth : Nat
  closures : Nat

/-- How a statement ended. -/
inductive Signal where
  | normal
  | returning (value : Value)
  | breaking (position : Position)
  | continuing (position : Position)

/-- Why a step did not end. -/
inductive Interrupt where
  | fault (error : RuntimeError)
  | exhausted
deriving DecidableEq

/-- A step of a run. -/
abbrev Eval := EStateM Interrupt Machine

namespace Eval

/-! ### Faults -/

/-- Fails at a place. -/
def fail {α : Type} (fault : RuntimeFault) (position : Position) : Eval α :=
  throw (.fault ⟨fault, some position⟩)

/-- Fails at no place. -/
def failNowhere {α : Type} (fault : RuntimeFault) : Eval α :=
  throw (.fault ⟨fault, none⟩)

/-- Stops because the budget ran out. -/
def exhausted {α : Type} : Eval α :=
  throw .exhausted

/-- A result whose fault, if it is one, is reported at a place. -/
def resultAt {α : Type} (position : Position) : Except RuntimeFault α → Eval α
  | .ok value => pure value
  | .error fault => fail fault position

/-! ### Scopes and names -/

/-- Makes a scope inside another one. -/
def newChild (parent : ScopeId) : Eval ScopeId :=
  modifyGet fun machine =>
    let made := machine.store.newChild parent
    (made.1, { machine with store := made.2 })

/-- Binds a name in a scope. -/
def define (scope : ScopeId) (binding : Binding) : Eval Unit :=
  modify fun machine => { machine with store := machine.store.define scope binding }

/-- Binds names to values in a scope, one by one. -/
def defineAll (scope : ScopeId) : List (String × Value) → Eval Unit
  | [] => pure ()
  | (name, value) :: rest => do
    define scope ⟨name, value, .constant⟩
    defineAll scope rest

/-- The scope in which the declaration of a name takes place: a scope of its own if the present
one binds the name already. -/
def scopeForDeclaration (scope : ScopeId) (name : String) : Eval ScopeId := do
  if (← get).store.binds scope name then newChild scope else return scope

/-- The value of a name: that of the nearest variable, or the procedure of that name. -/
def lookup? (context : Context) (scope : ScopeId) (name : String) : Eval (Option Value) := do
  match (← get).store.get? scope name with
  | some value => return some value
  | none => return (context.procedures.find? name).map .function

/-- The value of a name that must have one. -/
def readName (context : Context) (scope : ScopeId) (name : String) (position : Position) :
    Eval Value := do
  match ← lookup? context scope name with
  | some value => return value
  | none => fail (.undefinedVariable name) position

/-- The fault of an assignment that did not take place. -/
def assignFault (context : Context) (name : String) : AssignFault → RuntimeFault
  | .constant => .constReassignment name
  | .undefined =>
    match context.procedures.find? name with
    | some _ => .procedureReassignment name
    | none => .undefinedVariable name

/-- Gives a new value to the nearest variable of a name. -/
def assign (context : Context) (scope : ScopeId) (name : String) (value : Value)
    (position : Position) : Eval Unit := do
  match (← get).store.target scope name with
  | .ok found =>
    modify fun machine => { machine with store := machine.store.write found name value }
  | .error fault => fail (assignFault context name fault) position

/-! ### Functions -/

/-- Makes a function value. -/
def newClosure (procedure : Procedure) (scope : ScopeId) : Eval Value :=
  modifyGet fun machine =>
    (.function ⟨machine.closures, procedure, scope⟩,
      { machine with closures := machine.closures + 1 })

/-- Calls a builtin. -/
def callBuiltin (builtin : Builtin) (arguments : List Value) (position : Position) : Eval Value :=
  fun machine =>
    let { store, sink, depth, closures } := machine
    match builtin.run arguments sink with
    | .ok value sink => .ok value ⟨store, sink, depth, closures⟩
    | .error fault sink => .error (.fault ⟨fault, some position⟩) ⟨store, sink, depth, closures⟩

/-- Takes a step as part of one more call. -/
@[inline] def deeper {α : Type} (step : Eval α) : Eval α := fun machine =>
  match step { machine with depth := machine.depth + 1 } with
  | .ok value machine => .ok value { machine with depth := machine.depth - 1 }
  | .error interrupt machine => .error interrupt { machine with depth := machine.depth - 1 }

/-- The result of a call whose body ended with a signal. A loop around the call does not see
the signals of the body. -/
def callResult : Signal → Eval Value
  | .normal => return .void
  | .returning value => return value
  | .breaking position => fail .breakOutsideLoop position
  | .continuing position => fail .continueOutsideLoop position

end Eval

end Scriptlet
