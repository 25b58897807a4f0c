/-
This file defines interpreters. An interpreter keeps its machine from one run to
the next. Running a program replaces the procedures, calls the entry procedure
without arguments, and flushes the output once the call has ended. Expressions
and statements can also be run one at a time in a scope of the caller's choice.
-/

import Scriptlet.Evaluation

namespace Scriptlet

/-- How programs are run. -/
structure Config where
  entry : String
  maxDepth : Nat

/-- A machine with the procedures of the program run last. -/
structure Interpreter where
  config : Config
  procedures : ProcedureTable
  globals : ScopeId
  machine : Machine

namespace Interpreter

/-- An interpreter that has run nothing. All procedures see its first scope. -/
def new (config : Config) (sink : Sink) : Interpreter :=
  let made := Store.empty.newRoot
  { config
    procedures := .empty
    globals := made.1
    machine := { store := made.2, sink, depth := 0, closures := 0 } }

/-- What stays the same while the interpreter runs. -/
def context (interpreter : Interpreter) : Context :=
  { procedures := interpreter.procedures, maxDepth := interpreter.config.maxDepth }

/-- What came of a step: a value or an interrupt, and the interpreter afterwards. -/
structure Run (α : Type) where
  outcome : Except Interrupt α
  interpreter : Interpreter

/-- Takes a step. -/
def perform {α : Type} (interpreter : Interpreter) (step : Context → Eval α) : Run α :=
  match (step interpreter.context).run interpreter.machine with
  | .ok value machine => ⟨.ok value, { interpreter with machine }⟩
  | .error interrupt machine => ⟨.error interrupt, { interpreter with machine }⟩

/-- Replaces the procedures by those of a program. -/
def load (interpreter : Interpreter) (program : Program) : Interpreter :=
  let machine := interpreter.machine
  { interpreter with
    procedures := .build machine.closures interpreter.globals program.procedures
    machine := { machine with closures := machine.closures + program.procedures.length } }

/-- Flushes the output; a failure is reported at a place. -/
def flush (position : Position) : Eval Unit := fun machine =>
  match Sink.flush machine.sink with
  | .ok _ sink => .ok () { machine with sink }
  | .error fault sink => .error (.fault ⟨fault, some position⟩) { machine with sink }

/-- Calls the entry procedure and flushes the output, which a fault of the call does not
prevent. A failure to flush takes the place of what the call came to. -/
def runEntry (budget : Nat) (entry : Closure) (context : Context) : Eval Value := fun machine =>
  let position := entry.procedure.position
  match Eval.callClosure context budget entry [] position machine with
  | .ok value machine => (flush position *> pure value) machine
  | .error (.fault error) machine => (flush position *> throw (.fault error)) machine
  | .error .exhausted machine => .error .exhausted machine

/-- Runs a program from its entry procedure. -/
def run (interpreter : Interpreter) (budget : Nat) (program : Program) : Run Value :=
  let loaded := interpreter.load program
  match loaded.procedures.find? loaded.config.entry with
  | none => ⟨.error (.fault ⟨.missingEntryPoint loaded.config.entry, none⟩), loaded⟩
  | some entry => loaded.perform (runEntry budget entry)

/-- Evaluates an expression in a scope. -/
def evaluate (interpreter : Interpreter) (budget : Nat) (expression : Expr) (scope : ScopeId) :
    Run Value :=
  interpreter.perform fun context => Eval.eval context budget expression scope

/-- Calls a value. -/
def call (interpreter : Interpreter) (budget : Nat) (function : Value) (arguments : List Value)
    (position : Position) : Run Value :=
  interpreter.perform fun context => Eval.callValue context budget function arguments position

/-- Runs statements in a scope as a block. -/
def execute (interpreter : Interpreter) (budget : Nat) (statements : List Statement)
    (scope : ScopeId) : Run Signal :=
  interpreter.perform fun context => Eval.execBlock context budget statements scope

/-- Runs one statement in a scope. -/
def executeOne (interpreter : Interpreter) (budget : Nat) (statement : Statement)
    (scope : ScopeId) : Run Signal :=
  interpreter.perform fun context => Eval.execStatement context budget statement scope

/-- The value of a name in a scope: that of a variable, or else a procedure. -/
def lookup? (interpreter : Interpreter) (scope : ScopeId) (name : String) : Option Value :=
  match interpreter.machine.store.get? scope name with
  | some value => some value
  | none => (interpreter.procedures.find? name).map .function

/-- Makes a scope with nothing around it. -/
def newRoot (interpreter : Interpreter) : ScopeId × Interpreter :=
  let made := interpreter.machine.store.newRoot
  (made.1, { interpreter with machine := { interpreter.machine with store := made.2 } })

/-- Makes a scope inside another one. -/
def newChild (interpreter : Interpreter) (parent : ScopeId) : ScopeId × Interpreter :=
  let made := interpreter.machine.store.newChild parent
  (made.1, { interpreter with machine := { interpreter.machine with store := made.2 } })

/-- Binds a name in a scope. -/
def define (interpreter : Interpreter) (scope : ScopeId) (binding : Binding) : Interpreter :=
  { interpreter with
    machine := { interpreter.machine with
      store := interpreter.machine.store.define scope binding } }

/-- Gives a new value to the nearest variable of a name. -/
def assign (interpreter : Interpreter) (scope : ScopeId) (name : String) (value : Value) :
    Except AssignFault Interpreter :=
  (interpreter.machine.store.assign scope name value).map fun store =>
    { interpreter with machine := { interpreter.machine with store } }

/-- Makes a function value of a procedure that sees nothing but itself. -/
def newFunction (interpreter : Interpreter) (procedure : Procedure) : Closure × Interpreter :=
  let made := interpreter.newRoot
  let machine := made.2.machine
  (⟨machine.closures, procedure, made.1⟩,
    { made.2 with machine := { machine with closures := machine.closures + 1 } })

end Interpreter

end Scriptlet
