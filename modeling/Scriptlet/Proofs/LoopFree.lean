/-
This file says which programs have no loops, in the bodies of their procedures and of the
functions written inside them. A value is free of loops if the function values it holds
are, and a task is if what it is given is. The weight of a task measures the code that it
is about to go through.
-/

import Scriptlet.Proofs.Course
import Scriptlet.Proofs.Stored

namespace Scriptlet

/-! ### Trees -/

mutual

/-- Whether there is no loop in an expression. -/
def Expr.loopFree : Expr → Bool
  | .literal _ _ => true
  | .identifier _ _ => true
  | .unary _ operand _ => operand.loopFree
  | .binary _ left right _ => left.loopFree && right.loopFree
  | .logical _ left right _ => left.loopFree && right.loopFree
  | .call callee arguments _ => callee.loopFree && loopFreeExprs arguments
  | .lambda procedure _ => procedure.loopFree
  | .index target index _ => target.loopFree && index.loopFree

/-- Whether there is no loop in expressions. -/
def loopFreeExprs : List Expr → Bool
  | [] => true
  | first :: rest => first.loopFree && loopFreeExprs rest

/-- Whether a statement neither is a loop nor has one in it. -/
def Statement.loopFree : Statement → Bool
  | .declare _ value _ _ => value.loopFree
  | .assign _ value _ => value.loopFree
  | .leave none _ => true
  | .leave (some value) _ => value.loopFree
  | .branch condition thenBranch none _ => condition.loopFree && loopFreeStatements thenBranch
  | .branch condition thenBranch (some elseBranch) _ =>
    condition.loopFree && loopFreeStatements thenBranch && loopFreeStatements elseBranch
  | .loop _ _ _ => false
  | .block statements _ => loopFreeStatements statements
  | .loopBody statements _ => loopFreeStatements statements
  | .evaluate expression _ => expression.loopFree
  | .breakLoop _ => true
  | .continueLoop _ => true

/-- Whether there is no loop in statements. -/
def loopFreeStatements : List Statement → Bool
  | [] => true
  | first :: rest => first.loopFree && loopFreeStatements rest

/-- Whether there is no loop in the body of a procedure. -/
def Procedure.loopFree : Procedure → Bool
  | ⟨_, _, body, _⟩ => loopFreeStatements body

end

/-- Whether there is no loop in a program. -/
def Program.loopFree (program : Program) : Bool :=
  program.procedures.all Procedure.loopFree

/-! ### Values and tasks -/

/-- There is no loop in the procedure of a function value. -/
def Closure.LoopFree (closure : Closure) : Prop :=
  closure.procedure.loopFree = true

theorem Closure.LoopFree.body {closure : Closure} (free : closure.LoopFree) :
    loopFreeStatements closure.procedure.body = true := by
  obtain ⟨identity, ⟨name, parameters, body, position⟩, scope⟩ := closure
  exact free

/-- There is no loop in the functions that a value holds. -/
abbrev Value.LoopFree (value : Value) : Prop :=
  value.Holds Closure.LoopFree

/-- There is no loop in the procedures of a run. -/
def ProcedureTable.LoopFree (table : ProcedureTable) : Prop :=
  ∀ closure ∈ table.entries, closure.LoopFree

theorem ProcedureTable.loopFree_build {program : Program} (free : program.loopFree = true)
    (identity : Nat) (scope : ScopeId) :
    (ProcedureTable.build identity scope program.procedures).LoopFree := by
  intro closure member
  obtain ⟨place, inside, rfl⟩ := List.mem_mapIdx.mp (List.mem_reverse.mp member)
  exact List.all_eq_true.mp free _ (List.getElem_mem inside)

namespace Task

/-- There is no loop in what a task is given. -/
def LoopFree : Task → Prop
  | .eval expression _ => expression.loopFree = true
  | .evalCondition condition _ => condition.loopFree = true
  | .evalAll expressions _ => loopFreeExprs expressions = true
  | .evalCall callee arguments _ _ => callee.loopFree = true ∧ loopFreeExprs arguments = true
  | .callValue function arguments _ => function.LoopFree ∧ ∀ value ∈ arguments, value.LoopFree
  | .callClosure closure arguments _ => closure.LoopFree ∧ ∀ value ∈ arguments, value.LoopFree
  | .execBlock statements _ => loopFreeStatements statements = true
  | .execStatement statement _ => statement.loopFree = true
  | .execLoop _ _ _ => False

/-- There is no loop in what a task yields. -/
def YieldsLoopFree : (task : Task) → task.Answer → Prop
  | .eval _ _, value => value.LoopFree
  | .evalCondition _ _, _ => True
  | .evalAll _ _, values => ∀ value ∈ values, value.LoopFree
  | .evalCall _ _ _ _, value => value.LoopFree
  | .callValue _ _ _, value => value.LoopFree
  | .callClosure _ _ _, value => value.LoopFree
  | .execBlock _ _, signal => signal.Holds Closure.LoopFree
  | .execStatement _ _, signal => signal.Holds Closure.LoopFree
  | .execLoop _ _ _, signal => signal.Holds Closure.LoopFree

/-- The size of the code that a task goes through by itself, that of the functions it calls left
out. Sizes are tripled to leave room for the tasks that hand the same code on. -/
noncomputable def weight : Task → Nat
  | .eval expression _ => 3 * sizeOf expression
  | .evalCondition condition _ => 3 * sizeOf condition + 1
  | .evalAll expressions _ => 3 * sizeOf expressions
  | .evalCall callee arguments _ _ => 3 * (sizeOf callee + sizeOf arguments) + 2
  | .callValue _ _ _ => 1
  | .callClosure _ _ _ => 0
  | .execBlock statements _ => 3 * sizeOf statements
  | .execStatement statement _ => 3 * sizeOf statement
  | .execLoop _ _ _ => 0

end Task

end Scriptlet
