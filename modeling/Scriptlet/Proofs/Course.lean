/-
This file takes runs apart. A task is one activation of one of the functions that run
expressions and statements. What a task does by itself, up to the tasks it starts, is its
plan: the plan takes primitive steps and names the tasks it starts, and what it does
behind such a task depends on what the task came to. Carrying out a plan, with every task
it names performed with a budget, is what the task does with one unit more.

Whatever is to be shown of every point of a run can then be shown of plans, where all
tasks are treated alike.
-/

import Scriptlet.Evaluation
import Scriptlet.Proofs.Declared
import Scriptlet.Proofs.Steps

namespace Scriptlet

/-! ### Tasks -/

/-- An activation of one of the functions that run expressions and statements. -/
inductive Task where
  | eval (expression : Expr) (scope : ScopeId)
  | evalCondition (condition : Expr) (scope : ScopeId)
  | evalAll (expressions : List Expr) (scope : ScopeId)
  | evalCall (callee : Expr) (arguments : List Expr) (position : Position) (scope : ScopeId)
  | callValue (function : Value) (arguments : List Value) (position : Position)
  | callClosure (closure : Closure) (arguments : List Value) (position : Position)
  | execBlock (statements : List Statement) (scope : ScopeId)
  | execStatement (statement : Statement) (scope : ScopeId)
  | execLoop (condition : Expr) (body : List Statement) (scope : ScopeId)

/-- What a task yields. -/
abbrev Task.Answer : Task → Type
  | .evalCondition _ _ => Bool
  | .evalAll _ _ => List Value
  | .execBlock _ _ => Signal
  | .execStatement _ _ => Signal
  | .execLoop _ _ _ => Signal
  | _ => Value

/-- Performs a task with a budget. -/
def Task.perform (context : Context) (budget : Nat) : (task : Task) → Eval task.Answer
  | .eval expression scope => Eval.eval context budget expression scope
  | .evalCondition condition scope => Eval.evalCondition context budget condition scope
  | .evalAll expressions scope => Eval.evalAll context budget expressions scope
  | .evalCall callee arguments position scope =>
    Eval.evalCall context budget callee arguments position scope
  | .callValue function arguments position =>
    Eval.callValue context budget function arguments position
  | .callClosure closure arguments position =>
    Eval.callClosure context budget closure arguments position
  | .execBlock statements scope => Eval.execBlock context budget statements scope
  | .execStatement statement scope => Eval.execStatement context budget statement scope
  | .execLoop condition body scope => Eval.execLoop context budget condition body scope

/-! ### Plans -/

/-- What a step came to, with the machine it left. -/
abbrev Outcome (α : Type) : Type := EStateM.Result Interrupt Machine α

/-- What happens from a machine on: an end, or a task that is started and what happens once it
has ended. -/
inductive Course (α : Type) where
  | ended (outcome : Outcome α)
  | starts (task : Task) (machine : Machine) (next : Outcome task.Answer → Course α)

namespace Course

variable {α β : Type}

/-- A course followed by another one, if it ends with a value. -/
def andThen (following : α → Machine → Course β) : Course α → Course β
  | .ended (.ok value machine) => following value machine
  | .ended (.error interrupt machine) => .ended (.error interrupt machine)
  | .starts task machine next => .starts task machine fun outcome => (next outcome).andThen following

/-- The outcome of a course whose tasks are performed in some way. -/
def run (perform : (task : Task) → Eval task.Answer) : Course α → Outcome α
  | .ended outcome => outcome
  | .starts task machine next => (next (perform task machine)).run perform

/-- An interrupt of the first course is that of the whole. -/
theorem run_andThen (perform : (task : Task) → Eval task.Answer) (course : Course α)
    (following : α → Machine → Course β) :
    (course.andThen following).run perform =
      match course.run perform with
      | .ok value machine => (following value machine).run perform
      | .error interrupt machine => .error interrupt machine := by
  induction course with
  | ended outcome =>
    cases outcome with
    | ok value machine => rfl
    | error interrupt machine => rfl
  | starts task machine next inductionHypothesis => exact inductionHypothesis (perform task machine)

end Course

/-- What is done from each machine. -/
def Plan (α : Type) : Type := Machine → Course α

namespace Plan

variable {α β : Type}

/-- A plan that takes a step and starts no task. -/
def step (taken : Eval α) : Plan α := fun machine => .ended (taken machine)

/-- A plan that starts a task and yields what the task yields. -/
def start (task : Task) : Plan task.Answer := fun machine => .starts task machine .ended

/-- A plan that starts a task as part of one more call. -/
def startDeeper (task : Task) : Plan task.Answer := fun machine =>
  .starts task { machine with depth := machine.depth + 1 } fun outcome =>
    .ended (Eval.deeper (fun _ => outcome) machine)

instance : Monad Plan where
  pure value := step (pure value)
  bind plan following := fun machine => (plan machine).andThen following

/-- Carries out a plan, with its tasks performed in some way. -/
def run (perform : (task : Task) → Eval task.Answer) (plan : Plan α) : Eval α :=
  fun machine => (plan machine).run perform

variable (perform : (task : Task) → Eval task.Answer)

@[simp] theorem run_step (taken : Eval α) : (step taken).run perform = taken := rfl

@[simp] theorem run_start (task : Task) : (start task).run perform = perform task := rfl

/-- Carrying out a sequence of plans is carrying them out one behind the other. -/
@[simp] theorem run_bind (plan : Plan α) (following : α → Plan β) :
    (plan >>= following).run perform =
      plan.run perform >>= fun value => (following value).run perform := by
  funext machine
  refine (Course.run_andThen perform (plan machine) following).trans ?_
  show _ = EStateM.bind (plan.run perform) _ machine
  rw [EStateM.bind, run]
  cases (plan machine).run perform with
  | ok value middle => rfl
  | error interrupt middle => rfl

@[simp] theorem run_ite {condition : Prop} [Decidable condition] (first second : Plan α) :
    (if condition then first else second).run perform =
      if condition then first.run perform else second.run perform := by
  split <;> rfl

end Plan

/-! ### What tasks do -/

namespace Task

open Plan Eval

/-- The plan of an expression. -/
def evalPlan (context : Context) (scope : ScopeId) : Expr → Plan Value
  | .literal value _ => pure (.ofLiteral value)
  | .identifier name position => step (readName context scope name position)
  | .unary (.update kind yield) operand position =>
    match operand with
    | .identifier name namePosition => step do
      let previous ← readName context scope name namePosition
      let updated ← resultAt position ((UnaryOp.update kind yield).apply previous)
      Eval.assign context scope name updated position
      match yield with
      | .updated => return updated
      | .previous => return previous
    | _ => step (fail .invalidAssignmentTarget position)
  | .unary op operand position => do
    let value ← start (.eval operand scope)
    step (resultAt position (op.apply value))
  | .binary op left right position => do
    let first ← start (.eval left scope)
    let second ← start (.eval right scope)
    step (resultAt position (op.apply first second))
  | .logical op left right _ => do
    let first ← start (.evalCondition left scope)
    if decides op first then return .bool first
    else
      let second ← start (.evalCondition right scope)
      return .bool second
  | .call callee arguments position => start (.evalCall callee arguments position scope)
  | .lambda procedure _ => step (newClosure procedure scope)
  | .index target index position => do
    let container ← start (.eval target scope)
    let place ← start (.eval index scope)
    if container.isIndexable then
      match place with
      | .int number => step (resultAt position (container.element number))
      | other => step (fail (.expectedInteger other.type) index.position)
    else step (fail (.notIndexable container.type) position)

/-- The plan of a call of a value that is known once the arguments are. -/
def applyPlan (arguments : List Expr) (position : Position) (scope : ScopeId) (function : Value) :
    Plan Value := do
  let values ← start (.evalAll arguments scope)
  start (.callValue function values position)

/-- The plan of a call. -/
def callPlan (context : Context) (arguments : List Expr) (position : Position) (scope : ScopeId) :
    Expr → Plan Value
  | .identifier name namePosition => do
    match ← step (Eval.lookup? context scope name) with
    | some function => applyPlan arguments position scope function
    | none =>
      match Builtin.ofName? name with
      | none => step (fail (.undefinedVariable name) namePosition)
      | some builtin =>
        let values ← start (.evalAll arguments scope)
        step (callBuiltin builtin values position)
  | callee => do
    let function ← start (.eval callee scope)
    applyPlan arguments position scope function

/-- The plan of a call of a function. -/
def closurePlan (context : Context) (closure : Closure) (arguments : List Value)
    (position : Position) : Plan Value :=
  let procedure := closure.procedure
  if arguments.length ≠ procedure.arity then
    step (fail (.arityMismatch procedure.name procedure.arity arguments.length) position)
  else do
    let machine ← step get
    if context.maxDepth ≤ machine.depth then step (failNowhere (.stackOverflow context.maxDepth))
    else
      let scope ← step (newChild closure.scope)
      step (defineAll scope (procedure.parameters.zip arguments))
      let signal ← startDeeper (.execBlock procedure.body scope)
      step (callResult signal)

/-- The plan of statements in a scope of their own. -/
def innerPlan (statements : List Statement) (scope : ScopeId) : Plan Signal := do
  let inner ← step (newChild scope)
  start (.execBlock statements inner)

/-- The plan of a statement. -/
def statementPlan (context : Context) (scope : ScopeId) : Statement → Plan Signal
  | .declare name value mutability _ => do
    let result ← start (.eval value scope)
    step (Eval.define scope ⟨name, result, mutability⟩)
    return .normal
  | .assign name value position => do
    let result ← start (.eval value scope)
    step (Eval.assign context scope name result position)
    return .normal
  | .leave none _ => return .returning .void
  | .leave (some value) _ => do
    let result ← start (.eval value scope)
    return .returning result
  | .branch condition thenBranch elseBranch _ => do
    let holds ← start (.evalCondition condition scope)
    if holds then innerPlan thenBranch scope
    else
      match elseBranch with
      | some statements => innerPlan statements scope
      | none => return .normal
  | .loop condition body _ => start (.execLoop condition body scope)
  | .block statements _ => innerPlan statements scope
  | .loopBody statements _ => do
    match ← innerPlan statements scope with
    | .continuing _ => return .normal
    | signal => return signal
  | .evaluate expression _ => do
    let _ ← start (.eval expression scope)
    return .normal
  | .breakLoop position => return .breaking position
  | .continueLoop position => return .continuing position

/-- The plan of a task. -/
def plan (context : Context) : (task : Task) → Plan task.Answer
  | .eval expression scope => evalPlan context scope expression
  | .evalCondition condition scope => do
    let value ← start (.eval condition scope)
    step (resultAt condition.position value.expectBool)
  | .evalAll [] _ => pure ([] : List Value)
  | .evalAll (expression :: rest) scope => do
    let value ← start (.eval expression scope)
    let values ← start (.evalAll rest scope)
    pure (value :: values : List Value)
  | .evalCall callee arguments position scope => callPlan context arguments position scope callee
  | .callValue (.function closure) arguments position =>
    start (.callClosure closure arguments position)
  | .callValue other _ position => step (fail (.notCallable other.type) position)
  | .callClosure closure arguments position => closurePlan context closure arguments position
  | .execBlock [] _ => pure Signal.normal
  | .execBlock (statement :: rest) scope => do
    let inner ← step (scopeFor statement scope)
    match ← start (.execStatement statement inner) with
    | .normal => start (.execBlock rest inner)
    | signal => step (pure signal)
  | .execStatement statement scope => statementPlan context scope statement
  | .execLoop condition body scope => do
    let holds ← start (.evalCondition condition scope)
    if holds then
      match ← innerPlan body scope with
      | .normal => start (.execLoop condition body scope)
      | .continuing _ => start (.execLoop condition body scope)
      | .breaking _ => step (pure .normal)
      | .returning value => step (pure (.returning value))
    else step (pure .normal)

/-! ### Plans are what is performed -/

variable (context : Context) (budget : Nat)

/-- The plan of an expression, carried out by the evaluator, is the evaluator itself. -/
theorem evalPlan_run (expression : Expr) (scope : ScopeId) :
    (evalPlan context scope expression).run (perform context budget) =
      Eval.eval context (budget + 1) expression scope := by
  rw [Eval.eval.eq_def]
  cases expression with
  | unary op operand position =>
    cases op with
    | update kind yield =>
      cases operand with
      | identifier name namePosition => rfl
      | _ => rfl
    | _ => exact run_bind _ _ _
  | binary op left right position =>
    simp only [evalPlan, run_bind]
    rfl
  | logical op left right position =>
    simp only [evalPlan, run_bind, run_ite]
    rfl
  | index target index position =>
    simp only [evalPlan, run_bind, run_ite]
    refine bind_congr fun container => bind_congr fun place => ?_
    cases place with
    | _ => rfl
  | _ => rfl

theorem applyPlan_run (arguments : List Expr) (position : Position) (scope : ScopeId)
    (function : Value) :
    (applyPlan arguments position scope function).run (perform context budget) =
      Eval.evalAll context budget arguments scope >>= fun values =>
        Eval.callValue context budget function values position :=
  run_bind _ _ _

theorem callPlan_run (callee : Expr) (arguments : List Expr) (position : Position)
    (scope : ScopeId) :
    (callPlan context arguments position scope callee).run (perform context budget) =
      Eval.evalCall context (budget + 1) callee arguments position scope := by
  rw [Eval.evalCall.eq_def]
  cases callee with
  | identifier name namePosition =>
    refine (run_bind _ _ _).trans (bind_congr fun found => ?_)
    cases found with
    | some function => exact applyPlan_run context budget arguments position scope function
    | none =>
      dsimp only
      cases Builtin.ofName? name with
      | none => rfl
      | some builtin => exact run_bind _ _ _
  | _ =>
    refine (run_bind _ _ _).trans (bind_congr fun function => ?_)
    exact applyPlan_run context budget arguments position scope function

theorem closurePlan_run (closure : Closure) (arguments : List Value) (position : Position) :
    (closurePlan context closure arguments position).run (perform context budget) =
      Eval.callClosure context (budget + 1) closure arguments position := by
  rw [Eval.callClosure.eq_def, closurePlan]
  simp only [run_ite, run_bind]
  rfl

theorem innerPlan_run (statements : List Statement) (scope : ScopeId) :
    (innerPlan statements scope).run (perform context budget) =
      newChild scope >>= fun inner => Eval.execBlock context budget statements inner :=
  run_bind _ _ _

theorem statementPlan_run (statement : Statement) (scope : ScopeId) :
    (statementPlan context scope statement).run (perform context budget) =
      Eval.execStatement context (budget + 1) statement scope := by
  rw [Eval.execStatement.eq_def]
  cases statement with
  | declare name value mutability position =>
    simp only [statementPlan, run_bind]
    rfl
  | assign name value position =>
    simp only [statementPlan, run_bind]
    rfl
  | leave value position =>
    cases value with
    | none => rfl
    | some value => exact run_bind _ _ _
  | branch condition thenBranch elseBranch position =>
    simp only [statementPlan, run_bind, run_ite, innerPlan_run]
    refine bind_congr fun holds => ?_
    cases elseBranch with
    | none => rfl
    | some statements => rw [innerPlan_run]
  | block statements position => exact innerPlan_run context budget statements scope
  | loopBody statements position =>
    simp only [statementPlan, run_bind, innerPlan_run, bind_assoc]
    refine bind_congr fun inner => bind_congr fun signal => ?_
    cases signal with
    | _ => rfl
  | evaluate expression position => exact run_bind _ _ _
  | _ => rfl

/-- What a task does with a budget is to carry out its plan with one unit less. -/
theorem plan_run (task : Task) :
    (task.plan context).run (perform context budget) = task.perform context (budget + 1) := by
  cases task with
  | eval expression scope => exact evalPlan_run context budget expression scope
  | evalCondition condition scope =>
    rw [perform, Eval.evalCondition]
    exact run_bind _ _ _
  | evalAll expressions scope =>
    rw [perform, Eval.evalAll.eq_def]
    cases expressions with
    | nil => rfl
    | cons expression rest =>
      simp only [plan, run_bind]
      rfl
  | evalCall callee arguments position scope =>
    exact callPlan_run context budget callee arguments position scope
  | callValue function arguments position =>
    rw [perform, Eval.callValue.eq_def]
    cases function with
    | _ => rfl
  | callClosure closure arguments position =>
    exact closurePlan_run context budget closure arguments position
  | execBlock statements scope =>
    cases statements with
    | nil =>
      rw [perform, Eval.execBlock]
      rfl
    | cons statement rest =>
      rw [perform, Eval.execBlock_cons]
      simp only [plan, run_bind]
      refine bind_congr fun inner => bind_congr fun signal => ?_
      cases signal with
      | _ => rfl
  | execStatement statement scope => exact statementPlan_run context budget statement scope
  | execLoop condition body scope =>
    rw [perform, Eval.execLoop]
    simp only [plan, run_bind, run_ite, innerPlan_run, bind_assoc]
    refine bind_congr fun holds => ?_
    congr 1
    refine bind_congr fun inner => bind_congr fun signal => ?_
    cases signal with
    | _ => rfl

/-- Without a budget no task comes to anything. -/
theorem perform_zero (task : Task) (machine : Machine) :
    task.perform context 0 machine = .error .exhausted machine := by
  cases task with
  | eval expression scope => rw [perform, Eval.eval]; rfl
  | evalCondition condition scope => rw [perform, Eval.evalCondition]; rfl
  | evalAll expressions scope => rw [perform, Eval.evalAll]; rfl
  | evalCall callee arguments position scope => rw [perform, Eval.evalCall]; rfl
  | callValue function arguments position => rw [perform, Eval.callValue]; rfl
  | callClosure closure arguments position => rw [perform, Eval.callClosure]; rfl
  | execBlock statements scope => rw [perform, Eval.execBlock]; rfl
  | execStatement statement scope => rw [perform, Eval.execStatement]; rfl
  | execLoop condition body scope => rw [perform, Eval.execLoop]; rfl

end Task

end Scriptlet
