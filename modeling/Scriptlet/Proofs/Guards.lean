/-
This file proves that runs use no operation where it is not defined. Some operations are
made for a part of their operands only, and rely on a check that is made elsewhere: the
operations on integers and on doubles take any operator but are meant for arithmetic, the
comparison is meant for operators that compare, the functions behind the builtins with one
argument take the first of their arguments, elements are taken of lists and texts, and the
count of calls is lowered as if there were a call to end. Here each of them panics outside
of its part, and a panic ends the run.

The main result says that a run of any program whatsoever, with operations that may panic,
comes to what the run comes to. So none of them ever does.
-/

import Scriptlet.Proofs.CallDepth

namespace Scriptlet

/-! ### Operations that rely on a check -/

/-- An operation that was used where it is not defined. -/
inductive Panic where
  | onInts
  | onFloats
  | mismatch
  | comparison
  | element
  | firstArgument
  | callCount
deriving DecidableEq

namespace BinaryOp

/-- The arithmetic operation of an operator that must have one. -/
def expectArithmetic (panic : Panic) : BinaryOp → Except Panic Arithmetic
  | .arithmetic operation => .ok operation
  | _ => .error panic

/-- An operation on numbers of which not both are integers, for arithmetic operators. -/
def uncheckedNumbers (op : BinaryOp) (left right : Value) :
    Except Panic (Except RuntimeFault Value) :=
  match left.toFloat?, right.toFloat? with
  | some first, some second =>
    (op.expectArithmetic .onFloats).map fun operation => operation.onFloats first second
  | _, _ =>
    (op.expectArithmetic .mismatch).map fun operation => .error (operation.mismatch left right)

/-- An operation on values, for arithmetic operators. -/
def uncheckedArithmetic (op : BinaryOp) (left right : Value) :
    Except Panic (Except RuntimeFault Value) :=
  match left, right with
  | .int first, .int second =>
    (op.expectArithmetic .onInts).map fun operation => operation.onInts first second
  | .list first, .list second =>
    if op = .arithmetic .add then .ok (.ok (.list (first ++ second)))
    else op.uncheckedNumbers (.list first) (.list second)
  | _, _ =>
    if op = .arithmetic .add ∧ (left.isText || right.isText) then .ok (left.join right)
    else op.uncheckedNumbers left right

/-- A comparison of values, for operators that compare. -/
def uncheckedComparison (op : BinaryOp) (left right : Value) : Except Panic Value :=
  match op with
  | .equal => .ok (.bool (left.equal right))
  | .notEqual => .ok (.bool (!left.equal right))
  | _ =>
    match left.order? right with
    | none => .ok (.bool false)
    | some order =>
      match op with
      | .relation comparison => .ok (.bool (comparison.holds order))
      | _ => .error .comparison

/-- An operation on two values, which is told by the class of its operator. -/
def uncheckedApply (op : BinaryOp) (left right : Value) :
    Except Panic (Except RuntimeFault Value) :=
  match op with
  | .arithmetic _ => op.uncheckedArithmetic left right
  | .relation _ | .equal | .notEqual => (op.uncheckedComparison left right).map .ok

theorem uncheckedNumbers_arithmetic (operation : Arithmetic) (left right : Value) :
    (arithmetic operation).uncheckedNumbers left right = .ok (operation.onNumbers left right) := by
  rw [uncheckedNumbers, Arithmetic.onNumbers]
  cases left.toFloat? with
  | none => rfl
  | some first =>
    cases right.toFloat? with
    | none => rfl
    | some second => rfl

theorem uncheckedArithmetic_arithmetic (operation : Arithmetic) (left right : Value) :
    (arithmetic operation).uncheckedArithmetic left right = .ok (operation.apply left right) := by
  unfold uncheckedArithmetic
  split
  · cases operation with
    | _ => rfl
  · cases operation with
    | _ => rfl
  · next notInts notLists =>
    cases operation with
    | add =>
      rw [Arithmetic.apply, uncheckedNumbers_arithmetic]
      · by_cases text : (left.isText || right.isText) = true
        · rw [if_pos ⟨rfl, text⟩, if_pos text]
        · rw [if_neg fun both => text both.2, if_neg text]
      · exact notInts
      · exact notLists
    | _ =>
      rw [if_neg (by simp), uncheckedNumbers_arithmetic, Arithmetic.apply]
      · nofun
      · exact notInts
      · nofun

/-- Told by the class of its operator, an operation is defined for all values. -/
theorem uncheckedApply_eq (op : BinaryOp) (left right : Value) :
    op.uncheckedApply left right = .ok (op.apply left right) := by
  cases op with
  | arithmetic operation => exact uncheckedArithmetic_arithmetic operation left right
  | relation comparison =>
    show (match left.order? right with | none => _ | some order => _ : Except Panic Value).map _ = _
    rw [apply, Relation.test]
    cases left.order? right with
    | none => rfl
    | some order => rfl
  | equal => rfl
  | notEqual => rfl

-- The parts take operators of the other class as well, and are not defined for them.
example : (relation .less).uncheckedArithmetic (.int 1) (.int 2) = .error .onInts := rfl

example : (arithmetic .add).uncheckedComparison (.int 1) (.int 2) = .error .comparison := rfl

end BinaryOp

/-- The element of a list or the character of a text at an index, for values that have elements. -/
def Value.uncheckedElement (target : Value) (index : Int64) :
    Except Panic (Except RuntimeFault Value) :=
  match target with
  | .list items => .ok (elementAt items index)
  | .str text => .ok ((elementAt text.toList index).map Value.ofChar)
  | _ => .error .element

theorem Value.uncheckedElement_eq {target : Value} (indexable : target.isIndexable = true)
    (index : Int64) : target.uncheckedElement index = .ok (target.element index) := by
  cases target with
  | list items => rfl
  | str text => rfl
  | _ => cases indexable

/-- The result of a builtin that takes one argument, for arguments of which there is one. -/
def SingleBuiltin.uncheckedApply (builtin : SingleBuiltin) :
    List Value → Except Panic (Except RuntimeFault Value)
  | first :: _ => .ok (builtin.apply first)
  | [] => .error .firstArgument

namespace Eval

/-- A result of an operation that may have panicked; its fault is reported at a place. -/
def attemptAt {α : Type} (position : Position) :
    Except Panic (Except RuntimeFault α) → Eval (Except Panic α)
  | .ok result => .ok <$> resultAt position result
  | .error panic => pure (.error panic)

/-- Calls the function behind a builtin. -/
def callHandler (builtin : Builtin) (arguments : List Value) (position : Position) :
    Eval (Except Panic Value) :=
  match builtin with
  | .variadic _ => .ok <$> callBuiltin builtin arguments position
  | .single builtin => attemptAt position (builtin.uncheckedApply arguments)

/-- Calls a builtin if it takes as many arguments as there are. -/
def callChecked (builtin : Builtin) (arguments : List Value) (position : Position) :
    Eval (Except Panic Value) :=
  if builtin.accepts arguments.length then callHandler builtin arguments position
  else
    let expected := builtin.arity?.getD arguments.length
    fail (.arityMismatch builtin.name expected arguments.length) position

theorem callChecked_eq (builtin : Builtin) (arguments : List Value) (position : Position) :
    callChecked builtin arguments position = .ok <$> callBuiltin builtin arguments position := by
  cases builtin with
  | variadic builtin => rfl
  | single builtin =>
    match arguments with
    | [] => rfl
    | [value] =>
      rw [callBuiltin_eq]
      rfl
    | first :: second :: rest => rfl

end Eval

/-! ### Runs that may panic -/

/-- An outcome whose value may be a panic, in which case nothing else comes of it. -/
def Outcome.unlessPanic {α : Type} : Outcome (Except Panic α) → Except Panic (Outcome α)
  | .ok (.ok value) machine => .ok (.ok value machine)
  | .ok (.error panic) _ => .error panic
  | .error interrupt machine => .ok (.error interrupt machine)

theorem Eval.unlessPanic_map_ok {α : Type} (step : Eval α) (machine : Machine) :
    Outcome.unlessPanic ((Except.ok <$> step : Eval (Except Panic α)) machine) =
      .ok (step machine) := by
  show Outcome.unlessPanic (EStateM.map Except.ok step machine) = _
  rw [EStateM.map]
  cases step machine with
  | ok value later => rfl
  | error interrupt later => rfl

/-- The outcome of a course that may panic, and whose tasks may. -/
def Course.attempt {α : Type}
    (perform : (task : Task) → Machine → Except Panic (Outcome task.Answer)) :
    Course (Except Panic α) → Except Panic (Outcome α)
  | .ended outcome => outcome.unlessPanic
  | .starts task machine next =>
    match perform task machine with
    | .ok outcome => (next outcome).attempt perform
    | .error panic => .error panic

/-- If no task panics, only the course itself may. -/
theorem Course.attempt_of_ok {α : Type}
    {attempt : (task : Task) → Machine → Except Panic (Outcome task.Answer)}
    {perform : (task : Task) → Eval task.Answer}
    (each : ∀ task machine, attempt task machine = .ok (perform task machine))
    (course : Course (Except Panic α)) :
    course.attempt attempt = (course.run perform).unlessPanic := by
  induction course with
  | ended outcome => rfl
  | starts task machine next inductionHypothesis =>
    rw [Course.attempt, each]
    exact inductionHypothesis (perform task machine)

namespace Plan

variable {α : Type} {perform : (task : Task) → Eval task.Answer}

/-- Ends a call: one call less is under way, of which there must be one. -/
def endCall : Outcome α → Outcome (Except Panic α)
  | .ok value machine =>
    if machine.depth = 0 then .ok (.error .callCount) machine
    else .ok (.ok value) { machine with depth := machine.depth - 1 }
  | .error interrupt machine =>
    if machine.depth = 0 then .ok (.error .callCount) machine
    else .error interrupt { machine with depth := machine.depth - 1 }

/-- A plan that starts a task as part of one more call, and ends the call behind it. -/
def startCall (task : Task) : Plan (Except Panic task.Answer) := fun machine =>
  .starts task { machine with depth := machine.depth + 1 } fun outcome => .ended (endCall outcome)

theorem run_map {β : Type} (change : α → β) (plan : Plan α) :
    (change <$> plan).run perform = change <$> plan.run perform := by
  refine (run_bind perform plan _).trans ?_
  exact (map_eq_pure_bind change (plan.run perform)).symm

/-- If the task leaves the count of calls as it is, there is a call to end behind it. -/
theorem run_startCall {task : Task}
    (kept : ∀ machine, (Outcome.machine (perform task machine)).depth = machine.depth) :
    (startCall task).run perform = .ok <$> (startDeeper task).run perform := by
  funext machine
  have raised := kept { machine with depth := machine.depth + 1 }
  show endCall (perform task { machine with depth := machine.depth + 1 }) =
    EStateM.map Except.ok (Eval.deeper (perform task)) machine
  rw [EStateM.map, Eval.deeper]
  cases came : perform task { machine with depth := machine.depth + 1 } with
  | ok value later =>
    rw [came] at raised
    have positive : later.depth ≠ 0 := fun zero => Nat.succ_ne_zero _ (raised.symm.trans zero)
    exact if_neg positive
  | error interrupt later =>
    rw [came] at raised
    have positive : later.depth ≠ 0 := fun zero => Nat.succ_ne_zero _ (raised.symm.trans zero)
    exact if_neg positive

end Plan

namespace Task

open Plan Eval

variable (context : Context)

/-- The plan of a call of a function that ends the call behind the body. -/
def uncheckedClosurePlan (closure : Closure) (arguments : List Value) (position : Position) :
    Plan (Except Panic Value) :=
  let procedure := closure.procedure
  if arguments.length ≠ procedure.arity then
    step (fail (.arityMismatch procedure.name procedure.arity arguments.length) position)
  else do
    let machine ← step get
    if context.maxDepth ≤ machine.depth then step (failNowhere (.stackOverflow context.maxDepth))
    else
      let scope ← step (newChild closure.scope)
      step (defineAll scope (procedure.parameters.zip arguments))
      match ← startCall (.execBlock procedure.body scope) with
      | .ok signal => .ok <$> step (callResult signal)
      | .error panic => return .error panic

/-- The plan of a task with operations that may panic. Tasks that are not named use none. -/
def uncheckedPlan : (task : Task) → Plan (Except Panic task.Answer)
  | .eval (.binary op left right position) scope => do
    let first ← start (.eval left scope)
    let second ← start (.eval right scope)
    step (attemptAt position (op.uncheckedApply first second))
  | .eval (.index target index position) scope => do
    let container ← start (.eval target scope)
    let place ← start (.eval index scope)
    if container.isIndexable then
      match place with
      | .int number => step (attemptAt position (container.uncheckedElement number))
      | other => step (fail (.expectedInteger other.type) index.position)
    else step (fail (.notIndexable container.type) position)
  | .evalCall (.identifier name namePosition) arguments position scope => do
    match ← step (Eval.lookup? context scope name) with
    | some function => .ok <$> applyPlan arguments position scope function
    | none =>
      match Builtin.ofName? name with
      | none => step (fail (.undefinedVariable name) namePosition)
      | some builtin =>
        let values ← start (.evalAll arguments scope)
        step (callChecked builtin values position)
  | .callClosure closure arguments position =>
    uncheckedClosurePlan context closure arguments position
  | task => .ok <$> task.plan context

/-! ### Nothing panics -/

variable (budget : Nat)

theorem uncheckedClosurePlan_run (closure : Closure) (arguments : List Value)
    (position : Position) :
    (uncheckedClosurePlan context closure arguments position).run (perform context budget) =
      .ok <$> (closurePlan context closure arguments position).run (perform context budget) := by
  rw [uncheckedClosurePlan, closurePlan]
  simp only [run_ite, run_bind, run_step]
  by_cases mismatch : arguments.length ≠ closure.procedure.arity
  · rw [if_pos mismatch, if_pos mismatch]
    rfl
  rw [if_neg mismatch, if_neg mismatch, map_bind]
  refine bind_congr fun machine => ?_
  by_cases refused : context.maxDepth ≤ machine.depth
  · rw [if_pos refused, if_pos refused]
    rfl
  rw [if_neg refused, if_neg refused]
  simp only [map_bind]
  refine bind_congr fun scope => bind_congr fun _ => ?_
  rw [run_startCall (depth_perform context budget _), bind_map_left]
  exact bind_congr fun signal => run_map _ _

/-- With operations that may panic, a task carries out its plan as it does without. -/
theorem uncheckedPlan_run (task : Task) :
    (task.uncheckedPlan context).run (perform context budget) =
      .ok <$> task.perform context (budget + 1) := by
  rw [← plan_run]
  cases task with
  | eval expression scope =>
    cases expression with
    | binary op left right position =>
      simp only [uncheckedPlan, plan, evalPlan, run_bind, run_step, map_bind,
        BinaryOp.uncheckedApply_eq]
      rfl
    | index target index position =>
      simp only [uncheckedPlan, plan, evalPlan, run_bind, run_ite, map_bind]
      refine bind_congr fun container => bind_congr fun place => ?_
      by_cases indexable : container.isIndexable = true
      · rw [if_pos indexable, if_pos indexable]
        cases place with
        | int number =>
          rw [run_step, Value.uncheckedElement_eq indexable]
          rfl
        | _ => rfl
      · rw [if_neg indexable, if_neg indexable]
        rfl
    | _ => exact run_map _ _
  | evalCall callee arguments position scope =>
    cases callee with
    | identifier name namePosition =>
      simp only [uncheckedPlan, plan, callPlan, run_bind, map_bind]
      refine bind_congr fun found => ?_
      cases found with
      | some function => exact run_map _ _
      | none =>
        dsimp only
        cases Builtin.ofName? name with
        | none => rfl
        | some builtin =>
          simp only [run_bind, map_bind, run_step, callChecked_eq]
    | _ => exact run_map _ _
  | callClosure closure arguments position =>
    exact uncheckedClosurePlan_run context budget closure arguments position
  | _ => exact run_map _ _

/-- Performs a task with operations that may panic. -/
def attempt : Nat → (task : Task) → Machine → Except Panic (Outcome task.Answer)
  | 0, _, machine => .ok (.error .exhausted machine)
  | budget + 1, task, machine => (task.uncheckedPlan context machine).attempt (attempt budget)

/-- No task panics. -/
theorem attempt_eq (task : Task) (machine : Machine) :
    attempt context budget task machine = .ok (task.perform context budget machine) := by
  induction budget generalizing task machine with
  | zero => rw [attempt, perform_zero]
  | succ budget inductionHypothesis =>
    have carriedOut := congrFun (uncheckedPlan_run context budget task) machine
    rw [attempt, Course.attempt_of_ok inductionHypothesis]
    show Outcome.unlessPanic ((task.uncheckedPlan context).run (perform context budget) machine) = _
    rw [carriedOut, unlessPanic_map_ok]

end Task

namespace Interpreter

/-- Flushes the output behind an entry call. -/
def endRun (position : Position) (outcome : Outcome Value) : Outcome Value :=
  match outcome with
  | .ok value machine => (flush position *> pure value) machine
  | .error (.fault error) machine => (flush position *> throw (.fault error)) machine
  | .error .exhausted machine => .error .exhausted machine

/-- Runs a program from its entry procedure, with operations that may panic. -/
def attempt (interpreter : Interpreter) (budget : Nat) (program : Program) :
    Except Panic (Run Value) :=
  let loaded := interpreter.load program
  match loaded.procedures.find? loaded.config.entry with
  | none => .ok ⟨.error (.fault ⟨.missingEntryPoint loaded.config.entry, none⟩), loaded⟩
  | some entry =>
    let position := entry.procedure.position
    match Task.attempt loaded.context budget (.callClosure entry [] position) loaded.machine with
    | .ok outcome => .ok (loaded.perform fun _ _ => endRun position outcome)
    | .error panic => .error panic

end Interpreter

/-- Whatever the program, the configuration, the sink and the budget, and whatever has been run
before: a run with operations that may panic comes to what the run comes to, so it uses none of
them where it is not defined. -/
theorem run_without_panic (interpreter : Interpreter) (budget : Nat) (program : Program) :
    interpreter.attempt budget program = .ok (interpreter.run budget program) := by
  rw [Interpreter.attempt, Interpreter.run]
  cases (interpreter.load program).procedures.find? (interpreter.load program).config.entry with
  | none => rfl
  | some entry =>
    simp only [Task.attempt_eq]
    rfl

end Scriptlet
