/-
This file proves that calls are counted right. A machine counts the calls that are under
way; the count is raised by hand before the body of a function runs and lowered behind it.
The main result says that every task leaves the count as it found it, however it ends; that
at every point inside a task the count is what it was at the start of the task and one more
for each call around the point; and that a call is refused exactly when as many calls as
allowed are under way. So an interpreter never has fewer calls left for a run or a step than
when it was new.
-/

import Scriptlet.Proofs.CallLimit
import Scriptlet.Proofs.Code.LoopControl

namespace Scriptlet

/-! ### The count along a course -/

/-- Every task of the course starts with `rise` more calls under way than at the start of the
course, where there are `depth`, and if the tasks leave the count as it is, so does the course. -/
def Course.Level {α : Type} (depth rise : Nat) : Course α → Prop
  | .ended outcome => outcome.machine.depth = depth
  | .starts _ machine next =>
    machine.depth = depth + rise ∧
      ∀ outcome, outcome.machine.depth = machine.depth → (next outcome).Level depth rise

/-- Every task of the plan starts with `rise` more calls under way than the plan. -/
def Plan.Level {α : Type} (rise : Nat) (plan : Plan α) : Prop :=
  ∀ machine, (plan machine).Level machine.depth rise

theorem Course.Level.andThen {α β : Type} {depth rise : Nat} {course : Course α}
    {following : α → Machine → Course β} (level : course.Level depth rise)
    (next : ∀ value machine, machine.depth = depth → (following value machine).Level depth rise) :
    (course.andThen following).Level depth rise := by
  induction course with
  | ended outcome =>
    cases outcome with
    | ok value machine => exact next value machine level
    | error interrupt machine => exact level
  | starts task machine rest inductionHypothesis =>
    exact ⟨level.1, fun outcome same => inductionHypothesis outcome (level.2 outcome same)⟩

theorem Task.depth_perform (context : Context) (budget : Nat) (task : Task) (machine : Machine) :
    (Outcome.machine (task.perform context budget machine)).depth = machine.depth :=
  (task.perform_appends context budget machine).2

/-- Where tasks leave the count as it is, a task that a course starts has the count of the
course. -/
theorem Course.Level.of_starts {α : Type} {depth rise : Nat} {course : Course α}
    {perform : (task : Task) → Eval task.Answer} {task : Task} {start : Machine}
    (level : course.Level depth rise)
    (kept : ∀ task machine, (Outcome.machine (perform task machine)).depth = machine.depth)
    (starts : course.Starts perform task start) : start.depth = depth + rise := by
  induction starts with
  | here next => exact level.1
  | later behind inductionHypothesis => exact inductionHypothesis (level.2 _ (kept _ _))

theorem Eval.Has.callBuiltin_appending (builtin : Builtin) (arguments : List Value)
    (position : Position) :
    (Eval.callBuiltin builtin arguments position).Has .appending := by
  have matched : Plan.Matched ⟨.empty, 0⟩ ⟨.empty, 0⟩ _ _ :=
    .builtin builtin arguments position
  exact matched.appends (Task.perform_appends ⟨.empty, 0⟩ 0)

namespace Plan.Level

variable {α β : Type} {rise : Nat}

theorem step {taken : Eval α} (appends : taken.Has .appending) : (Plan.step taken).Level rise :=
  fun machine => (appends machine).2

theorem quiet {taken : Eval α} (quiet : taken.Quiet) : (Plan.step taken).Level rise :=
  step (.of_quiet quiet)

theorem pure (value : α) : (Pure.pure value : Plan α).Level rise :=
  quiet (.pure value)

theorem start (task : Task) : (Plan.start task).Level 0 :=
  fun _ => ⟨rfl, fun _ same => same⟩

theorem startDeeper (task : Task) : (Plan.startDeeper task).Level 1 := by
  refine fun machine => ⟨rfl, fun outcome same => ?_⟩
  show (Outcome.machine (Eval.deeper (fun _ => outcome) machine)).depth = machine.depth
  cases outcome with
  | ok value later => exact congrArg (· - 1) same
  | error interrupt later => exact congrArg (· - 1) same

theorem bind {plan : Plan α} {following : α → Plan β} (first : plan.Level rise)
    (next : ∀ value, (following value).Level rise) : (plan >>= following).Level rise := by
  refine fun machine => (first machine).andThen fun value middle same => ?_
  rw [← same]
  exact next value middle

theorem ite {condition : Prop} [Decidable condition] {plan other : Plan α}
    (whenTrue : plan.Level rise) (whenFalse : other.Level rise) :
    (if condition then plan else other).Level rise := by
  split
  · exact whenTrue
  · exact whenFalse

end Plan.Level

namespace Task

open Plan

variable (context : Context)

/-- The number of calls around the tasks that a task starts, beyond those around the task. -/
def ownCalls : Task → Nat
  | .callClosure _ _ _ => 1
  | _ => 0

theorem evalPlan_level (scope : ScopeId) (expression : Expr) :
    (evalPlan context scope expression).Level 0 := by
  cases expression with
  | literal value position => exact .pure _
  | identifier name position => exact .quiet (.readName context scope name position)
  | unary op operand position =>
    cases op with
    | update kind yield =>
      cases operand with
      | identifier name namePosition =>
        refine .quiet (.bind (.readName context scope name namePosition) fun previous => ?_)
        refine .bind (.resultAt position _) fun updated => ?_
        refine .bind (.assign context scope name updated position) fun _ => ?_
        cases yield with
        | _ => exact .pure _
      | _ => exact .quiet (.fail _ position)
    | _ => exact .bind (.start _) fun value => .quiet (.resultAt position _)
  | binary op left right position =>
    refine .bind (.start _) fun first => .bind (.start _) fun second => ?_
    exact .quiet (.resultAt position _)
  | logical op left right position =>
    refine .bind (.start _) fun first => .ite (.pure _) ?_
    exact .bind (.start _) fun second => .pure _
  | call callee arguments position => exact .start _
  | lambda procedure position => exact .quiet (.newClosure procedure scope)
  | index target index position =>
    refine .bind (.start _) fun container => .bind (.start _) fun place => ?_
    refine .ite ?_ (.quiet (.fail _ position))
    cases place with
    | int number => exact .quiet (.resultAt position _)
    | _ => exact .quiet (.fail _ _)

theorem applyPlan_level (arguments : List Expr) (position : Position) (scope : ScopeId)
    (function : Value) : (applyPlan arguments position scope function).Level 0 :=
  .bind (.start _) fun _ => .start _

theorem callPlan_level (arguments : List Expr) (position : Position) (scope : ScopeId)
    (callee : Expr) : (callPlan context arguments position scope callee).Level 0 := by
  cases callee with
  | identifier name namePosition =>
    refine .bind (.quiet (.lookup? context scope name)) fun found => ?_
    cases found with
    | some function => exact applyPlan_level arguments position scope function
    | none =>
      dsimp only
      cases Builtin.ofName? name with
      | none => exact .quiet (.fail _ namePosition)
      | some builtin =>
        refine .bind (.start _) fun values => ?_
        exact .step (.callBuiltin_appending builtin values position)
  | _ =>
    exact .bind (.start _) fun function => applyPlan_level arguments position scope function

theorem closurePlan_level (closure : Closure) (arguments : List Value) (position : Position) :
    (closurePlan context closure arguments position).Level 1 := by
  rw [closurePlan_eq]
  refine .ite (.quiet (.fail _ position)) (.bind (.step (.allowCall context)) fun _ => ?_)
  refine .bind (.quiet (.newChild closure.scope)) fun scope => ?_
  refine .bind (.quiet (.defineAll scope _)) fun _ => ?_
  exact .bind (.startDeeper _) fun signal => .quiet (.callResult signal)

theorem innerPlan_level (statements : List Statement) (scope : ScopeId) :
    (innerPlan statements scope).Level 0 :=
  .bind (.quiet (.newChild scope)) fun _ => .start _

theorem statementPlan_level (scope : ScopeId) (statement : Statement) :
    (statementPlan context scope statement).Level 0 := by
  cases statement with
  | declare name value mutability position =>
    exact .bind (.start _) fun result => .bind (.quiet (.define scope _)) fun _ => .pure _
  | assign name value position =>
    refine .bind (.start _) fun result => ?_
    exact .bind (.quiet (.assign context scope name result position)) fun _ => .pure _
  | leave value position =>
    cases value with
    | none => exact .pure _
    | some value => exact .bind (.start _) fun result => .pure _
  | branch condition thenBranch elseBranch position =>
    refine .bind (.start _) fun holds => .ite (innerPlan_level thenBranch scope) ?_
    cases elseBranch with
    | none => exact .pure _
    | some statements => exact innerPlan_level statements scope
  | loop condition body position => exact .start _
  | block statements position => exact innerPlan_level statements scope
  | loopBody statements position =>
    refine .bind (innerPlan_level statements scope) fun signal => ?_
    cases signal with
    | _ => exact .pure _
  | evaluate expression position => exact .bind (.start _) fun result => .pure _
  | breakLoop position => exact .pure _
  | continueLoop position => exact .pure _

/-- Only a call of a function starts a task with more calls under way. -/
theorem plan_level (task : Task) : (task.plan context).Level task.ownCalls := by
  cases task with
  | eval expression scope => exact evalPlan_level context scope expression
  | evalCondition condition scope =>
    exact .bind (.start _) fun value => .quiet (.resultAt condition.position _)
  | evalAll expressions scope =>
    cases expressions with
    | nil => exact .pure _
    | cons expression rest =>
      exact .bind (.start _) fun value => .bind (.start _) fun values => .pure _
  | evalCall callee arguments position scope =>
    exact callPlan_level context arguments position scope callee
  | callValue function arguments position =>
    cases function with
    | function closure => exact .start _
    | _ => exact .quiet (.fail _ position)
  | callClosure closure arguments position =>
    exact closurePlan_level context closure arguments position
  | execBlock statements scope =>
    cases statements with
    | nil => exact .pure _
    | cons statement rest =>
      refine .bind (.quiet (.scopeFor statement scope)) fun inner => ?_
      refine .bind (.start _) fun signal => ?_
      cases signal with
      | normal => exact .start (.execBlock rest inner)
      | _ => exact .pure _
  | execStatement statement scope => exact statementPlan_level context scope statement
  | execLoop condition body scope =>
    refine .bind (.start _) fun holds =>
      .ite (.bind (innerPlan_level body scope) fun signal => ?_) (.pure _)
    cases signal with
    | normal => exact .start (.execLoop condition body scope)
    | continuing position => exact .start (.execLoop condition body scope)
    | breaking position => exact .pure _
    | returning value => exact .pure _

end Task

/-! ### Calls around a task -/

theorem Eval.defineAll_yields (scope : ScopeId) (pairs : List (String × Value))
    (machine : Machine) : ∃ later, Eval.defineAll scope pairs machine = .ok () later := by
  induction pairs generalizing machine with
  | nil => exact ⟨machine, rfl⟩
  | cons pair rest inductionHypothesis =>
    obtain ⟨later, defined⟩ := inductionHypothesis
      { machine with store := machine.store.define scope ⟨pair.1, pair.2, .constant⟩ }
    exact ⟨later, (EStateM.bind_of_ok (Eval.define_apply scope _ machine)).trans defined⟩

theorem Plan.step_bind_of_ok {α β : Type} {taken : Eval α} {following : α → Plan β}
    {machine middle : Machine} {value : α} (yields : taken machine = .ok value middle) :
    (Plan.step taken >>= following) machine = following value middle := by
  show Course.andThen following (.ended (taken machine)) = _
  rw [yields]
  rfl

namespace Activation

variable {context : Context}

/-- The task fails by itself: it has started no other task. -/
structure FailsAlone (context : Context) (error : RuntimeError) (activation : Activation) :
    Prop where
  stops : activation.Stops context (.fault error)
  alone : ∀ inner, ¬activation.Starts context inner

/-- One task is the other one or starts it, by itself or through the tasks it starts, and there
are as many calls among the tasks that are under way around the other one. -/
inductive Nests (context : Context) (outer : Activation) : Nat → Activation → Prop where
  | refl : Nests context outer 0 outer
  | tail {calls : Nat} {middle inner : Activation} :
    Nests context outer calls middle → middle.Starts context inner →
    Nests context outer (calls + middle.task.ownCalls) inner

theorem involves_iff_nests {outer inner : Activation} :
    outer.Involves context inner ↔ ∃ calls, outer.Nests context calls inner := by
  constructor
  · intro involves
    induction involves with
    | refl => exact ⟨0, .refl⟩
    | tail _ starts inductionHypothesis =>
      obtain ⟨calls, nests⟩ := inductionHypothesis
      exact ⟨_, .tail nests starts⟩
  · rintro ⟨calls, nests⟩
    induction nests with
    | refl => exact .refl
    | tail _ starts inductionHypothesis => exact .tail inductionHypothesis starts

/-- A task leaves as many calls under way as there were. -/
theorem depth_outcome (activation : Activation) :
    (activation.outcome context).machine.depth = activation.machine.depth :=
  activation.task.depth_perform context activation.budget activation.machine

theorem Starts.depth {outer inner : Activation} (starts : outer.Starts context inner) :
    inner.machine.depth = outer.machine.depth + outer.task.ownCalls := by
  cases starts with
  | @intro budget task inner machine start starts =>
    exact (task.plan_level context machine).of_starts (Task.depth_perform context budget) starts

/-- A call starts the body of the function exactly when the number of arguments is right and fewer
calls are under way than allowed. -/
theorem starts_call_iff {budget : Nat} {closure : Closure} {arguments : List Value}
    {position : Position} {machine : Machine} :
    (∃ inner, Starts context ⟨budget + 1, .callClosure closure arguments position, machine⟩ inner) ↔
      arguments.length = closure.procedure.arity ∧ machine.depth < context.maxDepth := by
  have admission := Eval.allowCall_apply context machine
  constructor
  · rintro ⟨inner, starts⟩
    cases starts with
    | intro starts =>
      rw [Task.plan, Task.closurePlan_eq] at starts
      by_cases fitting : arguments.length = closure.procedure.arity
      · rw [if_neg (not_not_intro fitting)] at starts
        obtain ⟨_, _, allowed, -⟩ := Plan.starts_step_bind starts
        refine ⟨fitting, Nat.lt_of_not_le fun refused => ?_⟩
        rw [if_pos refused, allowed] at admission
        cases admission
      · rw [if_pos fitting] at starts
        cases starts
  · rintro ⟨fitting, fewer⟩
    rw [if_neg (Nat.not_le_of_lt fewer)] at admission
    obtain ⟨bound, defined⟩ := Eval.defineAll_yields machine.store.scopes.size
      (closure.procedure.parameters.zip arguments)
      { machine with store := (machine.store.newChild closure.scope).2 }
    refine ⟨⟨budget, .execBlock closure.procedure.body machine.store.scopes.size,
      { bound with depth := bound.depth + 1 }⟩, .intro ?_⟩
    rw [Task.plan, Task.closurePlan_eq, if_neg (not_not_intro fitting),
      Plan.step_bind_of_ok admission, Plan.step_bind_of_ok (Eval.newChild_apply _ machine),
      Plan.step_bind_of_ok defined]
    exact .here _

/-- No task starts with more calls under way than allowed. -/
theorem Starts.depth_le {outer inner : Activation} (starts : outer.Starts context inner)
    (within : outer.machine.depth ≤ context.maxDepth) :
    inner.machine.depth ≤ context.maxDepth := by
  rw [starts.depth]
  obtain ⟨budget, task, machine⟩ := outer
  cases task with
  | callClosure closure arguments position =>
    cases starts with
    | intro starts => exact (starts_call_iff.mp ⟨_, .intro starts⟩).2
  | _ => exact within

/-- Inside a task there are as many calls under way as at its start, and one more for each call
around the point, but no more than allowed. -/
theorem Nests.depth {outer inner : Activation} {calls : Nat}
    (nests : outer.Nests context calls inner)
    (within : outer.machine.depth ≤ context.maxDepth) :
    inner.machine.depth = outer.machine.depth + calls ∧
      inner.machine.depth ≤ context.maxDepth := by
  induction nests with
  | refl => exact ⟨rfl, within⟩
  | tail _ starts inductionHypothesis =>
    refine ⟨?_, starts.depth_le inductionHypothesis.2⟩
    rw [starts.depth, inductionHypothesis.1, Nat.add_assoc]

/-- A call with the right number of arguments fails by itself exactly when as many calls as allowed
are under way. -/
theorem failsAlone_call_iff {budget : Nat} {closure : Closure} {arguments : List Value}
    {position : Position} {machine : Machine}
    (fitting : arguments.length = closure.procedure.arity) :
    FailsAlone context ⟨.stackOverflow context.maxDepth, none⟩
        ⟨budget + 1, .callClosure closure arguments position, machine⟩ ↔
      context.maxDepth ≤ machine.depth := by
  constructor
  · intro fails
    refine Nat.le_of_not_lt fun fewer => ?_
    obtain ⟨inner, starts⟩ := starts_call_iff.mpr ⟨fitting, fewer⟩
    exact fails.alone inner starts
  · intro full
    refine ⟨⟨machine, ?_⟩, fun inner starts => ?_⟩
    · have refused := Eval.allowCall_apply context machine
      rw [if_pos full] at refused
      have performed :=
        Task.plan_run context budget (.callClosure closure arguments position)
      rw [Task.plan, Task.closurePlan_eq, if_neg (not_not_intro fitting)] at performed
      rw [outcome, ← performed, Plan.run_bind]
      exact EStateM.bind_of_error refused
    · exact Nat.not_lt_of_le full (starts_call_iff.mp ⟨inner, starts⟩).2

end Activation

/-! ### Interpreters -/

namespace Interpreter

/-- An interpreter that has been put to any use: programs have been run and tasks performed on it,
however these ended, and its variables and its count of function values may have been changed
between them. -/
inductive Used (config : Config) : Interpreter → Prop where
  | new (sink : Sink) : Used config (.new config sink)
  | run {interpreter : Interpreter} (used : Used config interpreter) (budget : Nat)
      (program : Program) : Used config (interpreter.run budget program).interpreter
  | perform {interpreter : Interpreter} (used : Used config interpreter) (budget : Nat)
      (task : Task) :
      Used config (interpreter.perform fun context => task.perform context budget).interpreter
  | arrange {interpreter : Interpreter} (used : Used config interpreter) (store : Store)
      (closures : Nat) :
      Used config { interpreter with machine := { interpreter.machine with store, closures } }

theorem config_perform {α : Type} (interpreter : Interpreter) (step : Context → Eval α) :
    (interpreter.perform step).interpreter.config = interpreter.config := by
  rw [perform, EStateM.run]
  cases step interpreter.context interpreter.machine with
  | ok value machine => rfl
  | error interrupt machine => rfl

/-- A run leaves as many calls under way as there were. -/
theorem depth_run (interpreter : Interpreter) (budget : Nat) (program : Program) :
    (interpreter.run budget program).interpreter.config = interpreter.config ∧
      (interpreter.run budget program).interpreter.machine.depth = interpreter.machine.depth := by
  cases called : interpreter.entryCall? budget program with
  | none =>
    rw [run_of_entryCall?_none called]
    exact ⟨rfl, rfl⟩
  | some outcome =>
    rw [(run_cases_of_entryCall?_some called).1]
    obtain ⟨entry, _, came⟩ := Option.map_eq_some_iff.mp called
    rw [← came]
    exact ⟨rfl, Task.depth_perform _ budget (.callClosure entry [] entry.procedure.position) _⟩

/-- Between its uses no call is under way on an interpreter. -/
theorem Used.depth {config : Config} {interpreter : Interpreter}
    (used : interpreter.Used config) :
    interpreter.config = config ∧ interpreter.machine.depth = 0 := by
  induction used with
  | new sink => exact ⟨rfl, rfl⟩
  | @run interpreter used budget program inductionHypothesis =>
    obtain ⟨sameConfig, sameDepth⟩ := interpreter.depth_run budget program
    exact ⟨sameConfig.trans inductionHypothesis.1, sameDepth.trans inductionHypothesis.2⟩
  | perform used budget task inductionHypothesis =>
    rw [config_perform, machine_perform]
    exact ⟨inductionHypothesis.1,
      (task.perform_appends _ budget _).2.trans inductionHypothesis.2⟩
  | arrange used store closures inductionHypothesis => exact inductionHypothesis

end Interpreter

/-- For every task that starts with no more calls under way than allowed: it leaves as many calls
under way as there were, however it ends. Every task inside it starts and ends with as many calls
under way as there were at the start, and one more for each call that is under way around it,
which are never more than allowed. A call with the right number of arguments fails by itself for
want of calls exactly when as many calls as allowed are under way. And however an interpreter has
been used, a call inside the next task runs its function as long as there are fewer calls around
it than allowed. -/
theorem callDepth_balanced :
    (∀ context (outer : Activation), outer.machine.depth ≤ context.maxDepth →
      (outer.outcome context).machine.depth = outer.machine.depth ∧
      (∀ inner, outer.Involves context inner ↔ ∃ calls, outer.Nests context calls inner) ∧
      (∀ calls inner, outer.Nests context calls inner →
        inner.machine.depth = outer.machine.depth + calls ∧
        (inner.outcome context).machine.depth = outer.machine.depth + calls ∧
        outer.machine.depth + calls ≤ context.maxDepth)) ∧
    (∀ context budget closure arguments position machine,
      machine.depth ≤ context.maxDepth → arguments.length = closure.procedure.arity →
      (Activation.FailsAlone context ⟨.stackOverflow context.maxDepth, none⟩
          ⟨budget + 1, .callClosure closure arguments position, machine⟩ ↔
        machine.depth = context.maxDepth)) ∧
    (∀ config (interpreter : Interpreter), interpreter.Used config →
      interpreter.machine.depth = 0 ∧
      ∀ budget task calls next closure arguments position machine,
        Activation.Nests interpreter.context ⟨budget, task, interpreter.machine⟩ calls
          ⟨next + 1, .callClosure closure arguments position, machine⟩ →
        arguments.length = closure.procedure.arity →
        ((∃ body, Activation.Starts interpreter.context
            ⟨next + 1, .callClosure closure arguments position, machine⟩ body) ↔
          calls < config.maxDepth)) := by
  refine ⟨fun context outer within => ⟨outer.depth_outcome, fun _ => Activation.involves_iff_nests,
    fun calls inner nests => ?_⟩, ?_, ?_⟩
  · obtain ⟨raised, bounded⟩ := nests.depth within
    exact ⟨raised, inner.depth_outcome.trans raised, raised ▸ bounded⟩
  · intro context budget closure arguments position machine within fitting
    rw [Activation.failsAlone_call_iff fitting]
    exact ⟨Nat.le_antisymm within, fun full => Nat.le_of_eq full.symm⟩
  · intro config interpreter used
    obtain ⟨same, idle⟩ := used.depth
    refine ⟨idle, fun budget task calls next closure arguments position machine nests fitting => ?_⟩
    have counted : machine.depth = calls := by
      have raised := (nests.depth (idle ▸ Nat.zero_le _)).1
      rw [idle, Nat.zero_add] at raised
      exact raised
    rw [Activation.starts_call_iff, counted, ← same]
    exact and_iff_right fitting

/-- The call `lam() -> { break; }()`. -/
def jumpingCall : Expr :=
  .call (.lambda jumpingFunction ⟨1, 13⟩) [] ⟨1, 33⟩

/-- The function `lam() -> { lam() -> { break; }(); }`. -/
def callingFunction : Procedure :=
  ⟨Procedure.lambdaName, [], [.evaluate jumpingCall ⟨1, 13⟩], ⟨1, 1⟩⟩

/-- A call of the function makes one more call. -/
theorem callingFunction_nests (table : ProcedureTable) (store : Store) (sink : Sink)
    (closures : Nat) :
    Activation.Nests ⟨table, 1⟩
      ⟨10, .callClosure ⟨0, callingFunction, 0⟩ [] ⟨1, 1⟩, ⟨store, sink, 0, closures⟩⟩ 1
      ⟨4, .callClosure ⟨closures, jumpingFunction, store.scopes.size⟩ [] ⟨1, 33⟩,
        ⟨(store.newChild 0).2, sink, 1, closures + 1⟩⟩ := by
  let inside : Machine := ⟨(store.newChild 0).2, sink, 1, closures⟩
  let scope : ScopeId := store.scopes.size
  have body : Activation.Starts ⟨table, 1⟩
      ⟨10, .callClosure ⟨0, callingFunction, 0⟩ [] ⟨1, 1⟩, ⟨store, sink, 0, closures⟩⟩
      ⟨9, .execBlock callingFunction.body scope, inside⟩ := .intro (.here _)
  have statement : Activation.Starts ⟨table, 1⟩ ⟨9, .execBlock callingFunction.body scope, inside⟩
      ⟨8, .execStatement (.evaluate jumpingCall ⟨1, 13⟩) scope, inside⟩ := .intro (.here _)
  have expression : Activation.Starts ⟨table, 1⟩
      ⟨8, .execStatement (.evaluate jumpingCall ⟨1, 13⟩) scope, inside⟩
      ⟨7, .eval jumpingCall scope, inside⟩ := .intro (.here _)
  have call : Activation.Starts ⟨table, 1⟩ ⟨7, .eval jumpingCall scope, inside⟩
      ⟨6, .evalCall (.lambda jumpingFunction ⟨1, 13⟩) [] ⟨1, 33⟩ scope, inside⟩ :=
    .intro (.here _)
  have callee : Eval.eval ⟨table, 1⟩ 5 (.lambda jumpingFunction ⟨1, 13⟩) scope inside =
      .ok (.function ⟨closures, jumpingFunction, scope⟩)
        { inside with closures := closures + 1 } := by
    rw [Eval.eval]
    rfl
  have noArguments : Eval.evalAll ⟨table, 1⟩ 5 [] scope { inside with closures := closures + 1 } =
      .ok [] { inside with closures := closures + 1 } := by
    rw [Eval.evalAll]
    rfl
  have value : Activation.Starts ⟨table, 1⟩
      ⟨6, .evalCall (.lambda jumpingFunction ⟨1, 13⟩) [] ⟨1, 33⟩ scope, inside⟩
      ⟨5, .callValue (.function ⟨closures, jumpingFunction, scope⟩) [] ⟨1, 33⟩,
        { inside with closures := closures + 1 }⟩ :=
    .intro (.behind callee (.behind noArguments (.here _)))
  have function : Activation.Starts ⟨table, 1⟩
      ⟨5, .callValue (.function ⟨closures, jumpingFunction, scope⟩) [] ⟨1, 33⟩,
        { inside with closures := closures + 1 }⟩
      ⟨4, .callClosure ⟨closures, jumpingFunction, scope⟩ [] ⟨1, 33⟩,
        { inside with closures := closures + 1 }⟩ := .intro (.here _)
  exact (((((Activation.Nests.refl.tail body).tail statement).tail expression).tail call).tail
    value).tail function

/-- An interpreter with one call allowed, behind a run that calls itself without end. -/
def overflowedInterpreter : Interpreter :=
  ((Interpreter.new ⟨"main", 1⟩ {}).run 50 endlessProgram).interpreter

/-- The run before was refused a call. Then a function that calls another one can be called on the
same interpreter, and the call that it makes is refused. -/
theorem callDepth_balanced_overflowed :
    ((Interpreter.new ⟨"main", 1⟩ {}).run 50 endlessProgram).outcome =
      .error (.fault ⟨.stackOverflow 1, none⟩) ∧
    overflowedInterpreter.Used ⟨"main", 1⟩ ∧ overflowedInterpreter.machine.depth = 0 ∧
    ∃ outer inner : Activation, outer.machine = overflowedInterpreter.machine ∧
      (∃ body, outer.Starts overflowedInterpreter.context body) ∧
      outer.Nests overflowedInterpreter.context 1 inner ∧ inner.machine.depth = 1 ∧
      inner.FailsAlone overflowedInterpreter.context ⟨.stackOverflow 1, none⟩ := by
  obtain ⟨balanced, refused, again⟩ := callDepth_balanced
  have used : overflowedInterpreter.Used ⟨"main", 1⟩ := .run (.new {}) 50 endlessProgram
  obtain ⟨idle, admitted⟩ := again _ _ used
  have limit : overflowedInterpreter.context.maxDepth = 1 :=
    congrArg Config.maxDepth used.depth.1
  refine ⟨Interpreter.Run.outcome_of_error? (by decide +kernel), used, idle, ?_⟩
  generalize overflowedInterpreter = interpreter at idle admitted limit
  obtain ⟨config, table, globals, ⟨store, sink, depth, closures⟩⟩ := interpreter
  obtain rfl : depth = 0 := idle
  obtain ⟨entry, maxDepth⟩ := config
  obtain rfl : maxDepth = 1 := limit
  have nests := callingFunction_nests table store sink closures
  have deep := ((balanced _ _ (Nat.zero_le 1)).2.2 _ _ nests).1
  exact ⟨_, _, rfl, (admitted _ _ _ _ _ _ _ _ .refl rfl).mpr Nat.one_pos, nests, deep,
    (refused ⟨table, 1⟩ _ _ _ _ _ (Nat.le_refl 1) rfl).mpr rfl⟩

end Scriptlet
