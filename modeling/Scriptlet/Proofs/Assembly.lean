/-
This file says what plans are put together from. Most primitive steps are quiet: they
neither look at the output and the number of calls under way nor change them. Only two
kinds of steps are not. A text is written, and a call is admitted or refused by the number
of calls under way. Everything else in a plan is the start of a task, or one plan after
another.

Under two limits on nested calls the plans of a task are put together in the same way, so
what is shown along the way they are put together holds of every run, and of two runs that
differ in their limits. The first such fact is about one run: it only ever adds to its
output, and as many calls are under way behind it as before.
-/

import Scriptlet.Proofs.Course
import Scriptlet.Proofs.Output

namespace Scriptlet

namespace Outcome

variable {α : Type}

/-- The machine that is left. -/
def machine : Outcome α → Machine
  | .ok _ machine => machine
  | .error _ machine => machine

/-- The same outcome with a change of the machine that is left. -/
def onMachine (change : Machine → Machine) : Outcome α → Outcome α
  | .ok value machine => .ok value (change machine)
  | .error interrupt machine => .error interrupt (change machine)

end Outcome

namespace Eval

variable {α β : Type}

/-! ### Quiet steps -/

/-- A step that neither looks at the output and the number of calls under way nor changes them. -/
def Quiet (step : Eval α) : Prop :=
  ∀ machine sink depth, step { machine with sink, depth } =
    Outcome.onMachine (fun later => { later with sink, depth }) (step machine)

namespace Quiet

theorem pure (value : α) : (pure value : Eval α).Quiet :=
  fun _ _ _ => rfl

theorem bind {step : Eval α} {next : α → Eval β} (first : step.Quiet)
    (rest : ∀ value, (next value).Quiet) : (step >>= next).Quiet := by
  intro machine sink depth
  have moved := first machine sink depth
  cases came : step machine with
  | ok value middle =>
    rw [came] at moved
    rw [EStateM.bind_of_ok moved, EStateM.bind_of_ok came]
    exact rest value middle sink depth
  | error interrupt middle =>
    rw [came] at moved
    rw [EStateM.bind_of_error moved, EStateM.bind_of_error came]
    rfl

theorem fail (fault : RuntimeFault) (position : Position) : (fail fault position : Eval α).Quiet :=
  fun _ _ _ => rfl

theorem resultAt (position : Position) (result : Except RuntimeFault α) :
    (resultAt position result).Quiet := by
  cases result with
  | ok value => exact pure value
  | error fault => exact fail fault position

theorem lookup? (context : Context) (scope : ScopeId) (name : String) :
    (lookup? context scope name).Quiet := by
  intro machine sink depth
  rw [Eval.lookup?, EStateM.bind_of_ok (EStateM.get_apply machine),
    EStateM.bind_of_ok (EStateM.get_apply _)]
  dsimp only
  cases machine.store.get? scope name with
  | some value => rfl
  | none => rfl

theorem readName (context : Context) (scope : ScopeId) (name : String) (position : Position) :
    (readName context scope name position).Quiet := by
  refine bind (lookup? context scope name) fun found => ?_
  cases found with
  | some value => exact pure value
  | none => exact fail _ position

theorem assign (context : Context) (scope : ScopeId) (name : String) (value : Value)
    (position : Position) : (assign context scope name value position).Quiet := by
  intro machine sink depth
  rw [assign_apply, assign_apply]
  dsimp only
  cases machine.store.target scope name with
  | ok found => rfl
  | error fault => rfl

theorem newChild (parent : ScopeId) : (newChild parent).Quiet :=
  fun _ _ _ => rfl

theorem define (scope : ScopeId) (binding : Binding) : (define scope binding).Quiet :=
  fun _ _ _ => rfl

theorem defineAll (scope : ScopeId) (pairs : List (String × Value)) :
    (defineAll scope pairs).Quiet := by
  induction pairs with
  | nil => exact pure ()
  | cons pair rest inductionHypothesis => exact bind (define scope _) fun _ => inductionHypothesis

theorem scopeFor (statement : Statement) (scope : ScopeId) :
    (scopeFor statement scope).Quiet := by
  unfold Eval.scopeFor
  cases statement.declaredName? with
  | none => exact pure scope
  | some name =>
    intro machine sink depth
    show (if machine.store.binds scope name then Eval.newChild scope else Pure.pure scope)
        { machine with sink, depth } = Outcome.onMachine _
      ((if machine.store.binds scope name then Eval.newChild scope else Pure.pure scope) machine)
    split
    · exact newChild scope machine sink depth
    · exact pure scope machine sink depth

theorem newClosure (procedure : Procedure) (scope : ScopeId) :
    (newClosure procedure scope).Quiet :=
  fun _ _ _ => rfl

theorem callResult (signal : Signal) : (callResult signal).Quiet := by
  cases signal with
  | normal => exact pure _
  | returning value => exact pure value
  | breaking position => exact fail _ position
  | continuing position => exact fail _ position

/-- A quiet step leaves the output and the number of calls under way as they are. -/
theorem machine_eq {step : Eval α} (quiet : step.Quiet) (machine : Machine) :
    (step.after machine).sink = machine.sink ∧ (step.after machine).depth = machine.depth := by
  have same : step machine = Outcome.onMachine
      (fun later => { later with sink := machine.sink, depth := machine.depth }) (step machine) :=
    quiet machine machine.sink machine.depth
  cases came : step machine with
  | ok value later =>
    rw [came] at same
    injection same with _ kept
    rw [after_of_ok came, kept]
    exact ⟨rfl, rfl⟩
  | error interrupt later =>
    rw [came] at same
    injection same with _ kept
    rw [after_of_error came, kept]
    exact ⟨rfl, rfl⟩

end Quiet

/-! ### Admission -/

/-- Refuses a call when as many calls as allowed are under way. -/
def allowCall (context : Context) : Eval Unit := do
  if context.maxDepth ≤ (← get).depth then failNowhere (.stackOverflow context.maxDepth)

theorem allowCall_apply (context : Context) (machine : Machine) :
    allowCall context machine =
      if context.maxDepth ≤ machine.depth then
        .error (.fault ⟨.stackOverflow context.maxDepth, none⟩) machine
      else .ok () machine := by
  rw [allowCall, EStateM.bind_of_ok (EStateM.get_apply machine)]
  split <;> rfl

end Eval

/-! ### Plans of one shape -/

/-- Two steps in a row are one plan after another. -/
theorem Plan.step_bind {α β : Type} (taken : Eval α) (next : α → Eval β) :
    Plan.step (taken >>= next) = Plan.step taken >>= fun value => Plan.step (next value) := by
  funext machine
  show Course.ended ((taken >>= next) machine) = Course.andThen _ (.ended (taken machine))
  cases came : taken machine with
  | ok value middle =>
    rw [EStateM.bind_of_ok came]
    rfl
  | error interrupt middle =>
    rw [EStateM.bind_of_error came]
    rfl

/-- Plans, under two contexts, that are put together in the same way. -/
inductive Plan.Matched (context other : Context) : {α : Type} → Plan α → Plan α → Prop where
  | quiet {α : Type} {taken : Eval α} (quiet : taken.Quiet) :
      Matched context other (.step taken) (.step taken)
  | write (position : Position) (text : String) :
      Matched context other (.step (Eval.write position text)) (.step (Eval.write position text))
  | allowCall :
      Matched context other (.step (Eval.allowCall context)) (.step (Eval.allowCall other))
  | start (task : Task) : Matched context other (.start task) (.start task)
  | startDeeper (task : Task) : Matched context other (.startDeeper task) (.startDeeper task)
  | bind {α β : Type} {plan second : Plan α} {following next : α → Plan β}
      (first : Matched context other plan second)
      (rest : ∀ value, Matched context other (following value) (next value)) :
      Matched context other (plan >>= following) (second >>= next)

namespace Plan.Matched

variable {context other : Context} {α : Type}

theorem pure (value : α) : Matched context other (Pure.pure value) (Pure.pure value) :=
  .quiet (.pure value)

theorem writeAll (position : Position) (texts : List String) :
    Matched context other (.step (Eval.writeAll position texts))
      (.step (Eval.writeAll position texts)) := by
  induction texts with
  | nil => exact .pure ()
  | cons text rest inductionHypothesis =>
    rw [Eval.writeAll, step_bind]
    exact .bind (.write position text) fun _ => inductionHypothesis

theorem builtin (builtin : Builtin) (arguments : List Value) (position : Position) :
    Matched context other (.step (Eval.callBuiltin builtin arguments position))
      (.step (Eval.callBuiltin builtin arguments position)) := by
  rw [Eval.callBuiltin_eq, step_bind]
  exact .bind (.writeAll position _) fun _ => .quiet (.resultAt position _)

theorem ite {condition : Prop} [Decidable condition] {first second third fourth : Plan α}
    (whenTrue : Matched context other first second)
    (whenFalse : Matched context other third fourth) :
    Matched context other (if condition then first else third)
      (if condition then second else fourth) := by
  split
  · exact whenTrue
  · exact whenFalse

end Plan.Matched

namespace Task

open Plan

variable (context : Context) (limit : Nat)

theorem evalPlan_matched (scope : ScopeId) (expression : Expr) :
    Matched context { context with maxDepth := limit } (evalPlan context scope expression)
      (evalPlan { context with maxDepth := limit } scope expression) := by
  cases expression with
  | literal value position => exact .pure _
  | identifier name position => exact .quiet (.readName context scope name position)
  | unary op operand position =>
    cases op with
    | update kind yield =>
      cases operand with
      | identifier name namePosition =>
        refine .quiet (.bind (.readName context scope name namePosition) fun previous => ?_)
        refine .bind (.resultAt position _) fun updated => ?_
        refine .bind (.assign context scope name updated position) fun _ => ?_
        cases yield with
        | _ => exact .pure _
      | _ => exact .quiet (.fail _ position)
    | _ => exact .bind (.start _) fun value => .quiet (.resultAt position _)
  | binary op left right position =>
    refine .bind (.start _) fun first => .bind (.start _) fun second => ?_
    exact .quiet (.resultAt position _)
  | logical op left right position =>
    refine .bind (.start _) fun first => .ite (.pure _) ?_
    exact .bind (.start _) fun second => .pure _
  | call callee arguments position => exact .start _
  | lambda procedure position => exact .quiet (.newClosure procedure scope)
  | index target index position =>
    refine .bind (.start _) fun container => .bind (.start _) fun place => ?_
    refine .ite ?_ (.quiet (.fail _ position))
    cases place with
    | int number => exact .quiet (.resultAt position _)
    | _ => exact .quiet (.fail _ _)

theorem applyPlan_matched {other : Context} (arguments : List Expr) (position : Position)
    (scope : ScopeId) (function : Value) :
    Matched context other (applyPlan arguments position scope function)
      (applyPlan arguments position scope function) :=
  .bind (.start _) fun values => .start (.callValue function values position)

theorem callPlan_matched (arguments : List Expr) (position : Position) (scope : ScopeId)
    (callee : Expr) :
    Matched context { context with maxDepth := limit }
      (callPlan context arguments position scope callee)
      (callPlan { context with maxDepth := limit } arguments position scope callee) := by
  cases callee with
  | identifier name namePosition =>
    refine .bind (.quiet (.lookup? context scope name)) fun found => ?_
    cases found with
    | some function => exact applyPlan_matched context arguments position scope function
    | none =>
      dsimp only
      cases Builtin.ofName? name with
      | none => exact .quiet (.fail _ namePosition)
      | some builtin =>
        exact .bind (.start _) fun values => .builtin builtin values position
  | _ =>
    exact .bind (.start _) fun function =>
      applyPlan_matched context arguments position scope function

/-- The check of a call's depth as one step. -/
theorem closurePlan_eq (closure : Closure) (arguments : List Value) (position : Position) :
    closurePlan context closure arguments position =
      if arguments.length ≠ closure.procedure.arity then
        step (Eval.fail (.arityMismatch closure.procedure.name closure.procedure.arity
          arguments.length) position)
      else (do
        step (Eval.allowCall context)
        let scope ← step (Eval.newChild closure.scope)
        step (Eval.defineAll scope (closure.procedure.parameters.zip arguments))
        let signal ← startDeeper (.execBlock closure.procedure.body scope)
        step (Eval.callResult signal)) := by
  unfold closurePlan
  dsimp only
  congr 1
  funext machine
  show (if context.maxDepth ≤ machine.depth then step _ else _ : Plan Value) machine =
    Course.andThen _ (.ended (Eval.allowCall context machine))
  rw [Eval.allowCall_apply]
  by_cases refused : context.maxDepth ≤ machine.depth
  · rw [if_pos refused, if_pos refused]
    rfl
  · rw [if_neg refused, if_neg refused]
    rfl

/-- The limit on calls is looked at in one place: it is there that plans may part. -/
theorem closurePlan_matched (closure : Closure) (arguments : List Value) (position : Position) :
    Matched context { context with maxDepth := limit }
      (closurePlan context closure arguments position)
      (closurePlan { context with maxDepth := limit } closure arguments position) := by
  rw [closurePlan_eq, closurePlan_eq]
  refine .ite (.quiet (.fail _ position)) (.bind .allowCall fun _ => ?_)
  refine .bind (.quiet (.newChild closure.scope)) fun scope => ?_
  refine .bind (.quiet (.defineAll scope _)) fun _ => ?_
  exact .bind (.startDeeper _) fun signal => .quiet (.callResult signal)

theorem innerPlan_matched {other : Context} (statements : List Statement) (scope : ScopeId) :
    Matched context other (innerPlan statements scope) (innerPlan statements scope) :=
  .bind (.quiet (.newChild scope)) fun inner => .start (.execBlock statements inner)

theorem statementPlan_matched (scope : ScopeId) (statement : Statement) :
    Matched context { context with maxDepth := limit } (statementPlan context scope statement)
      (statementPlan { context with maxDepth := limit } scope statement) := by
  cases statement with
  | declare name value mutability position =>
    exact .bind (.start _) fun result => .bind (.quiet (.define scope _)) fun _ => .pure _
  | assign name value position =>
    refine .bind (.start _) fun result => ?_
    exact .bind (.quiet (.assign context scope name result position)) fun _ => .pure _
  | leave value position =>
    cases value with
    | none => exact .pure _
    | some value => exact .bind (.start _) fun result => .pure _
  | branch condition thenBranch elseBranch position =>
    refine .bind (.start _) fun holds => .ite (innerPlan_matched context thenBranch scope) ?_
    cases elseBranch with
    | none => exact .pure _
    | some statements => exact innerPlan_matched context statements scope
  | loop condition body position => exact .start _
  | block statements position => exact innerPlan_matched context statements scope
  | loopBody statements position =>
    refine .bind (innerPlan_matched context statements scope) fun signal => ?_
    cases signal with
    | _ => exact .pure _
  | evaluate expression position => exact .bind (.start _) fun result => .pure _
  | breakLoop position => exact .pure _
  | continueLoop position => exact .pure _

/-- The plans of a task under two limits are put together in the same way. -/
theorem plan_matched (task : Task) :
    Matched context { context with maxDepth := limit } (task.plan context)
      (task.plan { context with maxDepth := limit }) := by
  cases task with
  | eval expression scope => exact evalPlan_matched context limit scope expression
  | evalCondition condition scope =>
    exact .bind (.start _) fun value => .quiet (.resultAt condition.position _)
  | evalAll expressions scope =>
    cases expressions with
    | nil => exact .pure _
    | cons expression rest =>
      exact .bind (.start _) fun value => .bind (.start _) fun values => .pure _
  | evalCall callee arguments position scope =>
    exact callPlan_matched context limit arguments position scope callee
  | callValue function arguments position =>
    cases function with
    | function closure => exact .start (.callClosure closure arguments position)
    | _ => exact .quiet (.fail _ position)
  | callClosure closure arguments position =>
    exact closurePlan_matched context limit closure arguments position
  | execBlock statements scope =>
    cases statements with
    | nil => exact .pure _
    | cons statement rest =>
      refine .bind (.quiet (.scopeFor statement scope)) fun inner => ?_
      refine .bind (.start _) fun signal => ?_
      cases signal with
      | normal => exact .start (.execBlock rest inner)
      | _ => exact .pure _
  | execStatement statement scope => exact statementPlan_matched context limit scope statement
  | execLoop condition body scope =>
    refine .bind (.start _) fun holds =>
      .ite (.bind (innerPlan_matched context body scope) fun signal => ?_) (.pure _)
    cases signal with
    | normal => exact .start (.execLoop condition body scope)
    | continuing position => exact .start (.execLoop condition body scope)
    | breaking position => exact .pure _
    | returning value => exact .pure _

end Task

/-! ### Output and calls under way -/

/-- Some output has been added, and as many calls are under way as before. -/
def Effect.appending : Effect where
  allows before after := before.sink.Extends after.sink ∧ after.depth = before.depth
  refl machine := ⟨.refl machine.sink, rfl⟩
  trans earlier later := ⟨earlier.1.trans later.1, later.2.trans earlier.2⟩

namespace Eval

variable {α : Type}

/-- What looks at neither sink nor depth changes neither. -/
theorem Has.of_quiet {step : Eval α} (quiet : step.Quiet) : step.Has .appending := by
  intro machine
  obtain ⟨sameSink, sameDepth⟩ := quiet.machine_eq machine
  refine ⟨?_, sameDepth⟩
  rw [sameSink]
  exact .refl machine.sink

/-- A write adds to the output what the sink takes. -/
theorem Has.write (position : Position) (text : String) : (write position text).Has .appending := by
  intro machine
  have added : machine.sink.Extends (machine.sink.take text.toUTF8) := ⟨_, rfl⟩
  have applied := Sink.write_apply text machine.sink
  split at applied
  · rw [Eval.write, after_of_ok (onSink_of_ok applied)]
    exact ⟨added, rfl⟩
  · rw [Eval.write, after_of_error (onSink_of_error applied)]
    exact ⟨added, rfl⟩

theorem Has.allowCall (context : Context) : (allowCall context).Has .appending := by
  intro machine
  rw [after, allowCall_apply]
  by_cases refused : context.maxDepth ≤ machine.depth
  · rw [if_pos refused]
    exact Effect.appending.refl machine
  · rw [if_neg refused]
    exact Effect.appending.refl machine

theorem Has.deeper_appending {step : Eval α} (appends : step.Has .appending) :
    step.deeper.Has .appending := by
  intro machine
  obtain ⟨added, sameDepth⟩ := appends { machine with depth := machine.depth + 1 }
  unfold after at added sameDepth ⊢
  unfold Eval.deeper
  cases came : step { machine with depth := machine.depth + 1 } with
  | ok value later =>
    rw [came] at added sameDepth
    exact ⟨added, congrArg (· - 1) sameDepth⟩
  | error interrupt later =>
    rw [came] at added sameDepth
    exact ⟨added, congrArg (· - 1) sameDepth⟩

end Eval

/-- A plan adds to the output if the tasks it starts do. -/
theorem Plan.Matched.appends {context other : Context} {α : Type} {plan second : Plan α}
    (matched : Plan.Matched context other plan second)
    {perform : (task : Task) → Eval task.Answer} (each : ∀ task, (perform task).Has .appending) :
    (second.run perform).Has .appending := by
  induction matched with
  | quiet quiet => exact .of_quiet quiet
  | write position text => exact .write position text
  | allowCall => exact .allowCall other
  | start task => exact each task
  | startDeeper task => exact (each task).deeper_appending
  | bind _ _ first rest =>
    rw [run_bind]
    exact .bind first rest

/-- A task, however it ends, only adds to the output and leaves as many calls under way as there
were. -/
theorem Task.perform_appends (context : Context) (budget : Nat) (task : Task) :
    (task.perform context budget).Has .appending := by
  induction budget generalizing task with
  | zero =>
    intro machine
    rw [Eval.after_of_error (perform_zero context task machine)]
    exact Effect.appending.refl machine
  | succ budget inductionHypothesis =>
    rw [← plan_run]
    exact (plan_matched context context.maxDepth task).appends inductionHypothesis

end Scriptlet
