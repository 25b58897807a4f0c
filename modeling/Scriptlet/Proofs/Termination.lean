/-
This file proves that only loops can keep a run from ending. Where there is no loop in
reach, every task comes to an end: with every budget from some budget on it comes to the
same, and not because the budget was used up.

Two things get smaller. A task starts lighter tasks, except that a call starts the body of
the function, which may be anything; but then one more call is under way, and there is a
limit on that. So the calls that may still be nested come first, and the weight of the
code comes second. Functions flow through variables, lists and arguments, so that there is
no loop in them has to be kept along the way.
-/

import Scriptlet.Proofs.Budget
import Scriptlet.Proofs.EntryCall
import Scriptlet.Proofs.LoopFree

namespace Scriptlet

/-! ### Steps that come to an end -/

/-- So many calls are under way, and there is no loop in the functions that variables hold. -/
structure Machine.LoopFree (depth : Nat) (machine : Machine) : Prop where
  depth : machine.depth = depth
  store : machine.store.All Value.LoopFree

/-- The budget was not used up, and what came of the step has no loop in it. -/
def Outcome.Ended {α : Type} (depth : Nat) (good : α → Prop) : Outcome α → Prop
  | .ok value machine => good value ∧ machine.LoopFree depth
  | .error interrupt _ => interrupt ≠ .exhausted

namespace Eval

variable {α β : Type} {depth : Nat}

/-- With every budget from some budget on, the steps come to one and the same end. -/
def Ends (depth : Nat) (good : α → Prop) (steps : Nat → Eval α) : Prop :=
  ∀ machine, machine.LoopFree depth → ∃ outcome, Outcome.Ended depth good outcome ∧
    ∃ enough, ∀ budget, enough ≤ budget → steps budget machine = outcome

namespace Ends

/-- A step that does not depend on a budget. -/
theorem of_step {good : α → Prop} {step : Eval α}
    (ended : ∀ machine, machine.LoopFree depth → Outcome.Ended depth good (step machine)) :
    Ends depth good fun _ => step :=
  fun machine free => ⟨step machine, ended machine free, 0, fun _ _ => rfl⟩

theorem pure {good : α → Prop} {value : α} (holds : good value) :
    Ends depth good fun _ => (pure value : Eval α) :=
  of_step fun _ free => ⟨holds, free⟩

/-- Two families in a row end with a budget that is enough for both. -/
theorem bind {good : α → Prop} {better : β → Prop} {steps : Nat → Eval α}
    {following : α → Nat → Eval β} (first : Ends depth good steps)
    (rest : ∀ value, good value → Ends depth better (following value)) :
    Ends depth better fun budget => steps budget >>= fun value => following value budget := by
  intro machine free
  obtain ⟨outcome, ended, enough, came⟩ := first machine free
  cases outcome with
  | ok value middle =>
    obtain ⟨last, endedLast, more, cameLast⟩ := rest value ended.1 middle ended.2
    refine ⟨last, endedLast, max enough more, fun budget large => ?_⟩
    have cameFirst := came budget (Nat.le_trans (Nat.le_max_left enough more) large)
    have cameSecond := cameLast budget (Nat.le_trans (Nat.le_max_right enough more) large)
    exact (EStateM.bind_of_ok cameFirst).trans cameSecond
  | error interrupt middle =>
    refine ⟨.error interrupt middle, ended, enough, fun budget large => ?_⟩
    exact EStateM.bind_of_error (came budget large)

theorem fail {good : α → Prop} (fault : RuntimeFault) (position : Position) :
    Ends depth good fun _ => (fail fault position : Eval α) :=
  of_step fun _ _ => nofun

theorem resultAt {good : α → Prop} (position : Position) {result : Except RuntimeFault α}
    (holds : ∀ value, result = .ok value → good value) :
    Ends depth good fun _ => resultAt position result := by
  cases result with
  | ok value => exact pure (holds value rfl)
  | error fault => exact fail fault position

theorem callResult {signal : Signal} (holds : signal.Holds Closure.LoopFree) :
    Ends depth Value.LoopFree fun _ => callResult signal := by
  cases signal with
  | normal => exact pure (.of_closureless rfl)
  | returning value => exact pure holds
  | breaking position => exact fail _ position
  | continuing position => exact fail _ position

theorem lookup? {context : Context} (table : context.procedures.LoopFree) (scope : ScopeId)
    (name : String) :
    Ends depth (fun found => ∀ value, found = some value → value.LoopFree)
      fun _ => lookup? context scope name := by
  refine of_step fun machine free => ?_
  rw [Eval.lookup?, EStateM.bind_of_ok (EStateM.get_apply machine)]
  cases found : machine.store.get? scope name with
  | some value =>
    refine ⟨fun other same => ?_, free⟩
    injection same with same
    rw [← same]
    exact free.store.get? found
  | none =>
    refine ⟨fun other same => ?_, free⟩
    obtain ⟨closure, present, rfl⟩ := Option.map_eq_some_iff.mp same
    exact .function (table closure (List.mem_of_find?_eq_some present))

theorem readName {context : Context} (table : context.procedures.LoopFree) (scope : ScopeId)
    (name : String) (position : Position) :
    Ends depth Value.LoopFree fun _ => readName context scope name position := by
  refine bind (lookup? table scope name) fun found free => ?_
  cases found with
  | some value => exact pure (free value rfl)
  | none => exact fail _ position

theorem newChild (parent : ScopeId) : Ends depth (fun _ => True) fun _ => newChild parent :=
  of_step fun _ free => ⟨trivial, free.depth, free.store.newChild parent⟩

theorem define (scope : ScopeId) {binding : Binding} (holds : binding.value.LoopFree) :
    Ends depth (fun _ => True) fun _ => define scope binding :=
  of_step fun _ free => ⟨trivial, free.depth, free.store.define scope holds⟩

theorem defineAll (scope : ScopeId) {pairs : List (String × Value)}
    (holds : ∀ pair ∈ pairs, pair.2.LoopFree) :
    Ends depth (fun _ => True) fun _ => defineAll scope pairs := by
  induction pairs with
  | nil => exact pure trivial
  | cons pair rest inductionHypothesis =>
    obtain ⟨here, there⟩ := List.forall_mem_cons.mp holds
    have now : Ends depth (fun _ => True)
        fun _ => Eval.define scope ⟨pair.1, pair.2, .constant⟩ := define scope here
    exact bind now fun _ _ => inductionHypothesis there

theorem scopeFor (statement : Statement) (scope : ScopeId) :
    Ends depth (fun _ => True) fun _ => scopeFor statement scope := by
  unfold Eval.scopeFor
  cases statement.declaredName? with
  | none => exact pure trivial
  | some name =>
    refine of_step fun machine free => ?_
    show Outcome.Ended depth _
      ((if machine.store.binds scope name then Eval.newChild scope else Pure.pure scope) machine)
    split
    · exact ⟨trivial, free.depth, free.store.newChild scope⟩
    · exact ⟨trivial, free⟩

theorem assign (context : Context) (scope : ScopeId) (name : String) {value : Value}
    (position : Position) (holds : value.LoopFree) :
    Ends depth (fun _ => True) fun _ => assign context scope name value position := by
  refine of_step fun machine free => ?_
  rw [assign_apply]
  cases machine.store.target scope name with
  | ok found => exact ⟨trivial, free.depth, free.store.write found name holds⟩
  | error fault => exact nofun

theorem newClosure {procedure : Procedure} (scope : ScopeId) (holds : procedure.loopFree = true) :
    Ends depth Value.LoopFree fun _ => newClosure procedure scope :=
  of_step fun _ free => ⟨.function holds, free.depth, free.store⟩

theorem callBuiltin (builtin : Builtin) {arguments : List Value} (position : Position)
    (holds : ∀ value ∈ arguments, value.LoopFree) :
    Ends depth Value.LoopFree fun _ => callBuiltin builtin arguments position := by
  refine of_step fun machine free => ?_
  rw [callBuiltin_apply]
  cases ran : builtin.run arguments machine.sink with
  | ok value sink => exact ⟨.builtin holds ran, free.depth, free.store⟩
  | error fault sink => exact nofun

/-- A call that is admitted leaves room for one more. -/
theorem allowCall (context : Context) :
    Ends depth (fun _ => depth < context.maxDepth) fun _ => allowCall context := by
  refine of_step fun machine free => ?_
  rw [allowCall_apply]
  split
  · exact nofun
  · rename_i room
    refine ⟨?_, free⟩
    rw [← free.depth]
    exact Nat.lt_of_not_le room

theorem deeper {good : α → Prop} {steps : Nat → Eval α} (ends : Ends (depth + 1) good steps) :
    Ends depth good fun budget => (steps budget).deeper := by
  intro machine free
  have inside : Machine.LoopFree (depth + 1) { machine with depth := machine.depth + 1 } :=
    ⟨congrArg (· + 1) free.depth, free.store⟩
  obtain ⟨outcome, ended, enough, came⟩ := ends _ inside
  refine ⟨Eval.deeper (fun _ => outcome) machine, ?_, enough, fun budget large => ?_⟩
  · unfold Eval.deeper
    cases outcome with
    | ok value later => exact ⟨ended.1, congrArg (· - 1) ended.2.depth, ended.2.store⟩
    | error interrupt later => exact ended
  · show (steps budget).deeper machine = _
    unfold Eval.deeper
    rw [came budget large]

end Ends

end Eval

/-! ### Plans -/

/-- A task comes to an end when so many calls are under way. -/
def Task.Ends (context : Context) (depth : Nat) (task : Task) : Prop :=
  Eval.Ends depth task.YieldsLoopFree fun budget => task.perform context budget

namespace Plan

variable {α β : Type} {context : Context} {depth : Nat}

/-- A plan comes to an end when so many calls are under way. -/
def Ends (context : Context) (depth : Nat) (good : α → Prop) (plan : Plan α) : Prop :=
  Eval.Ends depth good fun budget => plan.run (Task.perform context budget)

namespace Ends

theorem step {good : α → Prop} {taken : Eval α} (ends : Eval.Ends depth good fun _ => taken) :
    (Plan.step taken).Ends context depth good :=
  ends

theorem pure {good : α → Prop} {value : α} (holds : good value) :
    (Pure.pure value : Plan α).Ends context depth good :=
  step (.pure holds)

theorem start {task : Task} (ends : task.Ends context depth) :
    (Plan.start task).Ends context depth task.YieldsLoopFree :=
  ends

theorem startDeeper {task : Task} (ends : task.Ends context (depth + 1)) :
    (Plan.startDeeper task).Ends context depth task.YieldsLoopFree :=
  Eval.Ends.deeper ends

theorem bind {good : α → Prop} {better : β → Prop} {plan : Plan α} {following : α → Plan β}
    (first : plan.Ends context depth good)
    (rest : ∀ value, good value → (following value).Ends context depth better) :
    (plan >>= following).Ends context depth better := by
  unfold Ends
  simp only [run_bind]
  exact Eval.Ends.bind first rest

theorem ite {condition : Prop} [Decidable condition] {good : α → Prop} {plan other : Plan α}
    (whenTrue : plan.Ends context depth good) (whenFalse : other.Ends context depth good) :
    (if condition then plan else other).Ends context depth good := by
  split
  · exact whenTrue
  · exact whenFalse

end Ends

end Plan

/-- What is known when the end of a task of some weight is shown: lighter tasks end, and if one
more call is admitted, then all tasks of that call do. -/
structure Underway (context : Context) (depth weight : Nat) : Prop where
  table : context.procedures.LoopFree
  lighter : ∀ {task : Task}, task.LoopFree → task.weight < weight → task.Ends context depth
  deeper : depth < context.maxDepth → ∀ {task : Task}, task.LoopFree →
    task.Ends context (depth + 1)

namespace Task

open Plan

variable {context : Context} {depth bound : Nat}

/-- A lighter task may be started. -/
theorem start_ends (underway : Underway context depth bound) (task : Task) (free : task.LoopFree)
    (light : task.weight < bound) :
    (start task).Ends context depth task.YieldsLoopFree :=
  .start (underway.lighter free light)

theorem evalPlan_ends {expression : Expr} {scope : ScopeId}
    (underway : Underway context depth (weight (.eval expression scope)))
    (free : expression.loopFree = true) :
    (evalPlan context scope expression).Ends context depth Value.LoopFree := by
  cases expression with
  | literal value position => exact .pure (.of_closureless (closures_ofLiteral value))
  | identifier name position => exact .step (.readName underway.table scope name position)
  | unary op operand position =>
    have plain : (do
        let value ← start (.eval operand scope)
        step (Eval.resultAt position (op.apply value))).Ends context depth Value.LoopFree := by
      refine .bind (start_ends underway _ free (by simp +arith [weight])) fun value _ => ?_
      exact .step (.resultAt position fun result applied => .unary applied)
    cases op with
    | update kind yield =>
      cases operand with
      | identifier name namePosition =>
        refine .step (.bind (.readName underway.table scope name namePosition) ?_)
        intro previous freePrevious
        have free : ∀ value, (UnaryOp.update kind yield).apply previous = .ok value →
            value.LoopFree := fun value applied => .unary applied
        refine .bind (.resultAt position free) fun updated freeUpdated => ?_
        refine .bind (.assign context scope name position freeUpdated) fun _ _ => ?_
        cases yield with
        | updated => exact .pure freeUpdated
        | previous => exact .pure freePrevious
      | _ => exact .step (.fail _ position)
    | _ => exact plain
  | binary op left right position =>
    obtain ⟨freeLeft, freeRight⟩ := Bool.and_eq_true_iff.mp free
    refine .bind (start_ends underway _ freeLeft (by simp +arith [weight])) fun one freeOne => ?_
    refine .bind (start_ends underway _ freeRight (by simp +arith [weight])) fun two freeTwo => ?_
    exact .step (.resultAt position fun result applied => .binary freeOne freeTwo applied)
  | logical op left right position =>
    obtain ⟨freeLeft, freeRight⟩ := Bool.and_eq_true_iff.mp free
    refine .bind (start_ends underway _ freeLeft (by simp +arith [weight])) fun one _ => ?_
    refine .ite (.pure (.of_closureless rfl)) ?_
    refine .bind (start_ends underway _ freeRight (by simp +arith [weight])) fun two _ => ?_
    exact .pure (.of_closureless rfl)
  | call callee arguments position =>
    exact start_ends underway (.evalCall callee arguments position scope)
      (Bool.and_eq_true_iff.mp free) (by simp +arith [weight])
  | lambda procedure position => exact .step (.newClosure scope free)
  | index target index position =>
    obtain ⟨freeTarget, freeIndex⟩ := Bool.and_eq_true_iff.mp free
    refine .bind (start_ends underway _ freeTarget (by simp +arith [weight])) ?_
    intro container freeContainer
    refine .bind (start_ends underway _ freeIndex (by simp +arith [weight])) fun place _ => ?_
    refine .ite ?_ (.step (.fail _ position))
    cases place with
    | int number =>
      refine .step (.resultAt position fun result found => ?_)
      exact .of_subset (closures_element found) freeContainer
    | _ => exact .step (.fail _ _)

theorem applyPlan_ends {callee : Expr} {arguments : List Expr} {position : Position}
    {scope : ScopeId} {function : Value}
    (underway : Underway context depth (weight (.evalCall callee arguments position scope)))
    (freeFunction : function.LoopFree) (freeArguments : loopFreeExprs arguments = true) :
    (applyPlan arguments position scope function).Ends context depth Value.LoopFree := by
  refine .bind (start_ends underway _ freeArguments (by simp +arith [weight])) ?_
  intro values freeValues
  exact start_ends underway (.callValue function values position) ⟨freeFunction, freeValues⟩
    (by simp [weight])

theorem callPlan_ends {callee : Expr} {arguments : List Expr} {position : Position}
    {scope : ScopeId}
    (underway : Underway context depth (weight (.evalCall callee arguments position scope)))
    (freeCallee : callee.loopFree = true) (freeArguments : loopFreeExprs arguments = true) :
    (callPlan context arguments position scope callee).Ends context depth Value.LoopFree := by
  cases callee with
  | identifier name namePosition =>
    refine .bind (.step (.lookup? underway.table scope name)) fun found freeFound => ?_
    cases found with
    | some function => exact applyPlan_ends underway (freeFound function rfl) freeArguments
    | none =>
      dsimp only
      cases Builtin.ofName? name with
      | none => exact .step (.fail _ namePosition)
      | some builtin =>
        refine .bind (start_ends underway _ freeArguments (by simp +arith [weight])) ?_
        exact fun values freeValues => .step (.callBuiltin builtin position freeValues)
  | _ =>
    refine .bind (start_ends underway _ freeCallee (by simp +arith [weight])) ?_
    exact fun function freeFunction => applyPlan_ends underway freeFunction freeArguments

/-- A call is admitted only if there is room for one more, so its body ends. -/
theorem closurePlan_ends {closure : Closure} {arguments : List Value} {position : Position}
    (underway : Underway context depth bound) (free : closure.LoopFree)
    (freeArguments : ∀ value ∈ arguments, value.LoopFree) :
    (closurePlan context closure arguments position).Ends context depth Value.LoopFree := by
  rw [closurePlan_eq]
  refine .ite (.step (.fail _ position)) (.bind (.step (.allowCall context)) fun _ room => ?_)
  refine .bind (.step (.newChild closure.scope)) fun scope _ => ?_
  have pairs : ∀ pair ∈ closure.procedure.parameters.zip arguments, pair.2.LoopFree :=
    fun pair member => freeArguments pair.2 (List.of_mem_zip member).2
  refine .bind (.step (.defineAll scope pairs)) fun _ _ => ?_
  -- The body may be heavier than all the code that led to the call.
  have body : (Task.execBlock closure.procedure.body scope).Ends context (depth + 1) :=
    underway.deeper room free.body
  exact .bind (.startDeeper body) fun signal freeSignal => .step (.callResult freeSignal)

theorem innerPlan_ends {statements : List Statement} {scope : ScopeId}
    (underway : Underway context depth bound) (free : loopFreeStatements statements = true)
    (light : 3 * sizeOf statements < bound) :
    (innerPlan statements scope).Ends context depth (Signal.Holds Closure.LoopFree) :=
  .bind (.step (.newChild scope)) fun inner _ =>
    start_ends underway (.execBlock statements inner) free light

theorem statementPlan_ends {statement : Statement} {scope : ScopeId}
    (underway : Underway context depth (weight (.execStatement statement scope)))
    (free : statement.loopFree = true) :
    (statementPlan context scope statement).Ends context depth
      (Signal.Holds Closure.LoopFree) := by
  cases statement with
  | declare name value mutability position =>
    refine .bind (start_ends underway _ free (by simp +arith [weight])) fun result held => ?_
    exact .bind (.step (.define scope held)) fun _ _ => .pure trivial
  | assign name value position =>
    refine .bind (start_ends underway _ free (by simp +arith [weight])) fun result held => ?_
    exact .bind (.step (.assign context scope name position held)) fun _ _ => .pure trivial
  | leave value position =>
    cases value with
    | none => exact .pure (Value.Holds.of_closureless rfl)
    | some value =>
      refine .bind (start_ends underway _ free (by simp +arith [weight])) ?_
      exact fun result held => .pure held
  | branch condition thenBranch elseBranch position =>
    cases elseBranch with
    | none =>
      obtain ⟨freeCondition, freeThen⟩ := Bool.and_eq_true_iff.mp free
      refine .bind (start_ends underway _ freeCondition (by simp +arith [weight])) ?_
      exact fun holds _ =>
        .ite (innerPlan_ends underway freeThen (by simp +arith [weight])) (.pure trivial)
    | some statements =>
      obtain ⟨front, freeElse⟩ := Bool.and_eq_true_iff.mp free
      obtain ⟨freeCondition, freeThen⟩ := Bool.and_eq_true_iff.mp front
      refine .bind (start_ends underway _ freeCondition (by simp +arith [weight])) ?_
      exact fun holds _ =>
        .ite (innerPlan_ends underway freeThen (by simp +arith [weight]))
          (innerPlan_ends underway freeElse (by simp +arith [weight]))
  | loop condition body position => cases free
  | block statements position => exact innerPlan_ends underway free (by simp +arith [weight])
  | loopBody statements position =>
    refine .bind (innerPlan_ends underway free (by simp +arith [weight])) fun signal held => ?_
    cases signal with
    | continuing place => exact .pure trivial
    | _ => exact .pure held
  | evaluate expression position =>
    refine .bind (start_ends underway _ free (by simp +arith [weight])) ?_
    exact fun result _ => .pure trivial
  | breakLoop position => exact .pure trivial
  | continueLoop position => exact .pure trivial

/-- The plan of a task ends if the lighter tasks and those of one more call do. -/
theorem plan_ends (task : Task) (free : task.LoopFree)
    (underway : Underway context depth task.weight) :
    (task.plan context).Ends context depth task.YieldsLoopFree := by
  cases task with
  | eval expression scope => exact evalPlan_ends underway free
  | evalCondition condition scope =>
    refine .bind (start_ends underway _ free (by simp [weight])) fun value _ => ?_
    exact .step (.resultAt condition.position fun _ _ => trivial)
  | evalAll expressions scope =>
    cases expressions with
    | nil => exact .pure fun value member => by cases member
    | cons expression rest =>
      obtain ⟨here, there⟩ := Bool.and_eq_true_iff.mp free
      refine .bind (start_ends underway _ here (by simp +arith [weight])) fun value held => ?_
      refine .bind (start_ends underway _ there (by simp +arith [weight])) fun values all => ?_
      exact .pure (List.forall_mem_cons.mpr ⟨held, all⟩)
  | evalCall callee arguments position scope => exact callPlan_ends underway free.1 free.2
  | callValue function arguments position =>
    cases function with
    | function closure =>
      exact start_ends underway (.callClosure closure arguments position)
        ⟨free.1 closure (List.mem_singleton_self closure), free.2⟩ (by simp [weight])
    | _ => exact .step (.fail _ position)
  | callClosure closure arguments position => exact closurePlan_ends underway free.1 free.2
  | execBlock statements scope =>
    cases statements with
    | nil => exact .pure trivial
    | cons statement rest =>
      obtain ⟨here, there⟩ := Bool.and_eq_true_iff.mp free
      refine .bind (.step (.scopeFor statement scope)) fun inner _ => ?_
      refine .bind (start_ends underway _ here (by simp +arith [weight])) fun signal held => ?_
      cases signal with
      | normal =>
        exact start_ends underway (.execBlock rest inner) there (by simp +arith [weight])
      | _ => exact .step (.pure held)
  | execStatement statement scope => exact statementPlan_ends underway free
  | execLoop condition body scope => exact free.elim

/-- A task ends if its plan does: it takes one unit more. -/
theorem ends_of_plan {task : Task}
    (ends : (task.plan context).Ends context depth task.YieldsLoopFree) :
    task.Ends context depth := by
  intro machine free
  obtain ⟨outcome, ended, enough, came⟩ := ends machine free
  refine ⟨outcome, ended, enough + 1, fun budget large => ?_⟩
  obtain ⟨less, rfl⟩ := Nat.exists_eq_add_of_le' (Nat.le_trans (Nat.le_add_left 1 enough) large)
  show task.perform context (less + 1) machine = outcome
  rw [← plan_run]
  exact came less (Nat.le_of_succ_le_succ large)

/-- Within one call, by induction on the weight. -/
theorem ends_of_deeper (table : context.procedures.LoopFree)
    (deeper : depth < context.maxDepth → ∀ {task : Task}, task.LoopFree →
      task.Ends context (depth + 1)) :
    ∀ {task : Task}, task.LoopFree → task.Ends context depth := by
  intro task free
  induction heavy : task.weight using Nat.strongRecOn generalizing task with
  | ind weight inductionHypothesis =>
    subst heavy
    exact ends_of_plan (plan_ends task free
      ⟨table, fun freeOther light => inductionHypothesis _ light freeOther rfl, deeper⟩)

/-- Without loops in reach every task ends, by induction on the calls that may still be nested. -/
theorem ends (table : context.procedures.LoopFree) {task : Task} (free : task.LoopFree) :
    task.Ends context depth := by
  induction room : context.maxDepth - depth generalizing depth task with
  | zero =>
    -- No call is allowed any more, so nothing has to be known of the bodies of functions.
    exact ends_of_deeper table (fun more => by omega) free
  | succ room inductionHypothesis =>
    exact ends_of_deeper table (fun _ _ freeOther => inductionHypothesis freeOther (by omega)) free

end Task

/-! ### Runs -/

theorem Outcome.Ended.settled {α : Type} {depth : Nat} {good : α → Prop} {outcome : Outcome α}
    (ended : Outcome.Ended depth good outcome) : Settled outcome := by
  cases outcome with
  | ok value machine => trivial
  | error interrupt machine => exact settled_error.mpr ended

namespace Interpreter

/-- A flush takes no budget, nor does what is left to do behind it. -/
theorem settled_flush {α : Type} (position : Position) (next : Eval α)
    (settled : ∀ machine, Settled (next machine)) (machine : Machine) :
    Settled ((flush position *> next) machine) := by
  show Settled ((flush position >>= fun _ => next) machine)
  cases flushed : Sink.flush machine.sink with
  | ok done sink =>
    have came : flush position machine = .ok () { machine with sink } := by rw [flush, flushed]
    rw [EStateM.bind_of_ok came]
    exact settled _
  | error fault sink =>
    have came : flush position machine =
        .error (.fault ⟨fault, some position⟩) { machine with sink } := by rw [flush, flushed]
    rw [EStateM.bind_of_error came]
    trivial

theorem settled_runEntry {budget : Nat} {entry : Closure} {context : Context} {machine : Machine}
    (settled : Settled
      (Eval.callClosure context budget entry [] entry.procedure.position machine)) :
    Settled (runEntry budget entry context machine) := by
  unfold runEntry
  dsimp only
  cases came : Eval.callClosure context budget entry [] entry.procedure.position machine with
  | ok value later => exact settled_flush _ (pure value) (fun _ => trivial) later
  | error interrupt later =>
    cases interrupt with
    | fault error =>
      exact settled_flush _ (throw (Interrupt.fault error)) (fun _ => trivial) later
    | exhausted =>
      rw [came] at settled
      exact settled.elim

/-- A step that is settled comes to a value or to a fault. -/
theorem outcome_of_settled {α : Type} {interpreter : Interpreter} {step : Context → Eval α}
    (settled : Settled (step interpreter.context interpreter.machine)) :
    (∃ value, (interpreter.perform step).outcome = .ok value) ∨
      ∃ error, (interpreter.perform step).outcome = .error (.fault error) := by
  unfold perform EStateM.run
  cases came : step interpreter.context interpreter.machine with
  | ok value machine => exact Or.inl ⟨value, rfl⟩
  | error interrupt machine =>
    cases interrupt with
    | fault error => exact Or.inr ⟨error, rfl⟩
    | exhausted =>
      rw [came] at settled
      exact settled.elim

end Interpreter

/-- For every entry name, every limit on nested calls and every sink: the run of a program without
loops ends with a value or with a fault, however its functions call themselves and each other. -/
theorem run_ends_without_loops (config : Config) (sink : Sink) (program : Program)
    (free : program.loopFree = true) :
    ∃ run : Interpreter.Run Value,
      ((∃ value, run.outcome = .ok value) ∨ ∃ error, run.outcome = .error (.fault error)) ∧
      ∃ enough, ∀ budget, enough ≤ budget →
        (Interpreter.new config sink).run budget program = run := by
  obtain ⟨loaded, isLoaded⟩ : ∃ loaded, loaded = (Interpreter.new config sink).load program :=
    ⟨_, rfl⟩
  have table : loaded.context.procedures.LoopFree := by
    rw [isLoaded]
    exact ProcedureTable.loopFree_build free _ _
  have begins : loaded.machine.LoopFree 0 := by
    rw [isLoaded]
    exact ⟨rfl, Store.All.newRoot⟩
  unfold Interpreter.run
  rw [← isLoaded]
  dsimp only
  cases present : loaded.procedures.find? loaded.config.entry with
  | none => exact ⟨_, Or.inr ⟨_, rfl⟩, 0, fun _ _ => rfl⟩
  | some entry =>
    have freeEntry : (Task.callClosure entry [] entry.procedure.position).LoopFree :=
      ⟨table entry (List.mem_of_find?_eq_some present), nofun⟩
    obtain ⟨outcome, ended, enough, came⟩ := Task.ends table freeEntry loaded.machine begins
    have called : ∀ budget, enough ≤ budget → Eval.callClosure loaded.context budget entry []
        entry.procedure.position loaded.machine = outcome := came
    have same : ∀ budget, enough ≤ budget → loaded.perform (Interpreter.runEntry budget entry) =
        loaded.perform (Interpreter.runEntry enough entry) := by
      intro budget large
      unfold Interpreter.perform Interpreter.runEntry EStateM.run
      dsimp only
      rw [called budget large, called enough (Nat.le_refl enough)]
    refine ⟨_, Interpreter.outcome_of_settled (Interpreter.settled_runEntry ?_), enough, same⟩
    rw [called enough (Nat.le_refl enough)]
    exact ended.settled

/-- A program whose one function is called with itself, and calls its argument with itself. -/
def selfCallingProgram : Program :=
  ⟨[⟨"main", [], [
    .declare "f" (.lambda ⟨Procedure.lambdaName, ["g"], [
      .leave (some (.call (.identifier "g" ⟨2, 34⟩) [.identifier "g" ⟨2, 36⟩] ⟨2, 35⟩)) ⟨2, 27⟩],
      ⟨2, 13⟩⟩ ⟨2, 13⟩) .constant ⟨2, 5⟩,
    .leave (some (.call (.identifier "f" ⟨3, 12⟩) [.identifier "f" ⟨3, 14⟩] ⟨3, 13⟩)) ⟨3, 5⟩],
    ⟨1, 1⟩⟩]⟩

/-- The program comes to an end, for there is a limit on nested calls. -/
theorem run_ends_without_loops_selfCalling : selfCallingProgram.loopFree = true ∧
    ∃ run : Interpreter.Run Value,
      ((∃ value, run.outcome = .ok value) ∨ ∃ error, run.outcome = .error (.fault error)) ∧
      ∃ enough, ∀ budget, enough ≤ budget →
        (Interpreter.new ⟨"main", 4⟩ {}).run budget selfCallingProgram = run :=
  ⟨by decide, run_ends_without_loops ⟨"main", 4⟩ {} selfCallingProgram (by decide)⟩

end Scriptlet
