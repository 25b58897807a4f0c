/-
This file proves that runs pay no attention to places. Places are kept in the tree, in
function values and in signals, and they are copied into errors; they decide nothing. A
run of a program without places therefore does what a run of the program does, up to
places, and so do two runs of programs that differ in places only.
-/

import Scriptlet.Interpreter
import Scriptlet.Proofs.Assembly
import Scriptlet.Proofs.Layout.Reading
import Scriptlet.Proofs.Layout.Values

namespace Scriptlet

/-! ### State -/

instance : Placing ProcedureTable := ⟨fun table => ⟨bare table.entries⟩⟩
instance : Placing Context := ⟨fun context => ⟨bare context.procedures, context.maxDepth⟩⟩
instance : Placing Machine := ⟨fun machine => { machine with store := bare machine.store }⟩

/-- How a statement ended, without places. -/
instance : Placing Signal where
  bare
    | .normal => .normal
    | .returning value => .returning (bare value)
    | .breaking _ => .breaking .nowhere
    | .continuing _ => .continuing .nowhere

/-- Procedures are found by their names. -/
theorem ProcedureTable.find?_bare (table : ProcedureTable) (name : String) :
    (bare table).find? name = bare (table.find? name) := by
  show (table.entries.map Placing.bare).find? _ = _
  rw [List.find?_map]
  have sameTest : ((fun closure : Closure => closure.procedure.name == name) ∘ Placing.bare) =
      fun closure => closure.procedure.name == name := by
    funext closure
    show ((bare closure.procedure).name == name) = _
    rw [Procedure.name_bare]
  rw [sameTest]
  rfl

namespace Eval

/-! ### Steps -/

section

variable {α : Type} [Placing α]

theorem alike_fail (fault : RuntimeFault) (position : Position) :
    Alike (fail fault position : Eval α) (fail fault .nowhere) :=
  AlikeBy.throw rfl

theorem alike_failNowhere (fault : RuntimeFault) :
    Alike (failNowhere fault : Eval α) (failNowhere fault) :=
  AlikeBy.throw rfl

/-- A result is placed where the operation stands, unless all places are forgotten. -/
theorem alike_resultAt {result other : Except RuntimeFault α} (position : Position)
    (same : bare result = other) :
    Alike (resultAt position result) (resultAt .nowhere other) := by
  subst same
  cases result with
  | ok value => exact AlikeBy.pure rfl
  | error fault => exact alike_fail fault position

/-- How deep calls are nested has nothing to do with places. -/
theorem alike_deeper {α β : Type} {change : α → β} {step : Eval α} {other : Eval β}
    (alike : AlikeBy change step other) : AlikeBy change (deeper step) (deeper other) := by
  intro machine
  have inside := alike { machine with depth := machine.depth + 1 }
  have sameMachine : ({ bare machine with depth := (bare machine).depth + 1 } : Machine) =
      bare { machine with depth := machine.depth + 1 } := rfl
  unfold deeper
  rw [sameMachine, inside]
  cases step { machine with depth := machine.depth + 1 } <;> rfl

end

theorem alike_get : Alike (get : Eval Machine) get :=
  fun _ => rfl

theorem alike_newChild (parent : ScopeId) : Alike (newChild parent) (newChild parent) := by
  intro machine
  have made := machine.store.newChild_bare parent
  show EStateM.Result.ok ((bare machine.store).newChild parent).1
    { machine with store := ((bare machine.store).newChild parent).2 } = _
  rw [made]
  rfl

/-- A binding loses the places in its value. -/
theorem alike_define (scope : ScopeId) (binding : Binding) :
    Alike (define scope binding) (define scope (bare binding)) := by
  intro machine
  show EStateM.Result.ok ()
    { machine with store := (bare machine.store).define scope (bare binding) } = _
  rw [Store.define_bare]
  rfl

theorem alike_defineAll (scope : ScopeId) (pairs : List (String × Value)) :
    Alike (defineAll scope pairs) (defineAll scope (bare pairs)) := by
  induction pairs with
  | nil => exact AlikeBy.pure rfl
  | cons first rest inductionHypothesis =>
    exact (alike_define scope ⟨first.1, first.2, .constant⟩).bind fun _ => inductionHypothesis

theorem alike_scopeForDeclaration (scope : ScopeId) (name : String) :
    Alike (scopeForDeclaration scope name) (scopeForDeclaration scope name) := by
  refine alike_get.bind fun machine => ?_
  show Alike _ (if (bare machine.store).binds scope name then newChild scope else pure scope)
  rw [Store.binds_bare]
  split
  · exact alike_newChild scope
  · exact AlikeBy.pure rfl

theorem declaredName?_bare (statement : Statement) :
    (bare statement).declaredName? = statement.declaredName? := by
  cases statement with
  | leave value position => cases value <;> rfl
  | branch condition thenBranch elseBranch position => cases elseBranch <;> rfl
  | _ => rfl

/-- Whether a declaration needs a scope of its own depends on names only. -/
theorem alike_scopeFor (statement : Statement) (scope : ScopeId) :
    Alike (scopeFor statement scope) (scopeFor (bare statement) scope) := by
  rw [scopeFor, scopeFor, declaredName?_bare]
  cases statement.declaredName? with
  | some name => exact alike_scopeForDeclaration scope name
  | none => exact AlikeBy.pure rfl

/-- The same variable is found, or else the same procedure. -/
theorem alike_lookup? (context : Context) (scope : ScopeId) (name : String) :
    Alike (lookup? context scope name) (lookup? (bare context) scope name) := by
  refine alike_get.bind fun machine => ?_
  have sameVariable : (bare machine).store.get? scope name = bare (machine.store.get? scope name) :=
    machine.store.get?_bare scope name
  have sameProcedure : (bare context).procedures.find? name =
      bare (context.procedures.find? name) :=
    context.procedures.find?_bare name
  rw [sameVariable, sameProcedure]
  cases machine.store.get? scope name with
  | some value => exact AlikeBy.pure rfl
  | none =>
    refine AlikeBy.pure ?_
    cases context.procedures.find? name <;> rfl

theorem alike_readName (context : Context) (scope : ScopeId) (name : String) (position : Position) :
    Alike (readName context scope name position) (readName (bare context) scope name .nowhere) := by
  refine (alike_lookup? context scope name).bind fun found => ?_
  cases found with
  | some value => exact AlikeBy.pure rfl
  | none => exact alike_fail _ _

/-- Why a name cannot be assigned depends on what the name stands for. -/
theorem assignFault_bare (context : Context) (name : String) (fault : AssignFault) :
    assignFault (bare context) name fault = assignFault context name fault := by
  cases fault with
  | constant => rfl
  | undefined =>
    have sameProcedure : (bare context).procedures.find? name =
        bare (context.procedures.find? name) :=
      context.procedures.find?_bare name
    rw [assignFault, assignFault, sameProcedure]
    cases context.procedures.find? name <;> rfl

/-- The same scope is assigned in, or the same fault is reported. -/
theorem alike_assign (context : Context) (scope : ScopeId) (name : String) (value : Value)
    (position : Position) :
    Alike (assign context scope name value position)
      (assign (bare context) scope name (bare value) .nowhere) := by
  refine alike_get.bind fun machine => ?_
  have sameTarget : (bare machine).store.target scope name = machine.store.target scope name :=
    machine.store.target_bare scope name
  rw [sameTarget]
  cases machine.store.target scope name with
  | ok found =>
    intro later
    show EStateM.Result.ok ()
      { later with store := (bare later.store).write found name (bare value) } = _
    rw [Store.write_bare]
    rfl
  | error fault =>
    show Alike _ (fail (assignFault (bare context) name fault) .nowhere)
    rw [assignFault_bare]
    exact alike_fail _ _

theorem alike_newClosure (procedure : Procedure) (scope : ScopeId) :
    Alike (newClosure procedure scope) (newClosure (bare procedure) scope) :=
  fun _ => rfl

/-- A builtin does the same to the sink and comes to the same value, up to places. -/
theorem alike_callBuiltin (builtin : Builtin) (arguments : List Value) (position : Position) :
    Alike (callBuiltin builtin arguments position)
      (callBuiltin builtin (bare arguments) .nowhere) := by
  intro machine
  have alike : builtin.run (bare arguments) machine.sink =
      bare (builtin.run arguments machine.sink) :=
    alike_builtin builtin arguments machine.sink
  have sameSink : (bare machine).sink = machine.sink := rfl
  unfold callBuiltin
  simp only [sameSink, alike]
  cases builtin.run arguments machine.sink <;> rfl

/-- A call that ends with a jump is refused, wherever the jump stands. -/
theorem alike_callResult (signal : Signal) :
    Alike (callResult signal) (callResult (bare signal)) := by
  cases signal with
  | normal => exact AlikeBy.pure rfl
  | returning value => exact AlikeBy.pure rfl
  | breaking position => exact alike_fail _ _
  | continuing position => exact alike_fail _ _

theorem alike_allowCall (context : Context) :
    Alike (allowCall context) (allowCall (bare context)) := by
  refine alike_get.bind fun machine => ?_
  show Alike _ (if context.maxDepth ≤ machine.depth then _ else _)
  split
  · exact alike_failNowhere _
  · exact .pure rfl

end Eval

/-! ### Tasks -/

instance : Placing Task where
  bare
    | .eval expression scope => .eval (bare expression) scope
    | .evalCondition condition scope => .evalCondition (bare condition) scope
    | .evalAll expressions scope => .evalAll (bare expressions) scope
    | .evalCall callee arguments _ scope => .evalCall (bare callee) (bare arguments) .nowhere scope
    | .callValue function arguments _ => .callValue (bare function) (bare arguments) .nowhere
    | .callClosure closure arguments _ => .callClosure (bare closure) (bare arguments) .nowhere
    | .execBlock statements scope => .execBlock (bare statements) scope
    | .execStatement statement scope => .execStatement (bare statement) scope
    | .execLoop condition body scope => .execLoop (bare condition) (bare body) scope

/-- What a task yields, without places. -/
def Task.bareAnswer : (task : Task) → task.Answer → (bare task).Answer
  | .eval _ _ => (bare : Value → Value)
  | .evalCondition _ _ => (bare : Bool → Bool)
  | .evalAll _ _ => (bare : List Value → List Value)
  | .evalCall _ _ _ _ => (bare : Value → Value)
  | .callValue _ _ _ => (bare : Value → Value)
  | .callClosure _ _ _ => (bare : Value → Value)
  | .execBlock _ _ => (bare : Signal → Signal)
  | .execStatement _ _ => (bare : Signal → Signal)
  | .execLoop _ _ _ => (bare : Signal → Signal)

/-! ### Plans -/

namespace Plan

variable {α β γ δ : Type}

/-- The second plan does what the first one does, up to places, if the tasks they start do. -/
def AlikeBy (change : α → β) (plan : Plan α) (other : Plan β) : Prop :=
  ∀ perform performBare : (task : Task) → Eval task.Answer,
    (∀ task, Scriptlet.AlikeBy task.bareAnswer (perform task) (performBare (bare task))) →
    Scriptlet.AlikeBy change (plan.run perform) (other.run performBare)

namespace AlikeBy

theorem step {change : α → β} {taken : Eval α} {other : Eval β}
    (alike : Scriptlet.AlikeBy change taken other) :
    (Plan.step taken).AlikeBy change (Plan.step other) :=
  fun _ _ _ => alike

theorem pure {change : α → β} {value : α} {other : β} (same : change value = other) :
    (Pure.pure value : Plan α).AlikeBy change (Pure.pure other) :=
  step (.pure same)

theorem start (task : Task) :
    (Plan.start task).AlikeBy task.bareAnswer (Plan.start (bare task)) :=
  fun _ _ each => each task

theorem startDeeper (task : Task) :
    (Plan.startDeeper task).AlikeBy task.bareAnswer (Plan.startDeeper (bare task)) :=
  fun _ _ each => Eval.alike_deeper (each task)

theorem bind {change : α → β} {changeNext : γ → δ} {plan : Plan α} {other : Plan β}
    {next : α → Plan γ} {following : β → Plan δ} (first : plan.AlikeBy change other)
    (rest : ∀ value, (next value).AlikeBy changeNext (following (change value))) :
    (plan >>= next).AlikeBy changeNext (other >>= following) := by
  intro perform performBare each
  rw [run_bind, run_bind]
  exact (first perform performBare each).bind fun value => rest value perform performBare each

theorem ite {condition : Prop} [Decidable condition] {change : α → β} {first second : Plan α}
    {third fourth : Plan β} (whenTrue : first.AlikeBy change third)
    (whenFalse : second.AlikeBy change fourth) :
    (if condition then first else second).AlikeBy change
      (if condition then third else fourth) := by
  split
  · exact whenTrue
  · exact whenFalse

end AlikeBy

end Plan

/-! ### The plans of tasks -/

namespace Task

open Plan Eval

variable {context : Context}

/-- An update of a variable, or of something that is none. -/
theorem updatePlan_alike (scope : ScopeId) (kind : Step) (yield : Yield) (operand : Expr)
    (position : Position) :
    (evalPlan context scope (.unary (.update kind yield) operand position)).AlikeBy bare
      (evalPlan (bare context) scope (.unary (.update kind yield) (bare operand) .nowhere)) := by
  cases operand with
  | identifier name namePosition =>
    refine .step ((alike_readName context scope name namePosition).bind fun previous => ?_)
    refine (alike_resultAt position (unary_bare _ previous).symm).bind fun updated => ?_
    refine (alike_assign context scope name updated position).bind fun _ => ?_
    cases yield with
    | _ => exact .pure rfl
  | _ => exact .step (alike_fail _ position)

/-- Every kind of expression is evaluated by the plan of its bare form. -/
theorem evalPlan_alike (scope : ScopeId) (expression : Expr) :
    (evalPlan context scope expression).AlikeBy bare
      (evalPlan (bare context) scope (bare expression)) := by
  cases expression with
  | literal value position =>
    refine .pure ?_
    cases value with
    | _ => rfl
  | identifier name position => exact .step (alike_readName context scope name position)
  | unary op operand position =>
    have plain : (do
        let value ← start (.eval operand scope)
        step (resultAt position (op.apply value))).AlikeBy bare (do
        let value ← start (.eval (bare operand) scope)
        step (resultAt .nowhere (op.apply value))) :=
      .bind (.start (.eval operand scope)) fun value =>
        .step (alike_resultAt position (unary_bare op value).symm)
    cases op with
    | update kind yield => exact updatePlan_alike scope kind yield operand position
    | _ => exact plain
  | binary op left right position =>
    refine .bind (.start (.eval left scope)) fun first => ?_
    refine .bind (.start (.eval right scope)) fun second => ?_
    exact .step (alike_resultAt position (binary_bare op first second).symm)
  | logical op left right position =>
    refine .bind (.start (.evalCondition left scope)) fun first => .ite (.pure rfl) ?_
    exact .bind (.start (.evalCondition right scope)) fun second => .pure rfl
  | call callee arguments position =>
    rw [bare_call]
    exact .start (.evalCall callee arguments position scope)
  | lambda procedure position => exact .step (alike_newClosure procedure scope)
  | index target index position =>
    rw [bare_index]
    refine .bind (.start (.eval target scope)) fun container => ?_
    refine .bind (.start (.eval index scope)) fun place => ?_
    show Plan.AlikeBy _ (if container.isIndexable then _ else _)
      (if (bare container).isIndexable then _
        else step (fail (.notIndexable (bare container).type) .nowhere))
    rw [isIndexable_bare, type_bare, Expr.position_bare]
    refine .ite ?_ (.step (alike_fail _ position))
    cases place with
    | int number => exact .step (alike_resultAt position (element_bare container number).symm)
    | _ => exact .step (alike_fail _ index.position)

theorem applyPlan_alike (arguments : List Expr) (position : Position) (scope : ScopeId)
    (function : Value) :
    (applyPlan arguments position scope function).AlikeBy bare
      (applyPlan (bare arguments) .nowhere scope (bare function)) :=
  .bind (.start (.evalAll arguments scope)) fun values =>
    .start (.callValue function values position)

/-- What is called is a name that stands for a builtin, or it is evaluated. -/
theorem callPlan_alike (arguments : List Expr) (position : Position) (scope : ScopeId)
    (callee : Expr) :
    (callPlan context arguments position scope callee).AlikeBy bare
      (callPlan (bare context) (bare arguments) .nowhere scope (bare callee)) := by
  have computed : (do
      let function ← start (.eval callee scope)
      applyPlan arguments position scope function).AlikeBy bare (do
      let function ← start (.eval (bare callee) scope)
      applyPlan (bare arguments) .nowhere scope function) :=
    .bind (.start (.eval callee scope)) fun function =>
      applyPlan_alike arguments position scope function
  cases callee with
  | identifier name namePosition =>
    refine .bind (.step (alike_lookup? context scope name)) fun found => ?_
    cases found with
    | some function => exact applyPlan_alike arguments position scope function
    | none =>
      simp only [bare_none]
      cases Builtin.ofName? name with
      | none => exact .step (alike_fail _ namePosition)
      | some builtin =>
        exact .bind (.start (.evalAll arguments scope)) fun values =>
          .step (alike_callBuiltin builtin values position)
  | call callee inner place =>
    rw [bare_call] at computed ⊢
    exact computed
  | _ => exact computed

/-- Procedures without places have the same names and parameters. -/
theorem closurePlan_alike (closure : Closure) (arguments : List Value) (position : Position) :
    (closurePlan context closure arguments position).AlikeBy bare
      (closurePlan (bare context) (bare closure) (bare arguments) .nowhere) := by
  have sameProcedure : (bare closure).procedure = bare closure.procedure := rfl
  have sameScope : (bare closure).scope = closure.scope := rfl
  have sameArity : (bare closure.procedure).arity = closure.procedure.arity := by
    rw [Procedure.arity, Procedure.arity, Procedure.parameters_bare]
  have paired : closure.procedure.parameters.zip (bare arguments) =
      bare (closure.procedure.parameters.zip arguments) := by
    show _ = List.map (Prod.map id Placing.bare) _
    rw [← List.zip_map, List.map_id]
    rfl
  rw [closurePlan_eq, closurePlan_eq, sameProcedure, sameScope, sameArity, length_bare,
    Procedure.name_bare, Procedure.parameters_bare, Procedure.body_bare, paired]
  refine .ite (.step (alike_fail _ position)) ?_
  refine .bind (.step (alike_allowCall context)) fun _ => ?_
  refine .bind (.step (alike_newChild closure.scope)) fun scope => ?_
  refine .bind (.step (alike_defineAll scope _)) fun _ => ?_
  refine .bind (.startDeeper (.execBlock closure.procedure.body scope)) fun signal => ?_
  exact .step (alike_callResult signal)

theorem innerPlan_alike (statements : List Statement) (scope : ScopeId) :
    (innerPlan statements scope).AlikeBy bare (innerPlan (bare statements) scope) :=
  .bind (.step (alike_newChild scope)) fun inner => .start (.execBlock statements inner)

/-- Every kind of statement is run by the plan of its bare form. -/
theorem statementPlan_alike (scope : ScopeId) (statement : Statement) :
    (statementPlan context scope statement).AlikeBy bare
      (statementPlan (bare context) scope (bare statement)) := by
  cases statement with
  | declare name value mutability position =>
    refine .bind (.start (.eval value scope)) fun result => ?_
    exact .bind (.step (alike_define scope ⟨name, result, mutability⟩)) fun _ => .pure rfl
  | assign name value position =>
    refine .bind (.start (.eval value scope)) fun result => ?_
    exact .bind (.step (alike_assign context scope name result position)) fun _ => .pure rfl
  | leave value position =>
    cases value with
    | none => exact .pure rfl
    | some value => exact .bind (.start (.eval value scope)) fun result => .pure rfl
  | branch condition thenBranch elseBranch position =>
    rw [bare_branch]
    refine .bind (.start (.evalCondition condition scope)) fun holds => ?_
    refine .ite (innerPlan_alike thenBranch scope) ?_
    cases elseBranch with
    | none => exact .pure rfl
    | some statements => exact innerPlan_alike statements scope
  | loop condition body position =>
    rw [bare_loop]
    exact .start (.execLoop condition body scope)
  | block statements position =>
    rw [bare_block]
    exact innerPlan_alike statements scope
  | loopBody statements position =>
    rw [bare_loopBody]
    refine .bind (innerPlan_alike statements scope) fun signal => ?_
    cases signal with
    | _ => exact .pure rfl
  | evaluate expression position =>
    exact .bind (.start (.eval expression scope)) fun result => .pure rfl
  | breakLoop position => exact .pure rfl
  | continueLoop position => exact .pure rfl

/-- One level: the plan of a task without places does what the plan of the task does. -/
theorem plan_alike (task : Task) :
    (task.plan context).AlikeBy task.bareAnswer ((bare task).plan (bare context)) := by
  cases task with
  | eval expression scope => exact evalPlan_alike scope expression
  | evalCondition condition scope =>
    refine .bind (.start (.eval condition scope)) fun value => ?_
    have same : bare value.expectBool = (bare value).expectBool := by
      rw [expectBool_bare]
      cases value.expectBool with
      | _ => rfl
    rw [Expr.position_bare]
    exact .step (alike_resultAt condition.position same)
  | evalAll expressions scope =>
    cases expressions with
    | nil => exact .pure rfl
    | cons expression rest =>
      refine .bind (.start (.eval expression scope)) fun value => ?_
      exact .bind (.start (.evalAll rest scope)) fun values => .pure rfl
  | evalCall callee arguments position scope =>
    exact callPlan_alike arguments position scope callee
  | callValue function arguments position =>
    cases function with
    | function closure => exact .start (.callClosure closure arguments position)
    | _ => exact .step (alike_fail _ position)
  | callClosure closure arguments position => exact closurePlan_alike closure arguments position
  | execBlock statements scope =>
    cases statements with
    | nil => exact .pure rfl
    | cons statement rest =>
      refine .bind (.step (alike_scopeFor statement scope)) fun inner => ?_
      refine .bind (.start (.execStatement statement inner)) fun signal => ?_
      cases signal with
      | normal => exact .start (.execBlock rest inner)
      | _ => exact .step (.pure rfl)
  | execStatement statement scope => exact statementPlan_alike scope statement
  | execLoop condition body scope =>
    refine .bind (.start (.evalCondition condition scope)) fun holds => ?_
    refine .ite (.bind (innerPlan_alike body scope) fun signal => ?_) (.step (.pure rfl))
    cases signal with
    | normal => exact .start (.execLoop condition body scope)
    | continuing position => exact .start (.execLoop condition body scope)
    | breaking position => exact .step (.pure rfl)
    | returning value => exact .step (.pure rfl)

/-- Tasks pay no attention to places, whatever the budget. -/
theorem perform_alike (context : Context) (budget : Nat) (task : Task) :
    AlikeBy task.bareAnswer (task.perform context budget)
      ((bare task).perform (bare context) budget) := by
  induction budget generalizing task with
  | zero =>
    intro machine
    rw [perform_zero, perform_zero]
    rfl
  | succ budget inductionHypothesis =>
    rw [← plan_run, ← plan_run]
    exact plan_alike task _ _ inductionHypothesis

end Task

end Scriptlet
