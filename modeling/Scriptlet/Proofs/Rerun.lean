/-
This file shows that a task and the relocated task come to the same. The plan of the
relocated task takes the relocated steps and starts the relocated tasks, one for one, so
that plans correspond if the tasks they start do; the rest is an induction on the budget.
-/

import Scriptlet.Proofs.Pairing

namespace Scriptlet

/-! ### Relocated tasks -/

namespace Relocation

variable (relocation : Relocation)

/-- A task with what it is given relocated. -/
def task : Task → Task
  | .eval expression scope => .eval expression (relocation.scope scope)
  | .evalCondition condition scope => .evalCondition condition (relocation.scope scope)
  | .evalAll expressions scope => .evalAll expressions (relocation.scope scope)
  | .evalCall callee arguments position scope =>
    .evalCall callee arguments position (relocation.scope scope)
  | .callValue function arguments position =>
    .callValue (relocation.value function) (arguments.map relocation.value) position
  | .callClosure closure arguments position =>
    .callClosure (relocation.closure closure) (arguments.map relocation.value) position
  | .execBlock statements scope => .execBlock statements (relocation.scope scope)
  | .execStatement statement scope => .execStatement statement (relocation.scope scope)
  | .execLoop condition body scope => .execLoop condition body (relocation.scope scope)

/-- What a task yields, relocated. -/
def answer : (task : Task) → task.Answer → (relocation.task task).Answer
  | .eval _ _, value => relocation.value value
  | .evalCondition _ _, truth => truth
  | .evalAll _ _, values => List.map relocation.value values
  | .evalCall _ _ _ _, value => relocation.value value
  | .callValue _ _ _, value => relocation.value value
  | .callClosure _ _ _, value => relocation.value value
  | .execBlock _ _, signal => relocation.signal signal
  | .execStatement _ _, signal => relocation.signal signal
  | .execLoop _ _ _, signal => relocation.signal signal

end Relocation

namespace Task

/-- The scopes that a task is given are among the first so many. -/
def Within (size : Nat) : Task → Prop
  | .eval _ scope => scope < size
  | .evalCondition _ scope => scope < size
  | .evalAll _ scope => scope < size
  | .evalCall _ _ _ scope => scope < size
  | .callValue function arguments _ =>
    function.Within size ∧ ∀ value ∈ arguments, value.Within size
  | .callClosure closure arguments _ =>
    closure.scope < size ∧ ∀ value ∈ arguments, value.Within size
  | .execBlock _ scope => scope < size
  | .execStatement _ scope => scope < size
  | .execLoop _ _ scope => scope < size

/-- The scopes that the answer of a task leads to are among the first so many. -/
def Yields : (task : Task) → Nat → task.Answer → Prop
  | .eval _ _, size, value => value.Within size
  | .evalCondition _ _, _, _ => True
  | .evalAll _ _, size, values => ∀ value ∈ values, value.Within size
  | .evalCall _ _ _ _, size, value => value.Within size
  | .callValue _ _ _, size, value => value.Within size
  | .callClosure _ _ _, size, value => value.Within size
  | .execBlock _ _, size, signal => signal.Within size
  | .execStatement _ _, size, signal => signal.Within size
  | .execLoop _ _ _, size, signal => signal.Within size

end Task

/-! ### Plans -/

namespace Plan

variable {α β γ δ : Type} {pairing : Pairing} {size : Nat}

/-- The second plan does what the first does, if the tasks they start do. -/
def Tracks (pairing : Pairing) (size : Nat) (change : α → β) (known : Nat → α → Prop)
    (plan : Plan α) (other : Plan β) : Prop :=
  ∀ perform performOther : (task : Task) → Eval task.Answer,
    (∀ task size, task.Within size → (perform task).Tracks pairing size (pairing.answer task)
      task.Yields (performOther (pairing.task task))) →
    (plan.run perform).Tracks pairing size change known (other.run performOther)

namespace Tracks

theorem step {change : α → β} {known : Nat → α → Prop} {taken : Eval α} {other : Eval β}
    (tracks : taken.Tracks pairing size change known other) :
    (Plan.step taken).Tracks pairing size change known (Plan.step other) :=
  fun _ _ _ => tracks

theorem pure {change : α → β} {known : Nat → α → Prop} {value : α} {result : β}
    (same : change value = result) (holds : known size value) :
    (Pure.pure value : Plan α).Tracks pairing size change known (Pure.pure result) :=
  step (.pure same holds)

theorem start (task : Task) (within : task.Within size) :
    (Plan.start task).Tracks pairing size (pairing.answer task) task.Yields
      (Plan.start (pairing.task task)) :=
  fun _ _ each => each task size within

theorem startDeeper (task : Task) (within : task.Within size) :
    (Plan.startDeeper task).Tracks pairing size (pairing.answer task) task.Yields
      (Plan.startDeeper (pairing.task task)) :=
  fun _ _ each => (each task size within).deeper

/-- What follows a step may count on more scopes than there were before it. -/
theorem bind {change : α → β} {known : Nat → α → Prop} {changeNext : γ → δ}
    {knownNext : Nat → γ → Prop} {plan : Plan α} {other : Plan β} {following : α → Plan γ}
    {next : β → Plan δ} (first : plan.Tracks pairing size change known other)
    (rest : ∀ later value, size ≤ later → known later value →
      (following value).Tracks pairing later changeNext knownNext (next (change value))) :
    (plan >>= following).Tracks pairing size changeNext knownNext (other >>= next) := by
  intro perform performOther each
  rw [run_bind, run_bind]
  exact (first perform performOther each).bind fun later value grown holds =>
    rest later value grown holds perform performOther each

theorem ite {condition : Prop} [Decidable condition] {change : α → β} {known : Nat → α → Prop}
    {first second : Plan α} {third fourth : Plan β}
    (whenTrue : first.Tracks pairing size change known third)
    (whenFalse : second.Tracks pairing size change known fourth) :
    (if condition then first else second).Tracks pairing size change known
      (if condition then third else fourth) := by
  split
  · exact whenTrue
  · exact whenFalse

end Tracks

end Plan

namespace Task

open Plan

variable {pairing : Pairing} {context : Context} {size : Nat}

/-- An expression is evaluated alike in a scope and in the scope it is paired with. -/
theorem evalPlan_tracks (table : context.procedures.Rooted) (expression : Expr) {scope : ScopeId}
    (present : scope < size) :
    (evalPlan context scope expression).Tracks pairing size pairing.value Value.Within
      (evalPlan (pairing.context context) (pairing.scope scope) expression) := by
  cases expression with
  | literal value position =>
    refine .pure ?_ (.of_closureless (closures_ofLiteral value))
    cases value with
    | _ => rfl
  | identifier name position => exact .step (.readName table scope name position)
  | unary op operand position =>
    have plain : (do
        let value ← start (.eval operand scope)
        step (Eval.resultAt position (op.apply value))).Tracks pairing size pairing.value
          Value.Within (do
        let value ← start (.eval operand (pairing.scope scope))
        step (Eval.resultAt position (op.apply value))) := by
      refine .bind (.start (.eval operand scope) present) fun later value _ _ => ?_
      refine .step (.resultAt position (pairing.relabeling.unary_value op value) ?_)
      exact fun result applied => .unary applied
    cases op with
    | update kind yield =>
      cases operand with
      | identifier name namePosition =>
        refine .step (.bind (.readName table scope name namePosition) ?_)
        intro later previous _ within
        have applied : ∀ value, (UnaryOp.update kind yield).apply previous = .ok value →
            value.Within later := fun value found => .unary found
        refine .bind (.resultAt position (pairing.relabeling.unary_value _ previous) applied) ?_
        intro last updated grown withinUpdated
        refine .bind (.assign context scope name position withinUpdated) ?_
        intro final _ grownFinal _
        cases yield with
        | updated => exact .pure rfl (withinUpdated.mono grownFinal)
        | previous => exact .pure rfl (within.mono (Nat.le_trans grown grownFinal))
      | _ => exact .step (.fail _ position)
    | _ => exact plain
  | binary op left right position =>
    refine .bind (.start (.eval left scope) present) fun later one grown withinOne => ?_
    refine .bind (.start (.eval right scope) (Nat.lt_of_lt_of_le present grown)) ?_
    intro last two grownLast withinTwo
    refine .step (.resultAt position (pairing.relabeling.binary_value op one two) ?_)
    exact fun result applied => .binary (withinOne.mono grownLast) withinTwo applied
  | logical op left right position =>
    refine .bind (.start (.evalCondition left scope) present) fun later one grown _ => ?_
    refine .ite (.pure rfl (.of_closureless rfl)) ?_
    refine .bind (.start (.evalCondition right scope) (Nat.lt_of_lt_of_le present grown)) ?_
    exact fun last two _ _ => .pure rfl (.of_closureless rfl)
  | call callee arguments position =>
    exact .start (.evalCall callee arguments position scope) present
  | lambda procedure position => exact .step (.newClosure procedure present)
  | index target index position =>
    refine .bind (.start (.eval target scope) present) fun later container grown within => ?_
    refine .bind (.start (.eval index scope) (Nat.lt_of_lt_of_le present grown)) ?_
    intro last place grownLast _
    have indexable : (pairing.value container).isIndexable = container.isIndexable :=
      pairing.relabeling.isIndexable_value container
    have kind : (pairing.value container).type = container.type :=
      pairing.relabeling.type_value container
    show Plan.Tracks pairing last _ _ (if container.isIndexable then _ else _)
      (if (pairing.value container).isIndexable then _
        else step (Eval.fail (.notIndexable (pairing.value container).type) position))
    rw [indexable, kind]
    refine .ite ?_ (.step (.fail _ position))
    cases place with
    | int number =>
      refine .step (.resultAt position (pairing.relabeling.element_value container number) ?_)
      exact fun result found => .of_subset (closures_element found) (within.mono grownLast)
    | _ => exact .step (.fail _ index.position)

theorem applyPlan_tracks (arguments : List Expr) (position : Position) {scope : ScopeId}
    {function : Value} (present : scope < size) (within : function.Within size) :
    (applyPlan arguments position scope function).Tracks pairing size pairing.value Value.Within
      (applyPlan arguments position (pairing.scope scope) (pairing.value function)) := by
  refine .bind (.start (.evalAll arguments scope) present) fun later values grown all => ?_
  exact .start (.callValue function values position) ⟨within.mono grown, all⟩

theorem callPlan_tracks (table : context.procedures.Rooted) (callee : Expr)
    (arguments : List Expr) (position : Position) {scope : ScopeId} (present : scope < size) :
    (callPlan context arguments position scope callee).Tracks pairing size pairing.value
      Value.Within
      (callPlan (pairing.context context) arguments position (pairing.scope scope) callee) := by
  cases callee with
  | identifier name namePosition =>
    refine .bind (.step (.lookup? table scope name)) fun later found grown within => ?_
    have presentLater := Nat.lt_of_lt_of_le present grown
    cases found with
    | some function => exact applyPlan_tracks arguments position presentLater (within function rfl)
    | none =>
      dsimp only [Option.map_none]
      cases Builtin.ofName? name with
      | none => exact .step (.fail _ namePosition)
      | some builtin =>
        refine .bind (.start (.evalAll arguments scope) presentLater) fun last values _ all => ?_
        exact .step (.callBuiltin builtin position all)
  | _ =>
    refine .bind (.start (.eval _ scope) present) fun later function grown within => ?_
    exact applyPlan_tracks arguments position (Nat.lt_of_lt_of_le present grown) within

/-- The two calls make their scopes as children of scopes that are paired. -/
theorem closurePlan_tracks {closure : Closure} {arguments : List Value} (position : Position)
    (present : closure.scope < size) (within : ∀ value ∈ arguments, value.Within size) :
    (closurePlan context closure arguments position).Tracks pairing size pairing.value Value.Within
      (closurePlan (pairing.context context) (pairing.closure closure)
        (arguments.map pairing.value) position) := by
  rw [closurePlan_eq, closurePlan_eq, List.length_map]
  refine .ite (.step (.fail _ position)) ?_
  refine .bind (.step (.allowCall context)) fun later _ grown _ => ?_
  -- The captured scope must be there, or the scope of the call would not keep the store closed.
  have presentLater := Nat.lt_of_lt_of_le present grown
  refine .bind (.step (.newChild presentLater)) fun last scope grownLast made => ?_
  have pairs : ∀ pair ∈ closure.procedure.parameters.zip arguments, pair.2.Within last :=
    fun pair member => (within pair.2 (List.of_mem_zip member).2).mono
      (Nat.le_trans grown grownLast)
  have zipped : (pairing.closure closure).procedure.parameters.zip (arguments.map pairing.value) =
      (closure.procedure.parameters.zip arguments).map (Prod.map id pairing.value) := by
    rw [← List.zip_map, List.map_id]
    rfl
  rw [zipped]
  refine .bind (.step (.defineAll scope pairs)) fun final _ grownFinal _ => ?_
  refine .bind (.startDeeper (.execBlock closure.procedure.body scope)
    (Nat.lt_of_lt_of_le made grownFinal)) ?_
  exact fun _ signal _ withinSignal => .step (.callResult withinSignal)

theorem innerPlan_tracks (statements : List Statement) {scope : ScopeId} (present : scope < size) :
    (innerPlan statements scope).Tracks pairing size pairing.signal Signal.Within
      (innerPlan statements (pairing.scope scope)) :=
  .bind (.step (.newChild present)) fun _ inner _ made => .start (.execBlock statements inner) made

/-- A statement is run alike in a scope and in the scope it is paired with. -/
theorem statementPlan_tracks (statement : Statement) {scope : ScopeId} (present : scope < size) :
    (statementPlan context scope statement).Tracks pairing size pairing.signal Signal.Within
      (statementPlan (pairing.context context) (pairing.scope scope) statement) := by
  cases statement with
  | declare name value mutability position =>
    refine .bind (.start (.eval value scope) present) fun later result _ within => ?_
    have bound : Value.Within later (Binding.mk name result mutability).value := within
    exact .bind (.step (.define scope bound)) fun _ _ _ _ => .pure rfl trivial
  | assign name value position =>
    refine .bind (.start (.eval value scope) present) fun later result _ within => ?_
    exact .bind (.step (.assign context scope name position within)) fun _ _ _ _ =>
      .pure rfl trivial
  | leave value position =>
    cases value with
    | none => exact .pure rfl (Value.Holds.of_closureless rfl)
    | some value =>
      exact .bind (.start (.eval value scope) present) fun _ result _ within => .pure rfl within
  | branch condition thenBranch elseBranch position =>
    refine .bind (.start (.evalCondition condition scope) present) fun later holds grown _ => ?_
    have presentLater := Nat.lt_of_lt_of_le present grown
    refine .ite (innerPlan_tracks thenBranch presentLater) ?_
    cases elseBranch with
    | none => exact .pure rfl trivial
    | some statements => exact innerPlan_tracks statements presentLater
  | loop condition body position => exact .start (.execLoop condition body scope) present
  | block statements position => exact innerPlan_tracks statements present
  | loopBody statements position =>
    refine .bind (innerPlan_tracks statements present) fun later signal _ within => ?_
    cases signal with
    | continuing place => exact .pure rfl trivial
    | _ => exact .pure rfl within
  | evaluate expression position =>
    exact .bind (.start (.eval expression scope) present) fun _ _ _ _ => .pure rfl trivial
  | breakLoop position => exact .pure rfl trivial
  | continueLoop position => exact .pure rfl trivial

/-- One level: the plan of the relocated task does what the plan of the task does. -/
theorem plan_tracks (table : context.procedures.Rooted) (task : Task) (within : task.Within size) :
    (task.plan context).Tracks pairing size (pairing.answer task) task.Yields
      ((pairing.task task).plan (pairing.context context)) := by
  cases task with
  | eval expression scope => exact evalPlan_tracks table expression within
  | evalCondition condition scope =>
    refine .bind (.start (.eval condition scope) within) fun later value _ _ => ?_
    have truth : (pairing.value value).expectBool = value.expectBool.map fun truth => truth := by
      rw [Relocation.value, Relabeling.expectBool_value]
      cases value.expectBool with
      | ok truth => rfl
      | error fault => rfl
    exact .step (.resultAt condition.position truth fun _ _ => trivial)
  | evalAll expressions scope =>
    cases expressions with
    | nil => exact .pure rfl fun value member => by cases member
    | cons expression rest =>
      refine .bind (.start (.eval expression scope) within) fun later value grown here => ?_
      refine .bind (.start (.evalAll rest scope) (Nat.lt_of_lt_of_le within grown)) ?_
      intro last values grownLast there
      exact .pure rfl (List.forall_mem_cons.mpr ⟨here.mono grownLast, there⟩)
  | evalCall callee arguments position scope =>
    exact callPlan_tracks table callee arguments position within
  | callValue function arguments position =>
    cases function with
    | function closure =>
      exact .start (.callClosure closure arguments position)
        ⟨within.1 closure (List.mem_singleton_self closure), within.2⟩
    | _ => exact .step (.fail _ position)
  | callClosure closure arguments position => exact closurePlan_tracks position within.1 within.2
  | execBlock statements scope =>
    cases statements with
    | nil => exact .pure rfl trivial
    | cons statement rest =>
      refine .bind (.step (.scopeFor statement within)) fun later inner _ present => ?_
      refine .bind (.start (.execStatement statement inner) present) ?_
      intro last signal grown withinSignal
      cases signal with
      | normal => exact .start (.execBlock rest inner) (Nat.lt_of_lt_of_le present grown)
      | _ => exact .step (.pure rfl withinSignal)
  | execStatement statement scope => exact statementPlan_tracks statement within
  | execLoop condition body scope =>
    refine .bind (.start (.evalCondition condition scope) within) fun later holds grown _ => ?_
    have present : scope < later := Nat.lt_of_lt_of_le within grown
    refine .ite (.bind (innerPlan_tracks body present) ?_) (.step (.pure rfl trivial))
    intro last signal grownLast withinSignal
    have presentLast := Nat.lt_of_lt_of_le present grownLast
    cases signal with
    | normal => exact .start (.execLoop condition body scope) presentLast
    | continuing position => exact .start (.execLoop condition body scope) presentLast
    | breaking position => exact .step (.pure rfl trivial)
    | returning value => exact .step (.pure rfl withinSignal)

/-- From paired machines a task and the relocated task come to the same, whatever the budget. -/
theorem perform_tracks (table : context.procedures.Rooted) (budget : Nat) (task : Task)
    (within : task.Within size) :
    (task.perform context budget).Tracks pairing size (pairing.answer task) task.Yields
      ((pairing.task task).perform (pairing.context context) budget) := by
  induction budget generalizing task size with
  | zero =>
    intro machine mirror pairs _
    rw [perform_zero, perform_zero]
    exact ⟨mirror, rfl, pairs⟩
  | succ budget inductionHypothesis =>
    rw [← plan_run, ← plan_run]
    exact plan_tracks table task within _ _ fun other _ => inductionHypothesis other

end Task

end Scriptlet
