/-
This file proves that a run never comes to a scope that is not there. A task whose scopes are
there starts only tasks whose scopes are there: a plan passes on the scope it has, one it has just
made, or one that a function value leads to, and function values come from bindings, from
procedures and from what other tasks have yielded. So between the start and the end of a task
there is a route through all moments, if there is one through each task that it starts, and by
induction on the budget there is one through every task.
-/

import Scriptlet.Proofs.Persistence

namespace Scriptlet

/-! ### Plans -/

/-- Every task whose scopes are there is recorded as a route to what it comes to. -/
def Recorded (record : Task → Machine → List Moment) (perform : (task : Task) → Eval task.Answer) :
    Prop :=
  ∀ task size machine, task.Within size → machine.store.Closed →
    size ≤ machine.store.scopes.size →
    Arrives size task.Yields machine.store (record task machine) (perform task machine)

namespace Plan

variable {α β : Type} {size : Nat} {known : Nat → α → Prop}

/-- There is a route through what is done according to the plan, if there is one through each task
that it starts. -/
def Safe (size : Nat) (known : Nat → α → Prop) (plan : Plan α) : Prop :=
  ∀ record perform, Recorded record perform → ∀ machine, machine.store.Closed →
    size ≤ machine.store.scopes.size →
    Arrives size known machine.store ((plan machine).moments record perform)
      (plan.run perform machine)

namespace Safe

theorem step {taken : Eval α} (safe : taken.Safe size known) : (Plan.step taken).Safe size known :=
  fun _ _ _ machine closed enough => safe machine closed enough

theorem pure {value : α} (holds : known size value) :
    (Pure.pure value : Plan α).Safe size known :=
  step (.pure holds)

theorem start (task : Task) (within : task.Within size) :
    (Plan.start task).Safe size task.Yields := by
  intro record perform recorded machine closed enough
  show Arrives size task.Yields machine.store (record task machine ++ []) (perform task machine)
  rw [List.append_nil]
  exact recorded task size machine within closed enough

/-- The number of calls under way is not part of the store. -/
theorem startDeeper (task : Task) (within : task.Within size) :
    (Plan.startDeeper task).Safe size task.Yields := by
  intro record perform recorded machine closed enough
  have arrives :=
    recorded task size { machine with depth := machine.depth + 1 } within closed enough
  show Arrives size task.Yields machine.store
    (record task { machine with depth := machine.depth + 1 } ++ [])
    (Eval.deeper (perform task) machine)
  rw [List.append_nil]
  unfold Eval.deeper
  cases came : perform task { machine with depth := machine.depth + 1 } with
  | ok value last =>
    rw [came] at arrives
    exact arrives
  | error interrupt last =>
    rw [came] at arrives
    exact arrives

theorem bind {knownNext : Nat → β → Prop} {plan : Plan α} {following : α → Plan β}
    (first : plan.Safe size known)
    (rest : ∀ later value, size ≤ later → known later value →
      (following value).Safe later knownNext) :
    (plan >>= following).Safe size knownNext := by
  intro record perform recorded machine closed enough
  have arrives := first record perform recorded machine closed enough
  have moments : ((plan >>= following) machine).moments record perform = _ :=
    Course.moments_andThen record perform (plan machine) following
  rw [moments, run_bind]
  cases came : plan.run perform machine with
  | ok value middle =>
    rw [came] at arrives
    rw [show (plan machine).run perform = .ok value middle from came, EStateM.bind_of_ok came]
    exact arrives.andThen fun bound grown holds present closedMiddle =>
      rest bound value grown holds record perform recorded middle closedMiddle present
  | error interrupt middle =>
    rw [came] at arrives
    rw [show (plan machine).run perform = .error interrupt middle from came,
      EStateM.bind_of_error came, List.append_nil]
    exact arrives

theorem ite {condition : Prop} [Decidable condition] {first second : Plan α}
    (whenTrue : first.Safe size known) (whenFalse : second.Safe size known) :
    (if condition then first else second).Safe size known := by
  split
  · exact whenTrue
  · exact whenFalse

end Safe

end Plan

/-! ### The plans of tasks -/

namespace Task

open Plan

variable {context : Context} {size : Nat}

theorem evalPlan_safe (table : context.procedures.Rooted) (expression : Expr) {scope : ScopeId}
    (present : scope < size) :
    (evalPlan context scope expression).Safe size Value.Within := by
  cases expression with
  | literal value position => exact .pure (.of_closureless (closures_ofLiteral value))
  | identifier name position => exact .step (.readName table present name position)
  | unary op operand position =>
    have plain : (do
        let value ← start (.eval operand scope)
        step (Eval.resultAt position (op.apply value))).Safe size Value.Within := by
      refine .bind (.start (.eval operand scope) present) fun later value _ _ => ?_
      exact .step (.resultAt position fun result applied => .unary applied)
    cases op with
    | update kind yield =>
      cases operand with
      | identifier name namePosition =>
        refine .step (.bind (.readName table present name namePosition) ?_)
        intro later previous _ within
        have applied : ∀ value, (UnaryOp.update kind yield).apply previous = .ok value →
            value.Within later := fun value found => .unary found
        refine .bind (.resultAt position applied) fun last updated grown withinUpdated => ?_
        refine .bind (.assign context scope name position withinUpdated) ?_
        intro final _ grownFinal _
        cases yield with
        | updated => exact .pure (withinUpdated.mono grownFinal)
        | previous => exact .pure (within.mono (Nat.le_trans grown grownFinal))
      | _ => exact .step (.fail _ position)
    | _ => exact plain
  | binary op left right position =>
    refine .bind (.start (.eval left scope) present) fun later one grown withinOne => ?_
    refine .bind (.start (.eval right scope) (Nat.lt_of_lt_of_le present grown)) ?_
    intro last two grownLast withinTwo
    refine .step (.resultAt position fun result applied => ?_)
    exact .binary (withinOne.mono grownLast) withinTwo applied
  | logical op left right position =>
    refine .bind (.start (.evalCondition left scope) present) fun later one grown _ => ?_
    refine .ite (.pure (.of_closureless rfl)) ?_
    refine .bind (.start (.evalCondition right scope) (Nat.lt_of_lt_of_le present grown)) ?_
    exact fun last two _ _ => .pure (.of_closureless rfl)
  | call callee arguments position =>
    exact .start (.evalCall callee arguments position scope) present
  | lambda procedure position => exact .step (.newClosure procedure present)
  | index target index position =>
    refine .bind (.start (.eval target scope) present) fun later container grown within => ?_
    refine .bind (.start (.eval index scope) (Nat.lt_of_lt_of_le present grown)) ?_
    intro last place grownLast _
    refine .ite ?_ (.step (.fail _ position))
    cases place with
    | int number =>
      refine .step (.resultAt position fun result found => ?_)
      exact .of_subset (closures_element found) (within.mono grownLast)
    | _ => exact .step (.fail _ index.position)

theorem applyPlan_safe (arguments : List Expr) (position : Position) {scope : ScopeId}
    {function : Value} (present : scope < size) (within : function.Within size) :
    (applyPlan arguments position scope function).Safe size Value.Within := by
  refine .bind (.start (.evalAll arguments scope) present) fun later values grown all => ?_
  exact .start (.callValue function values position) ⟨within.mono grown, all⟩

theorem callPlan_safe (table : context.procedures.Rooted) (callee : Expr) (arguments : List Expr)
    (position : Position) {scope : ScopeId} (present : scope < size) :
    (callPlan context arguments position scope callee).Safe size Value.Within := by
  cases callee with
  | identifier name namePosition =>
    refine .bind (.step (.lookup? table present name)) fun later found grown within => ?_
    have presentLater := Nat.lt_of_lt_of_le present grown
    cases found with
    | some function => exact applyPlan_safe arguments position presentLater (within function rfl)
    | none =>
      dsimp only
      cases Builtin.ofName? name with
      | none => exact .step (.fail _ namePosition)
      | some builtin =>
        refine .bind (.start (.evalAll arguments scope) presentLater) fun last values _ all => ?_
        exact .step (.callBuiltin builtin position all)
  | _ =>
    refine .bind (.start (.eval _ scope) present) fun later function grown within => ?_
    exact applyPlan_safe arguments position (Nat.lt_of_lt_of_le present grown) within

/-- The body of a function runs inside the scope that the function has captured. -/
theorem closurePlan_safe {closure : Closure} {arguments : List Value} (position : Position)
    (present : closure.scope < size) (within : ∀ value ∈ arguments, value.Within size) :
    (closurePlan context closure arguments position).Safe size Value.Within := by
  rw [closurePlan_eq]
  refine .ite (.step (.fail _ position)) ?_
  refine .bind (.step (.allowCall context)) fun later _ grown _ => ?_
  refine .bind (.step (.newChild (Nat.lt_of_lt_of_le present grown))) ?_
  intro last scope grownLast made
  have pairs : ∀ pair ∈ closure.procedure.parameters.zip arguments, pair.2.Within last :=
    fun pair member => (within pair.2 (List.of_mem_zip member).2).mono
      (Nat.le_trans grown grownLast)
  refine .bind (.step (.defineAll scope pairs)) fun final _ grownFinal _ => ?_
  refine .bind (.startDeeper (.execBlock closure.procedure.body scope)
    (Nat.lt_of_lt_of_le made grownFinal)) ?_
  exact fun _ signal _ withinSignal => .step (.callResult withinSignal)

theorem innerPlan_safe (statements : List Statement) {scope : ScopeId} (present : scope < size) :
    (innerPlan statements scope).Safe size Signal.Within :=
  .bind (.step (.newChild present)) fun _ inner _ made => .start (.execBlock statements inner) made

theorem statementPlan_safe (statement : Statement) {scope : ScopeId} (present : scope < size) :
    (statementPlan context scope statement).Safe size Signal.Within := by
  cases statement with
  | declare name value mutability position =>
    refine .bind (.start (.eval value scope) present) fun later result _ within => ?_
    have bound : Value.Within later (Binding.mk name result mutability).value := within
    exact .bind (.step (.define scope bound)) fun _ _ _ _ => .pure trivial
  | assign name value position =>
    refine .bind (.start (.eval value scope) present) fun later result _ within => ?_
    exact .bind (.step (.assign context scope name position within)) fun _ _ _ _ => .pure trivial
  | leave value position =>
    cases value with
    | none => exact .pure (Value.Holds.of_closureless rfl)
    | some value =>
      exact .bind (.start (.eval value scope) present) fun _ result _ within => .pure within
  | branch condition thenBranch elseBranch position =>
    refine .bind (.start (.evalCondition condition scope) present) fun later holds grown _ => ?_
    have presentLater := Nat.lt_of_lt_of_le present grown
    refine .ite (innerPlan_safe thenBranch presentLater) ?_
    cases elseBranch with
    | none => exact .pure trivial
    | some statements => exact innerPlan_safe statements presentLater
  | loop condition body position => exact .start (.execLoop condition body scope) present
  | block statements position => exact innerPlan_safe statements present
  | loopBody statements position =>
    refine .bind (innerPlan_safe statements present) fun later signal _ within => ?_
    cases signal with
    | continuing place => exact .pure trivial
    | _ => exact .pure within
  | evaluate expression position =>
    exact .bind (.start (.eval expression scope) present) fun _ _ _ _ => .pure trivial
  | breakLoop position => exact .pure trivial
  | continueLoop position => exact .pure trivial

theorem blockPlan_safe (statements : List Statement) {scope : ScopeId} (present : scope < size) :
    (plan context (.execBlock statements scope)).Safe size Signal.Within := by
  cases statements with
  | nil => exact .pure trivial
  | cons statement rest =>
    refine .bind (.step (.scopeFor statement present)) fun later inner _ made => ?_
    refine .bind (.start (.execStatement statement inner) made) fun last signal grown within => ?_
    cases signal with
    | normal => exact .start (.execBlock rest inner) (Nat.lt_of_lt_of_le made grown)
    | _ => exact .step (.pure within)

theorem loopPlan_safe (condition : Expr) (body : List Statement) {scope : ScopeId}
    (present : scope < size) :
    (plan context (.execLoop condition body scope)).Safe size Signal.Within := by
  refine .bind (.start (.evalCondition condition scope) present) fun later holds grown _ => ?_
  have presentLater := Nat.lt_of_lt_of_le present grown
  refine .ite (.bind (innerPlan_safe body presentLater) ?_) (.step (.pure trivial))
  intro last signal grownLast within
  have presentLast := Nat.lt_of_lt_of_le presentLater grownLast
  cases signal with
  | normal => exact .start (.execLoop condition body scope) presentLast
  | continuing position => exact .start (.execLoop condition body scope) presentLast
  | breaking position => exact .step (.pure trivial)
  | returning value => exact .step (.pure within)

/-- One level: a task whose scopes are there starts only such tasks. -/
theorem plan_safe (table : context.procedures.Rooted) (task : Task) (within : task.Within size) :
    (task.plan context).Safe size task.Yields := by
  cases task with
  | eval expression scope => exact evalPlan_safe table expression within
  | evalCondition condition scope =>
    refine .bind (.start (.eval condition scope) within) fun later value _ _ => ?_
    exact .step (.resultAt condition.position fun _ _ => trivial)
  | evalAll expressions scope =>
    cases expressions with
    | nil => exact .pure fun value member => by cases member
    | cons expression rest =>
      refine .bind (.start (.eval expression scope) within) fun later value grown here => ?_
      refine .bind (.start (.evalAll rest scope) (Nat.lt_of_lt_of_le within grown)) ?_
      intro last values grownLast there
      exact .pure (List.forall_mem_cons.mpr ⟨here.mono grownLast, there⟩)
  | evalCall callee arguments position scope =>
    exact callPlan_safe table callee arguments position within
  | callValue function arguments position =>
    cases function with
    | function closure =>
      exact .start (.callClosure closure arguments position)
        ⟨within.1 closure (List.mem_singleton_self closure), within.2⟩
    | _ => exact .step (.fail _ position)
  | callClosure closure arguments position => exact closurePlan_safe position within.1 within.2
  | execBlock statements scope => exact blockPlan_safe statements within
  | execStatement statement scope => exact statementPlan_safe statement within
  | execLoop condition body scope => exact loopPlan_safe condition body within

/-! ### Timelines -/

/-- The start and the end of a task, around the moments in between. -/
theorem arrives_around {task : Task} {machine : Machine} {moments : List Moment}
    {outcome : Outcome task.Answer} (within : task.Within size) (closed : machine.store.Closed)
    (enough : size ≤ machine.store.scopes.size)
    (arrives : Arrives size task.Yields machine.store moments outcome) :
    Arrives size task.Yields machine.store
      (⟨.started, task, machine⟩ :: (moments ++ [.ofOutcome task outcome])) outcome := by
  have around : ∀ phase last, Route machine.store moments last.store →
      Route machine.store (⟨.started, task, machine⟩ :: (moments ++ [⟨phase, task, last⟩]))
        last.store := by
    intro phase last route
    have present := Nat.le_trans enough route.leads.size_le
    refine ⟨.refl closed, within.mono enough, route.append ?_⟩
    exact ⟨.refl route.leads.closed, within.mono present, .refl route.leads.closed⟩
  cases outcome with
  | ok value last => exact ⟨around .returned last arrives.1, arrives.2⟩
  | error interrupt last => exact around .interrupted last arrives

/-- With every budget there is a route through the timeline of a task. -/
theorem timeline_recorded (table : context.procedures.Rooted) (budget : Nat) :
    Recorded (Task.timeline context budget) (Task.perform context budget) := by
  induction budget with
  | zero =>
    intro task size machine within closed enough
    rw [Task.timeline, perform_zero]
    have stopped : Arrives size task.Yields machine.store [] (.error .exhausted machine) :=
      Store.Leads.refl closed
    exact arrives_around within closed enough stopped
  | succ budget recorded =>
    intro task size machine within closed enough
    rw [Task.timeline, ← plan_run]
    exact arrives_around within closed enough
      (plan_safe table task within _ _ recorded machine closed enough)

end Task

end Scriptlet
