/-
This file proves that a binding, once made, stays. Whatever a run does and however
it ends, a scope keeps its parent and every name it binds, a name keeps its
mutability, and a constant keeps its value. Only running statements in a scope adds
names to it, and only those that the statements declare themselves: every other
declaration of the run lands in a scope that was made on the way.

A declaration writes over a binding of the same name, so this rests on the block: it
declares in a scope only what the scope does not bind yet, and evaluating the value
of the declaration in between adds no name to that scope.
-/

import Scriptlet.Proofs.Course
import Scriptlet.Proofs.Effect
import Scriptlet.Proofs.Kept

namespace Scriptlet

/-! ### Effects of the primitive steps -/

/-- The store is kept, with names gained only as allowed. -/
def Effect.keeping (gains : ScopeId → String → Prop) : Effect where
  allows before after := before.store.Kept gains after.store
  refl machine := .refl machine.store
  trans := .trans

namespace Eval

variable {α : Type} {gains : ScopeId → String → Prop}

theorem Has.of_store {step : Eval α}
    (same : ∀ machine, (step.after machine).store = machine.store) : step.Has (.keeping gains) := by
  intro machine
  show machine.store.Kept gains (step.after machine).store
  rw [same machine]
  exact .refl machine.store

theorem Has.newClosure (procedure : Procedure) (scope : ScopeId) :
    (newClosure procedure scope).Has (.keeping gains) :=
  .of_store fun _ => rfl

theorem Has.callBuiltin (builtin : Builtin) (arguments : List Value) (position : Position) :
    (callBuiltin builtin arguments position).Has (.keeping gains) := by
  refine .of_store fun machine => ?_
  rw [after, callBuiltin_apply]
  cases builtin.run arguments machine.sink with
  | ok value sink => rfl
  | error fault sink => rfl

theorem Has.assign (context : Context) (scope : ScopeId) (name : String) (value : Value)
    (position : Position) : (assign context scope name value position).Has (.keeping gains) := by
  intro machine
  show machine.store.Kept gains _
  rw [after, assign_apply]
  cases reached : machine.store.target scope name with
  | ok found => exact .write reached value
  | error fault => exact .refl machine.store

/-- Counting a call is no change of the store. -/
theorem store_deeper (step : Eval α) (machine : Machine) :
    (step.deeper.after machine).store =
      (step.after { machine with depth := machine.depth + 1 }).store := by
  unfold after Eval.deeper
  cases step { machine with depth := machine.depth + 1 } with
  | ok value middle => rfl
  | error interrupt middle => rfl

theorem Has.deeper {step : Eval α} (kept : step.Has (.keeping gains)) :
    step.deeper.Has (.keeping gains) := by
  intro machine
  show machine.store.Kept gains _
  rw [store_deeper]
  exact kept { machine with depth := machine.depth + 1 }

/-- What runs in a fresh scope and declares names there alone adds none to the scopes that were
there before. -/
theorem Has.inNewChild {parent : ScopeId} {next : ScopeId → Eval α} {names : List String}
    (kept : ∀ scope, (next scope).Has (.keeping (namesIn scope names))) :
    (Eval.newChild parent >>= next).Has (.keeping gains) := by
  intro machine
  show machine.store.Kept gains _
  rw [after, EStateM.bind_of_ok (newChild_apply parent machine)]
  have inner := kept machine.store.scopes.size
    { machine with store := (machine.store.newChild parent).2 }
  exact ((Store.Kept.newChild machine.store parent).trans inner).outside (Nat.le_refl _)

/-- Parameters are bound in a scope that was not there before. -/
theorem defineAll_fresh {first : Store} {scope : ScopeId} (fresh : first.scopes.size ≤ scope)
    (pairs : List (String × Value)) (machine : Machine) (kept : first.Kept gains machine.store) :
    ∃ store, defineAll scope pairs machine = .ok () { machine with store } ∧
      store.scopes.size = machine.store.scopes.size ∧ first.Kept gains store := by
  induction pairs generalizing machine with
  | nil => exact ⟨machine.store, rfl, rfl, kept⟩
  | cons pair rest inductionHypothesis =>
    obtain ⟨store, defined, sameSize, keptStore⟩ := inductionHypothesis
      { machine with store := machine.store.define scope ⟨pair.1, pair.2, .constant⟩ }
      (kept.defineFresh fresh _)
    refine ⟨store, ?_, sameSize.trans (Store.size_define machine.store scope _), keptStore⟩
    rw [defineAll, EStateM.bind_of_ok (define_apply scope _ machine)]
    exact defined

/-- The scope of a statement in a block: the block's own, which does not bind the name that the
statement declares, or a fresh one. -/
theorem scopeFor_cases (statement : Statement) (scope : ScopeId) (machine : Machine) :
    (scopeFor statement scope machine = .ok scope machine ∧
      ∀ name, statement.declaredName? = some name → machine.store.binds scope name = false) ∨
    scopeFor statement scope machine = .ok machine.store.scopes.size
      { machine with store := (machine.store.newChild scope).2 } := by
  unfold scopeFor
  cases declared : statement.declaredName? with
  | none => exact Or.inl ⟨rfl, fun name impossible => by cases impossible⟩
  | some name =>
    dsimp only
    rw [scopeForDeclaration, EStateM.bind_of_ok (EStateM.get_apply machine)]
    cases bound : machine.store.binds scope name with
    | true => exact Or.inr (by rw [if_pos rfl, newChild_apply])
    | false =>
      refine Or.inl ⟨by rw [if_neg Bool.false_ne_true, EStateM.pure_apply], fun other same => ?_⟩
      injection same with equal
      rw [← equal]
      exact bound

end Eval

/-! ### Plans -/

/-- The names that a task may add to scopes that are there: statements may add to their scope those
that they declare themselves. -/
def Task.gains : Task → ScopeId → String → Prop
  | .execBlock statements scope => namesIn scope (declaredNames statements)
  | .execStatement statement scope => namesIn scope (declaredNames [statement])
  | _ => noNames

/-- A declaration must not find its name in its scope. -/
def Task.Fresh : Task → Store → Prop
  | .execStatement statement scope, store =>
    ∀ name, statement.declaredName? = some name → store.binds scope name = false
  | _, _ => True

/-- Every task keeps all bindings, and adds at most the names that it may add. -/
def KeepsBindings (perform : (task : Task) → Eval task.Answer) : Prop :=
  ∀ (task : Task) (machine : Machine), task.Fresh machine.store →
    machine.store.Kept task.gains ((perform task).after machine).store

namespace Plan

variable {α β : Type} {gains : ScopeId → String → Prop}

/-- Carrying out the plan keeps all bindings and gains names only as allowed, if the tasks it starts
keep theirs. -/
def Retains (gains : ScopeId → String → Prop) (plan : Plan α) : Prop :=
  ∀ perform, KeepsBindings perform → (plan.run perform).Has (.keeping gains)

namespace Retains

theorem step {taken : Eval α} (has : taken.Has (.keeping gains)) :
    (Plan.step taken).Retains gains :=
  fun _ _ => has

theorem pure (value : α) : (Pure.pure value : Plan α).Retains gains :=
  step (.pure value)

theorem start (task : Task) (anywhere : ∀ store, task.Fresh store) :
    (Plan.start task).Retains task.gains :=
  fun _ keeps machine => keeps task machine (anywhere machine.store)

/-- What a task does in a call counts as much as outside of it. -/
theorem startDeeper (task : Task) (anywhere : ∀ store, task.Fresh store) :
    (Plan.startDeeper task).Retains task.gains :=
  fun perform keeps => Eval.Has.deeper (start task anywhere perform keeps)

theorem bind {plan : Plan α} {following : α → Plan β} (first : plan.Retains gains)
    (rest : ∀ value, (following value).Retains gains) : (plan >>= following).Retains gains := by
  intro perform keeps
  rw [run_bind]
  exact .bind (first perform keeps) fun value => rest value perform keeps

theorem ite {condition : Prop} [Decidable condition] {first second : Plan α}
    (whenTrue : first.Retains gains) (whenFalse : second.Retains gains) :
    (if condition then first else second).Retains gains := by
  split
  · exact whenTrue
  · exact whenFalse

end Retains

end Plan

/-! ### The plans of tasks -/

namespace Task

open Plan

variable {context : Context}

theorem evalPlan_retains (expression : Expr) (scope : ScopeId) :
    (evalPlan context scope expression).Retains noNames := by
  cases expression with
  | literal value position => exact .pure _
  | identifier name position => exact .step (.readName context scope name position)
  | unary op operand position =>
    have plain : (do
        let value ← start (.eval operand scope)
        step (Eval.resultAt position (op.apply value))).Retains noNames :=
      .bind (.start (.eval operand scope) fun _ => trivial) fun value =>
        .step (.resultAt position _)
    cases op with
    | update kind yield =>
      cases operand with
      | identifier name namePosition =>
        refine .step (.bind (.readName context scope name namePosition) fun previous => ?_)
        refine .bind (.resultAt position _) fun updated => ?_
        refine .bind (.assign context scope name updated position) fun _ => ?_
        cases yield with
        | _ => exact .pure _
      | _ => exact .step (.fail _ position)
    | _ => exact plain
  | binary op left right position =>
    refine .bind (.start (.eval left scope) fun _ => trivial) fun first => ?_
    refine .bind (.start (.eval right scope) fun _ => trivial) fun second => ?_
    exact .step (.resultAt position _)
  | logical op left right position =>
    refine .bind (.start (.evalCondition left scope) fun _ => trivial) fun first =>
      .ite (.pure _) ?_
    exact .bind (.start (.evalCondition right scope) fun _ => trivial) fun second => .pure _
  | call callee arguments position =>
    exact .start (.evalCall callee arguments position scope) fun _ => trivial
  | lambda procedure position => exact .step (.newClosure procedure scope)
  | index target index position =>
    refine .bind (.start (.eval target scope) fun _ => trivial) fun container => ?_
    refine .bind (.start (.eval index scope) fun _ => trivial) fun place =>
      .ite ?_ (.step (.fail _ position))
    cases place with
    | int number => exact .step (.resultAt position _)
    | _ => exact .step (.fail _ _)

theorem applyPlan_retains (arguments : List Expr) (position : Position) (scope : ScopeId)
    (function : Value) : (applyPlan arguments position scope function).Retains noNames :=
  .bind (.start (.evalAll arguments scope) fun _ => trivial) fun values =>
    .start (.callValue function values position) fun _ => trivial

theorem callPlan_retains (callee : Expr) (arguments : List Expr) (position : Position)
    (scope : ScopeId) : (callPlan context arguments position scope callee).Retains noNames := by
  cases callee with
  | identifier name namePosition =>
    refine .bind (.step (.lookup? context scope name)) fun found => ?_
    cases found with
    | some function => exact applyPlan_retains arguments position scope function
    | none =>
      dsimp only
      cases Builtin.ofName? name with
      | none => exact .step (.fail _ namePosition)
      | some builtin =>
        exact .bind (.start (.evalAll arguments scope) fun _ => trivial) fun values =>
          .step (.callBuiltin builtin values position)
  | _ =>
    exact .bind (.start (.eval _ scope) fun _ => trivial) fun function =>
      applyPlan_retains arguments position scope function

/-- The body of a function runs in a scope of its own, which holds the parameters as well. -/
theorem closurePlan_retains (closure : Closure) (arguments : List Value) (position : Position) :
    (closurePlan context closure arguments position).Retains noNames := by
  rw [closurePlan]
  refine .ite (.step (.fail _ position)) (.bind (.step .get) fun seen => ?_)
  refine .ite (.step (.failNowhere _)) ?_
  intro perform keeps machine
  show machine.store.Kept noNames _
  obtain ⟨store, bound, _, keptBound⟩ := Eval.defineAll_fresh
    (Nat.le_refl machine.store.scopes.size) (closure.procedure.parameters.zip arguments)
    { machine with store := (machine.store.newChild closure.scope).2 }
    (Store.Kept.newChild machine.store closure.scope)
  simp only [run_bind, run_step]
  rw [Eval.after, EStateM.bind_of_ok (Eval.newChild_apply closure.scope machine),
    EStateM.bind_of_ok bound]
  have body : (do
      let signal ← startDeeper (.execBlock closure.procedure.body machine.store.scopes.size)
      step (Eval.callResult signal)).Retains
        (namesIn machine.store.scopes.size (declaredNames closure.procedure.body)) :=
    .bind (.startDeeper (.execBlock _ _) fun _ => trivial) fun signal =>
      .step (.callResult signal)
  have ran := body perform keeps { machine with store }
  rw [run_bind] at ran
  exact (keptBound.trans ran).outside (Nat.le_refl _)

theorem innerPlan_retains (statements : List Statement) (scope : ScopeId) :
    (innerPlan statements scope).Retains noNames := by
  intro perform keeps
  rw [innerPlan, run_bind]
  exact .inNewChild fun inner =>
    Retains.start (.execBlock statements inner) (fun _ => trivial) perform keeps

/-- Statements that declare nothing themselves; what they hold declares in scopes of its own. -/
theorem statementPlan_retains (statement : Statement) (scope : ScopeId)
    (plain : statement.declaredName? = none) :
    (statementPlan context scope statement).Retains noNames := by
  cases statement with
  | declare name value mutability position => cases plain
  | assign name value position =>
    refine .bind (.start (.eval value scope) fun _ => trivial) fun result => ?_
    exact .bind (.step (.assign context scope name result position)) fun _ => .pure _
  | leave value position =>
    cases value with
    | none => exact .pure _
    | some value =>
      exact .bind (.start (.eval value scope) fun _ => trivial) fun result => .pure _
  | branch condition thenBranch elseBranch position =>
    refine .bind (.start (.evalCondition condition scope) fun _ => trivial) fun holds =>
      .ite (innerPlan_retains thenBranch scope) ?_
    cases elseBranch with
    | none => exact .pure _
    | some statements => exact innerPlan_retains statements scope
  | loop condition body position =>
    exact .start (.execLoop condition body scope) fun _ => trivial
  | block statements position => exact innerPlan_retains statements scope
  | loopBody statements position =>
    refine .bind (innerPlan_retains statements scope) fun signal => ?_
    cases signal with
    | _ => exact .pure _
  | evaluate expression position =>
    exact .bind (.start (.eval expression scope) fun _ => trivial) fun _ => .pure _
  | breakLoop position => exact .pure _
  | continueLoop position => exact .pure _

section

variable {perform : (task : Task) → Eval task.Answer} (keeps : KeepsBindings perform)

include keeps

/-- A declaration of a name that its scope does not bind. Evaluating the value adds no name to the
scope, so the name is not bound there afterwards, either. -/
theorem declarePlan_retains (name : String) (value : Expr) (mutability : Mutability)
    (position : Position) (scope : ScopeId) (machine : Machine)
    (free : machine.store.binds scope name = false) :
    machine.store.Kept (namesIn scope [name])
      (((statementPlan context scope (.declare name value mutability position)).run
        perform).after machine).store := by
  have evaluated : machine.store.Kept noNames _ := keeps (.eval value scope) machine trivial
  rw [statementPlan, run_bind, run_start]
  cases result : perform (.eval value scope) machine with
  | ok found middle =>
    rw [Eval.after_of_ok result] at evaluated
    rw [Eval.after, EStateM.bind_of_ok result, run_bind, run_step,
      EStateM.bind_of_ok (Eval.define_apply scope _ middle)]
    exact evaluated.define ⟨name, found, mutability⟩ free
  | error interrupt middle =>
    rw [Eval.after_of_error result] at evaluated
    rw [Eval.after_of_error (EStateM.bind_of_error result)]
    exact evaluated.anyNames

/-- A statement adds the name it declares to its scope, if it declares one. -/
theorem statementPlan_gains (statement : Statement) (scope : ScopeId) (machine : Machine)
    (fresh : (Task.execStatement statement scope).Fresh machine.store) :
    machine.store.Kept (namesIn scope (declaredNames [statement]))
      (((statementPlan context scope statement).run perform).after machine).store := by
  cases declared : statement.declaredName? with
  | none =>
    refine Store.Kept.anyNames ?_
    exact statementPlan_retains statement scope declared perform keeps machine
  | some name =>
    cases statement with
    | declare other value mutability position =>
      exact declarePlan_retains keeps other value mutability position scope machine
        (fresh other rfl)
    | _ => cases declared

/-- A statement and the rest of its block, in the same scope. -/
theorem restPlan_retains (statement : Statement) (rest : List Statement) (scope : ScopeId)
    (machine : Machine) (fresh : (Task.execStatement statement scope).Fresh machine.store) :
    machine.store.Kept (namesIn scope (declaredNames (statement :: rest)))
      (Eval.after (Plan.run perform (do
        match ← start (.execStatement statement scope) with
        | .normal => start (.execBlock rest scope)
        | signal => step (pure signal))) machine).store := by
  have here : machine.store.Kept (namesIn scope (declaredNames [statement])) _ :=
    keeps (.execStatement statement scope) machine fresh
  rw [run_bind]
  refine Eval.allows_bind (.keeping (namesIn scope (declaredNames (statement :: rest))))
    (here.restrict fun target name _ allowed => ⟨allowed.1, ?_⟩) fun signal middle _ => ?_
  · exact (List.Sublist.filterMap _ (List.Sublist.cons_cons statement rest.nil_sublist)).subset
      allowed.2
  · cases signal with
    | normal =>
      have there : middle.store.Kept (namesIn scope (declaredNames rest)) _ :=
        keeps (.execBlock rest scope) middle trivial
      refine there.restrict fun target name _ allowed => ⟨allowed.1, ?_⟩
      exact (List.Sublist.filterMap _ (List.sublist_cons_self statement rest)).subset allowed.2
    | _ => exact .refl middle.store

end

theorem blockPlan_retains (statements : List Statement) (scope : ScopeId) :
    (plan context (.execBlock statements scope)).Retains
      (namesIn scope (declaredNames statements)) := by
  cases statements with
  | nil => exact .pure _
  | cons statement rest =>
    intro perform keeps machine
    show machine.store.Kept _ _
    rw [plan, run_bind, run_step]
    rcases Eval.scopeFor_cases statement scope machine with ⟨same, free⟩ | opened
    · rw [Eval.after, EStateM.bind_of_ok same]
      exact restPlan_retains keeps statement rest scope machine free
    · rw [Eval.after, EStateM.bind_of_ok opened]
      have inner := restPlan_retains keeps statement rest machine.store.scopes.size
        { machine with store := (machine.store.newChild scope).2 }
        fun name _ => Store.binds_newChild_self machine.store scope name
      exact ((Store.Kept.newChild machine.store scope).trans inner).outside (Nat.le_refl _)

theorem loopPlan_retains (condition : Expr) (body : List Statement) (scope : ScopeId) :
    (plan context (.execLoop condition body scope)).Retains noNames := by
  refine .bind (.start (.evalCondition condition scope) fun _ => trivial) fun holds =>
    .ite (.bind (innerPlan_retains body scope) fun signal => ?_) (.step (.pure _))
  cases signal with
  | normal => exact .start (.execLoop condition body scope) fun _ => trivial
  | continuing position => exact .start (.execLoop condition body scope) fun _ => trivial
  | breaking position => exact .step (.pure _)
  | returning value => exact .step (.pure _)

/-- One level: a task keeps all bindings if the tasks it starts do. -/
theorem plan_retains {perform : (task : Task) → Eval task.Answer} (keeps : KeepsBindings perform)
    (task : Task) (machine : Machine) (fresh : task.Fresh machine.store) :
    machine.store.Kept task.gains (((task.plan context).run perform).after machine).store := by
  cases task with
  | eval expression scope => exact evalPlan_retains expression scope perform keeps machine
  | evalCondition condition scope =>
    have retains : (plan context (.evalCondition condition scope)).Retains noNames :=
      .bind (.start (.eval condition scope) fun _ => trivial) fun value =>
        .step (.resultAt condition.position _)
    exact retains perform keeps machine
  | evalAll expressions scope =>
    cases expressions with
    | nil => exact .refl machine.store
    | cons expression rest =>
      have retains : (plan context (.evalAll (expression :: rest) scope)).Retains noNames :=
        .bind (.start (.eval expression scope) fun _ => trivial) fun value =>
          .bind (.start (.evalAll rest scope) fun _ => trivial) fun values => .pure _
      exact retains perform keeps machine
  | evalCall callee arguments position scope =>
    exact callPlan_retains callee arguments position scope perform keeps machine
  | callValue function arguments position =>
    cases function with
    | function closure => exact keeps (.callClosure closure arguments position) machine trivial
    | _ => exact .refl machine.store
  | callClosure closure arguments position =>
    exact closurePlan_retains closure arguments position perform keeps machine
  | execBlock statements scope => exact blockPlan_retains statements scope perform keeps machine
  | execStatement statement scope =>
    exact statementPlan_gains keeps statement scope machine fresh
  | execLoop condition body scope =>
    exact loopPlan_retains condition body scope perform keeps machine

/-- With every budget, tasks keep all bindings. -/
theorem keepsBindings (context : Context) (budget : Nat) :
    KeepsBindings (Task.perform context budget) := by
  induction budget with
  | zero =>
    intro task machine _
    rw [Eval.after_of_error (perform_zero context task machine)]
    exact .refl machine.store
  | succ budget keeps =>
    intro task machine fresh
    rw [← plan_run]
    exact plan_retains keeps task machine fresh

end Task

/-! ### Bindings stay -/

/-- From every machine, however the evaluation ends: an expression and a call leave every scope
that was there with its parent and exactly its names, each with its mutability, and constants
with their values. Statements run in a scope add to this scope the names they declare
themselves, at most, and to no other scope anything. -/
theorem bindings_stay (context : Context) (budget : Nat) (machine : Machine) :
    (∀ expression scope, machine.store.Kept noNames
      ((Eval.eval context budget expression scope).after machine).store) ∧
    (∀ closure arguments position, machine.store.Kept noNames
      ((Eval.callClosure context budget closure arguments position).after machine).store) ∧
    (∀ function arguments position, machine.store.Kept noNames
      ((Eval.callValue context budget function arguments position).after machine).store) ∧
    (∀ statements scope, machine.store.Kept (namesIn scope (declaredNames statements))
      ((Eval.execBlock context budget statements scope).after machine).store) := by
  have keeps := Task.keepsBindings context budget
  refine ⟨fun expression scope => ?_, fun closure arguments position => ?_,
    fun function arguments position => ?_, fun statements scope => ?_⟩
  · exact keeps (.eval expression scope) machine trivial
  · exact keeps (.callClosure closure arguments position) machine trivial
  · exact keeps (.callValue function arguments position) machine trivial
  · exact keeps (.execBlock statements scope) machine trivial

end Scriptlet
