/-
This file compares a run with one in which function values have other identities. An
exchange gives function values that were made early new identities, no two the same, and
leaves alone those that are made later. Nothing else of a machine is changed: the scopes
are where they were and hold the same names, the same bytes have been written, and as many
calls are under way.

From the exchanged machine a step comes to the exchanged outcome. This is said as an
equation of outcomes, so it holds of interrupted steps and of failing output as well.
-/

import Scriptlet.Proofs.EntryCall
import Scriptlet.Proofs.Relabeling

namespace Scriptlet

/-- New identities for function values, of which all from a number on are left alone. -/
structure Exchange where
  identity : Nat → Nat
  limit : Nat
  injective : Function.Injective identity
  later : ∀ made, limit ≤ made → identity made = made

namespace Exchange

variable (exchange : Exchange)

/-- A function value with its new identity. -/
def closure (found : Closure) : Closure :=
  { found with identity := exchange.identity found.identity }

/-- An exchange changes nothing that programs can see. -/
def relabeling : Relabeling where
  closure := exchange.closure
  name _ := rfl
  identity first second := by
    show (exchange.identity first.identity == exchange.identity second.identity) = _
    rw [Bool.eq_iff_iff, beq_iff_eq, beq_iff_eq]
    exact exchange.injective.eq_iff

/-- A value whose functions have their new identities. -/
def value : Value → Value :=
  exchange.relabeling.value

/-- A signal with its value exchanged. -/
def signal : Signal → Signal
  | .returning value => .returning (exchange.value value)
  | other => other

/-- A scope with its values exchanged. -/
def contents : Scope → Scope :=
  Scope.onValues id exchange.value

/-- A store with its values exchanged. -/
def store (store : Store) : Store :=
  ⟨store.scopes.map exchange.contents⟩

/-- A machine with the values of its variables exchanged. -/
def machine (machine : Machine) : Machine :=
  { machine with store := exchange.store machine.store }

/-- An outcome with its machine exchanged, given how the values correspond. -/
def outcome {α β : Type} (change : α → β) : Outcome α → Outcome β
  | .ok value machine => .ok (change value) (exchange.machine machine)
  | .error interrupt machine => .error interrupt (exchange.machine machine)

/-- Under the second context names stand for the exchanged procedures. -/
structure Matches (context other : Context) : Prop where
  procedures : ∀ name, other.procedures.find? name =
    (context.procedures.find? name).map exchange.closure
  maxDepth : other.maxDepth = context.maxDepth

/-! ### Variables -/

/-- The exchanged store has a scope where the store has one, with its values exchanged. -/
theorem getElem?_store (store : Store) (scope : ScopeId) :
    (exchange.store store).scopes[scope]? = store.scopes[scope]?.map exchange.contents :=
  Array.getElem?_map

/-- A scope is added at the same place, and around it stands the same scope. -/
theorem newChild_store (store : Store) (parent : ScopeId) :
    (exchange.store store).newChild parent =
      (store.scopes.size, exchange.store (store.newChild parent).2) := by
  unfold Store.newChild Exchange.store
  rw [Array.size_map, Array.map_push]
  rfl

/-- Changes of a scope that do the same up to the exchange. -/
theorem modify_store (store : Store) (scope : ScopeId) {change other : Scope → Scope}
    (same : ∀ found, other (exchange.contents found) = exchange.contents (change found)) :
    (⟨(exchange.store store).scopes.modify scope other⟩ : Store) =
      exchange.store ⟨store.scopes.modify scope change⟩ := by
  refine congrArg Store.mk (Array.ext_getElem? fun place => ?_)
  rw [Array.getElem?_modify, getElem?_store, Array.getElem?_map, Array.getElem?_modify]
  split
  · cases store.scopes[place]? with
    | none => rfl
    | some found => exact congrArg some (same found)
  · rfl

/-- Declaring an exchanged value and exchanging the store behind a declaration are the same. -/
theorem define_store (store : Store) (scope : ScopeId) (binding : Binding) :
    (exchange.store store).define scope (binding.onValue exchange.value) =
      exchange.store (store.define scope binding) :=
  exchange.modify_store store scope fun found => found.define_onValues _ _ binding

theorem write_store (store : Store) (scope : ScopeId) (name : String) (value : Value) :
    (exchange.store store).write scope name (exchange.value value) =
      exchange.store (store.write scope name value) :=
  exchange.modify_store store scope fun found => found.write_onValues _ _ name value

theorem binds_store (store : Store) (scope : ScopeId) (name : String) :
    (exchange.store store).binds scope name = store.binds scope name := by
  rw [Store.binds, Store.binds, getElem?_store]
  cases store.scopes[scope]? with
  | none => rfl
  | some found => exact found.binds_onValues _ _ name

/-- A name is found in the same scope, in as many steps, and only its value is exchanged: the walk
goes by names and by parents, and an exchange touches neither. -/
theorem locateWithin_store (store : Store) (name : String) (steps : Nat) (scope : ScopeId) :
    (exchange.store store).locateWithin name steps scope =
      (store.locateWithin name steps scope).map fun found =>
        ⟨found.scope, found.binding.onValue exchange.value⟩ := by
  induction steps generalizing scope with
  | zero => rfl
  | succ steps inductionHypothesis =>
    rw [Store.locateWithin, Store.locateWithin, getElem?_store]
    cases store.scopes[scope]? with
    | none => rfl
    | some found =>
      have names : (exchange.contents found).find? name =
          (found.find? name).map (Binding.onValue exchange.value) :=
        found.find?_onValues _ _ name
      have outer : (exchange.contents found).parent = found.parent := Option.map_id_apply
      simp only [Option.map_some, names, outer]
      cases found.find? name with
      | some binding => rfl
      | none =>
        cases found.parent with
        | none => rfl
        | some parent => exact inductionHypothesis parent

/-- A name stands for the exchanged value of what it stood for. -/
theorem get?_store (store : Store) (scope : ScopeId) (name : String) :
    (exchange.store store).get? scope name = (store.get? scope name).map exchange.value := by
  rw [Store.get?, Store.get?, Store.locate?, Store.locate?, locateWithin_store]
  cases store.locateWithin name (scope + 1) scope with
  | none => rfl
  | some found => rfl

/-- Assignments reach the same scope, or fail in the same way, as whether a binding is constant does
not depend on its value. -/
theorem target_store (store : Store) (scope : ScopeId) (name : String) :
    (exchange.store store).target scope name = store.target scope name := by
  rw [Store.target, Store.target, Store.locate?, Store.locate?, locateWithin_store]
  cases store.locateWithin name (scope + 1) scope with
  | none => rfl
  | some found => rfl

end Exchange

/-! ### Steps -/

namespace Eval

variable {α β γ δ : Type} {exchange : Exchange} {context other : Context}

/-- From an exchanged machine the second step comes to what the first comes to, exchanged, and
function values are still counted from where identities are left alone. -/
def Exchanged (exchange : Exchange) (change : α → β) (step : Eval α) (other : Eval β) : Prop :=
  ∀ machine, exchange.limit ≤ machine.closures →
    other (exchange.machine machine) = exchange.outcome change (step machine) ∧
    exchange.limit ≤ (step.after machine).closures

namespace Exchanged

theorem pure {change : α → β} {value : α} {result : β} (same : change value = result) :
    (pure value : Eval α).Exchanged exchange change (pure result) := by
  rw [← same]
  exact fun machine enough => ⟨rfl, enough⟩

/-- Sequences are exchanged if their parts are; that identities are counted from the limit on is
known again before the second part. -/
theorem bind {change : α → β} {changeNext : γ → δ} {step : Eval α} {second : Eval β}
    {next : α → Eval γ} {following : β → Eval δ} (first : step.Exchanged exchange change second)
    (rest : ∀ value, (next value).Exchanged exchange changeNext (following (change value))) :
    (step >>= next).Exchanged exchange changeNext (second >>= following) := by
  intro machine enough
  obtain ⟨same, still⟩ := first machine enough
  cases came : step machine with
  | ok value middle =>
    rw [came] at same
    rw [after_of_ok came] at still
    rw [after, EStateM.bind_of_ok came, EStateM.bind_of_ok same]
    exact rest value middle still
  | error interrupt middle =>
    rw [came] at same
    rw [after_of_error came] at still
    rw [after, EStateM.bind_of_error came, EStateM.bind_of_error same]
    exact ⟨rfl, still⟩

theorem fail {change : α → β} (fault : RuntimeFault) (position : Position) :
    (fail fault position : Eval α).Exchanged exchange change (fail fault position) :=
  fun _ enough => ⟨rfl, enough⟩

theorem resultAt {change : α → β} (position : Position) {result : Except RuntimeFault α}
    {second : Except RuntimeFault β} (same : second = result.map change) :
    (resultAt position result).Exchanged exchange change (resultAt position second) := by
  rw [same]
  cases result with
  | ok value => exact pure rfl
  | error fault => exact fail fault position

theorem callResult (signal : Signal) :
    (callResult signal).Exchanged exchange exchange.value
      (callResult (exchange.signal signal)) := by
  cases signal with
  | normal => exact pure rfl
  | returning value => exact pure rfl
  | breaking position => exact fail _ position
  | continuing position => exact fail _ position

/-- What a name stands for is exchanged, be it a variable or a procedure. -/
theorem lookup? (matching : exchange.Matches context other) (scope : ScopeId) (name : String) :
    (lookup? context scope name).Exchanged exchange (Option.map exchange.value)
      (lookup? other scope name) := by
  intro machine enough
  have seen : (exchange.machine machine).store.get? scope name =
      (machine.store.get? scope name).map exchange.value :=
    exchange.get?_store machine.store scope name
  rw [after, Eval.lookup?, Eval.lookup?, EStateM.bind_of_ok (EStateM.get_apply machine),
    EStateM.bind_of_ok (EStateM.get_apply _), seen, matching.procedures]
  cases machine.store.get? scope name with
  | some value => exact ⟨rfl, enough⟩
  | none =>
    refine ⟨?_, enough⟩
    cases context.procedures.find? name with
    | none => rfl
    | some closure => rfl

theorem readName (matching : exchange.Matches context other) (scope : ScopeId) (name : String)
    (position : Position) :
    (readName context scope name position).Exchanged exchange exchange.value
      (readName other scope name position) := by
  refine bind (lookup? matching scope name) fun found => ?_
  cases found with
  | some value => exact pure rfl
  | none => exact fail _ position

theorem newChild (parent : ScopeId) :
    (newChild parent).Exchanged exchange id (newChild parent) := by
  intro machine enough
  refine ⟨?_, enough⟩
  have made := exchange.newChild_store machine.store parent
  rw [newChild_apply, newChild_apply]
  show EStateM.Result.ok ((exchange.store machine.store).newChild parent).1
    { exchange.machine machine with
      store := ((exchange.store machine.store).newChild parent).2 } = _
  rw [made]
  rfl

theorem define (scope : ScopeId) (binding : Binding) :
    (define scope binding).Exchanged exchange id
      (define scope (binding.onValue exchange.value)) := by
  intro machine enough
  refine ⟨?_, enough⟩
  have defined := exchange.define_store machine.store scope binding
  show EStateM.Result.ok () { exchange.machine machine with
    store := (exchange.store machine.store).define scope (binding.onValue exchange.value) } = _
  rw [defined]
  rfl

/-- Arguments are bound one by one, each exchanged. -/
theorem defineAll (scope : ScopeId) (pairs : List (String × Value)) :
    (defineAll scope pairs).Exchanged exchange id
      (defineAll scope (pairs.map (Prod.map id exchange.value))) := by
  induction pairs with
  | nil => exact pure rfl
  | cons pair rest inductionHypothesis =>
    exact bind (define scope ⟨pair.1, pair.2, .constant⟩) fun _ => inductionHypothesis

/-- A declaration gets a scope of its own in both runs or in none, as both stores hold the same
names. -/
theorem scopeFor (statement : Statement) (scope : ScopeId) :
    (scopeFor statement scope).Exchanged exchange id (scopeFor statement scope) := by
  unfold Eval.scopeFor
  cases statement.declaredName? with
  | none => exact pure rfl
  | some name =>
    intro machine enough
    have bound := exchange.binds_store machine.store scope name
    show (if (exchange.store machine.store).binds scope name then Eval.newChild scope
          else Pure.pure scope) (exchange.machine machine) = exchange.outcome id
        ((if machine.store.binds scope name then Eval.newChild scope else Pure.pure scope)
          machine) ∧
      exchange.limit ≤ (after (if machine.store.binds scope name then Eval.newChild scope
        else Pure.pure scope) machine).closures
    rw [bound]
    split
    · exact newChild scope machine enough
    · exact ⟨rfl, enough⟩

/-- The fault of an assignment tells whether the name is that of a procedure, and both tables agree
on that. -/
theorem assignFault (matching : exchange.Matches context other) (name : String)
    (fault : AssignFault) : assignFault other name fault = assignFault context name fault := by
  cases fault with
  | constant => rfl
  | undefined =>
    rw [Eval.assignFault, Eval.assignFault, matching.procedures]
    cases context.procedures.find? name with
    | none => rfl
    | some closure => rfl

theorem assign (matching : exchange.Matches context other) (scope : ScopeId) (name : String)
    (value : Value) (position : Position) :
    (assign context scope name value position).Exchanged exchange id
      (assign other scope name (exchange.value value) position) := by
  intro machine enough
  have found : (exchange.machine machine).store.target scope name =
      machine.store.target scope name :=
    exchange.target_store machine.store scope name
  rw [after, assign_apply, assign_apply, found]
  cases machine.store.target scope name with
  | ok target =>
    have written := exchange.write_store machine.store target name value
    refine ⟨?_, enough⟩
    show EStateM.Result.ok () { exchange.machine machine with
      store := (exchange.store machine.store).write target name (exchange.value value) } = _
    rw [written]
    rfl
  | error fault =>
    refine ⟨?_, enough⟩
    show Eval.fail (Eval.assignFault other name fault) position _ = _
    rw [assignFault matching]
    rfl

/-- A new function value is counted from the limit on, where identities are left alone, so it is its
own exchange. -/
theorem newClosure (procedure : Procedure) (scope : ScopeId) :
    (newClosure procedure scope).Exchanged exchange exchange.value
      (newClosure procedure scope) := by
  intro machine enough
  refine ⟨?_, Nat.le_succ_of_le enough⟩
  show EStateM.Result.ok (Value.function ⟨machine.closures, procedure, scope⟩) _ =
    EStateM.Result.ok (Value.function ⟨exchange.identity machine.closures, procedure, scope⟩) _
  rw [exchange.later machine.closures enough]
  rfl

/-- The sink is no part of the store, so what it does is the same in both runs. -/
theorem onSink (position : Position) (step : EStateM RuntimeFault Sink α) :
    (onSink position step).Exchanged exchange id (onSink position step) := by
  intro machine enough
  have sink : (exchange.machine machine).sink = machine.sink := rfl
  unfold after Eval.onSink
  rw [sink]
  cases step machine.sink with
  | ok value sink => exact ⟨rfl, enough⟩
  | error fault sink => exact ⟨rfl, enough⟩

theorem writeAll (position : Position) (texts : List String) :
    (writeAll position texts).Exchanged exchange id (writeAll position texts) := by
  induction texts with
  | nil => exact pure rfl
  | cons text rest inductionHypothesis =>
    exact bind (onSink position (Sink.write text)) fun _ => inductionHypothesis

/-- A builtin writes the same texts and comes to the exchanged result. -/
theorem callBuiltin (builtin : Builtin) (arguments : List Value) (position : Position) :
    (callBuiltin builtin arguments position).Exchanged exchange exchange.value
      (callBuiltin builtin (arguments.map exchange.value) position) := by
  have texts : builtin.texts (arguments.map exchange.value) = builtin.texts arguments :=
    exchange.relabeling.texts_map builtin arguments
  rw [callBuiltin_eq, callBuiltin_eq, texts]
  refine bind (writeAll position _) fun _ => ?_
  exact resultAt position (exchange.relabeling.result_map builtin arguments)

/-- Both contexts allow calls to the same depth. -/
theorem allowCall (matching : exchange.Matches context other) :
    (allowCall context).Exchanged exchange id (allowCall other) := by
  intro machine enough
  rw [after, allowCall_apply, allowCall_apply, matching.maxDepth]
  show (if context.maxDepth ≤ machine.depth then _ else _ : Outcome Unit) = _ ∧ _
  split
  · exact ⟨rfl, enough⟩
  · exact ⟨rfl, enough⟩

theorem deeper {change : α → β} {step : Eval α} {second : Eval β}
    (exchanged : step.Exchanged exchange change second) :
    step.deeper.Exchanged exchange change second.deeper := by
  intro machine enough
  obtain ⟨reached, still⟩ := exchanged { machine with depth := machine.depth + 1 } enough
  have same : second { exchange.machine machine with
        depth := (exchange.machine machine).depth + 1 } =
      exchange.outcome change (step { machine with depth := machine.depth + 1 }) := reached
  unfold after Eval.deeper at *
  rw [same]
  cases came : step { machine with depth := machine.depth + 1 } with
  | ok value later =>
    rw [came] at still
    exact ⟨rfl, still⟩
  | error interrupt later =>
    rw [came] at still
    exact ⟨rfl, still⟩

end Exchanged

end Eval

end Scriptlet
