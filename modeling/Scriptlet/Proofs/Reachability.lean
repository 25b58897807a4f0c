/-
This file proves that evaluation touches only what it can reach. From a scope one gets to
the scope around it and to the scopes of the function values that its bindings hold. What
can be got to from the scope an expression is evaluated in, and from the scopes of the
procedures, forms a realm together with all scopes that are still to be made; so an
evaluation leaves every other scope as it is, and its result leads to nothing else.
-/

import Scriptlet.Interpreter
import Scriptlet.Proofs.Realm

namespace Scriptlet

/-! ### Reachable scopes -/

/-- The scopes that the function values of a value see. -/
def Value.captured (value : Value) : List ScopeId :=
  value.closures.map Closure.scope

/-- The scopes that the value carried by a signal sees. -/
def Signal.captured : Signal → List ScopeId
  | .returning value => value.captured
  | _ => []

/-- The scopes that the procedures see. -/
def ProcedureTable.captured (table : ProcedureTable) : List ScopeId :=
  table.entries.map Closure.scope

/-- The scopes one gets to from some roots. -/
inductive Store.Reachable (store : Store) (roots : List ScopeId) : ScopeId → Prop where
  | root {scope : ScopeId} (member : scope ∈ roots) : Reachable store roots scope
  | parent {scope parent : ScopeId} {found : Scope} (reached : Reachable store roots scope)
      (present : store.scopes[scope]? = some found) (around : found.parent = some parent) :
      Reachable store roots parent
  | captured {scope inner : ScopeId} {found : Scope} {binding : Binding}
      (reached : Reachable store roots scope) (present : store.scopes[scope]? = some found)
      (bound : binding ∈ found.bindings) (seen : inner ∈ binding.value.captured) :
      Reachable store roots inner

namespace Realm

/-- What can be reached in a store, and all that is still to be made. -/
def reachable (start : Store) (roots : List ScopeId) : Realm where
  scopes scope := start.scopes.size ≤ scope ∨ start.Reachable roots scope
  places _ := True

variable {start : Store} {roots : List ScopeId}

theorem admits_reachable {closure : Closure}
    (reached : (reachable start roots).scopes closure.scope) :
    (reachable start roots).Admits closure :=
  ⟨reached, fun _ _ => trivial⟩

/-- A value whose scopes are reachable belongs to the realm of what is reachable. -/
theorem admitsValue_reachable {value : Value}
    (reached : ∀ scope ∈ value.captured, start.Reachable roots scope) :
    (reachable start roots).AdmitsValue value := by
  intro closure held
  exact admits_reachable (Or.inr (reached _ (List.mem_map_of_mem held)))

/-- The realm of what is reachable contains the store it starts with. -/
theorem contains_reachable (start : Store) (roots : List ScopeId) :
    (reachable start roots).Contains start start where
  fresh new := Or.inl new
  grown := Nat.le_refl _
  parent := by
    intro scope found parent inside present around
    have old : scope < start.scopes.size := (Array.getElem?_eq_some_iff.mp present).1
    have reached := inside.resolve_left (Nat.not_le_of_lt old)
    exact Or.inr (reached.parent present around)
  value := by
    intro scope found binding inside present bound
    have old : scope < start.scopes.size := (Array.getElem?_eq_some_iff.mp present).1
    have reached := inside.resolve_left (Nat.not_le_of_lt old)
    exact admitsValue_reachable fun inner seen => reached.captured present bound seen
  outside _ := rfl

/-- From scopes of a realm one gets to scopes of the realm only. -/
theorem Contains.scopes_of_reachable {realm : Realm} {store : Store} {scope : ScopeId}
    (contains : realm.Contains start store) (inside : ∀ root ∈ roots, realm.scopes root)
    (reached : store.Reachable roots scope) : realm.scopes scope := by
  induction reached with
  | root member => exact inside _ member
  | parent _ present around inductionHypothesis =>
    exact contains.parent inductionHypothesis present around
  | captured _ present bound seen inductionHypothesis =>
    obtain ⟨closure, held, same⟩ := List.mem_map.mp seen
    rw [← same]
    exact (contains.value inductionHypothesis present bound closure held).scope

theorem AdmitsValue.captured {realm : Realm} {value : Value} (admitted : realm.AdmitsValue value) :
    ∀ scope ∈ value.captured, realm.scopes scope := by
  intro scope seen
  obtain ⟨closure, held, same⟩ := List.mem_map.mp seen
  rw [← same]
  exact (admitted closure held).scope

theorem AdmitsSignal.captured {realm : Realm} {signal : Signal}
    (admitted : realm.AdmitsSignal signal) : ∀ scope ∈ signal.captured, realm.scopes scope := by
  cases signal with
  | returning value => exact AdmitsValue.captured admitted
  | _ => exact fun scope member => by cases member

end Realm

/-! ### Steps touch what they reach -/

/-- A step taken by an interpreter leaves the scopes that cannot be reached and the procedures as
they were, and its result leads only to new scopes and to scopes that could be reached before. -/
structure Interpreter.Touches {α : Type} (interpreter : Interpreter) (roots : List ScopeId)
    (captured : α → List ScopeId) (run : Run α) : Prop where
  scopes : ∀ scope < interpreter.machine.store.scopes.size,
    ¬ interpreter.machine.store.Reachable roots scope →
      run.interpreter.machine.store.scopes[scope]? = interpreter.machine.store.scopes[scope]?
  procedures : run.interpreter.procedures = interpreter.procedures
  result : ∀ value, run.outcome = .ok value →
    ∀ scope, run.interpreter.machine.store.Reachable (captured value) scope →
      interpreter.machine.store.scopes.size ≤ scope ∨
        interpreter.machine.store.Reachable roots scope

/-- Procedures whose scopes are among the roots belong to the realm of what is reachable. -/
theorem Realm.admitsTable_reachable {start : Store} {roots : List ScopeId} {table : ProcedureTable}
    (among : table.captured ⊆ roots) : (reachable start roots).AdmitsTable table := by
  intro closure member
  exact admits_reachable (Or.inr (.root (among (List.mem_map_of_mem member))))

/-- A task that is given what is reachable touches nothing else. -/
theorem Interpreter.touches_task (interpreter : Interpreter) {roots : List ScopeId} (budget : Nat)
    (task : Task) {captured : task.Answer → List ScopeId}
    (among : interpreter.procedures.captured ⊆ roots)
    (inside : (Realm.reachable interpreter.machine.store roots).Inside task)
    (leads : ∀ answer, (Realm.reachable interpreter.machine.store roots).Good task answer →
      ∀ scope ∈ captured answer,
        (Realm.reachable interpreter.machine.store roots).scopes scope) :
    interpreter.Touches roots captured
      (interpreter.perform fun context => task.perform context budget) := by
  have table : (Realm.reachable interpreter.machine.store roots).AdmitsTable
      interpreter.context.procedures := Realm.admitsTable_reachable among
  have allowed := Task.perform_keeps table budget task inside interpreter.machine
    (Realm.contains_reachable _ roots)
  unfold perform EStateM.run
  dsimp only
  cases came : task.perform interpreter.context budget interpreter.machine with
  | ok answer last =>
    rw [came] at allowed
    obtain ⟨good, contains⟩ := allowed
    refine ⟨fun scope old apart => ?_, rfl, fun other same scope reached => ?_⟩
    · exact contains.outside fun known => known.elim (Nat.not_le_of_lt old) apart
    · injection same with same
      rw [← same] at reached
      exact contains.scopes_of_reachable (leads answer good) reached
  | error interrupt last =>
    rw [came] at allowed
    refine ⟨fun scope old apart => ?_, rfl, fun value yielded => by cases yielded⟩
    exact allowed.2.outside fun known => known.elim (Nat.not_le_of_lt old) apart

/-- From every state, with every budget and however the step ends: evaluating an expression and
running statements in a scope touch what can be reached from this scope and the procedures;
calling a value touches what can be reached from the value, the arguments and the procedures. -/
theorem evaluation_touches_reachable (interpreter : Interpreter) (budget : Nat) :
    (∀ expression scope,
      interpreter.Touches (scope :: interpreter.procedures.captured) Value.captured
        (interpreter.evaluate budget expression scope)) ∧
    (∀ function arguments position,
      interpreter.Touches
        (function.captured ++ arguments.flatMap Value.captured ++ interpreter.procedures.captured)
        Value.captured (interpreter.call budget function arguments position)) ∧
    (∀ statements scope,
      interpreter.Touches (scope :: interpreter.procedures.captured) Signal.captured
        (interpreter.execute budget statements scope)) := by
  refine ⟨fun expression scope => ?_, fun function arguments position => ?_,
    fun statements scope => ?_⟩
  · refine interpreter.touches_task budget (.eval expression scope) (List.subset_cons_self _ _)
      ⟨?_, fun _ _ => trivial⟩ fun value admitted => Realm.AdmitsValue.captured admitted
    exact Or.inr (.root List.mem_cons_self)
  · refine interpreter.touches_task budget (.callValue function arguments position)
      (List.subset_append_right _ _) ⟨?_, fun argument member => ?_, trivial⟩
      fun value admitted => Realm.AdmitsValue.captured admitted
    · refine Realm.admitsValue_reachable fun scope seen => .root ?_
      exact List.mem_append_left _ (List.mem_append_left _ seen)
    · refine Realm.admitsValue_reachable fun scope seen => .root ?_
      have among : scope ∈ arguments.flatMap Value.captured :=
        List.mem_flatMap.mpr ⟨argument, member, seen⟩
      exact List.mem_append_left _ (List.mem_append_right _ among)
  · refine interpreter.touches_task budget (.execBlock statements scope) (List.subset_cons_self _ _)
      ⟨?_, fun _ _ => trivial⟩ fun signal admitted => Realm.AdmitsSignal.captured admitted
    exact Or.inr (.root List.mem_cons_self)

end Scriptlet
