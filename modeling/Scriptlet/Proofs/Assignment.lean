/-
This file proves that an assignment changes one binding and nothing else, seen from every scope.
Scopes share what lies around them, so a binding is in view from many of them. Which ones these
are is told by the nearest scope alone: after the assignment the name has the new value where the
nearest scope is the one that was assigned to, and every other name, and the same name seen with
another nearest scope, has the value it had.

Reading and assigning walk outward for a bounded number of scopes. In a store that is built scope
by scope the bound is never reached, since every scope comes after the one around it.
-/

import Scriptlet.Proofs.Nearest

namespace Scriptlet

namespace Store

variable {store : Store} {name : String} {scope : ScopeId}

/-! ### Stores that are built -/

/-- What making scopes, declaring names and assigning to them lead to. -/
inductive Built : Store → Prop where
  | empty : Built .empty
  | newRoot {store : Store} : Built store → Built store.newRoot.2
  | newChild {store : Store} {parent : ScopeId} : Built store → parent < store.scopes.size →
    Built (store.newChild parent).2
  | define {store : Store} (scope : ScopeId) (binding : Binding) : Built store →
    Built (store.define scope binding)
  | assign {store after : Store} {scope : ScopeId} {name : String} {value : Value} : Built store →
    store.assign scope name value = .ok after → Built after

/-- Every scope comes after the one around it. -/
def Ordered (store : Store) : Prop :=
  ∀ ⦃scope parent : ScopeId⦄ ⦃found : Scope⦄, store.scopes[scope]? = some found →
    found.parent = some parent → parent < scope

/-- One more scope, inside an earlier one or inside none. -/
theorem Ordered.push (ordered : store.Ordered) {last : Scope}
    (earlier : ∀ parent, last.parent = some parent → parent < store.scopes.size) :
    Ordered ⟨store.scopes.push last⟩ := by
  intro scope parent found present around
  rw [Array.getElem?_push] at present
  split at present
  · rename_i isLast
    cases present
    rw [isLast]
    exact earlier parent around
  · exact ordered present around

/-- A change of one scope that leaves it where it is. -/
theorem Ordered.modify (ordered : store.Ordered) (target : ScopeId) {change : Scope → Scope}
    (stays : ∀ found, (change found).parent = found.parent) :
    Ordered ⟨store.scopes.modify target change⟩ := by
  intro scope parent found present around
  rw [Array.getElem?_modify] at present
  split at present
  · obtain ⟨former, presentBefore, rfl⟩ := Option.map_eq_some_iff.mp present
    rw [stays] at around
    exact ordered presentBefore around
  · exact ordered present around

/-- An assignment goes by the binding that is found first. -/
theorem assign_eq (store : Store) (scope : ScopeId) (name : String) (value : Value) :
    store.assign scope name value =
      match store.locate? scope name with
      | none => .error .undefined
      | some located =>
        match located.binding.mutability with
        | .constant => .error .constant
        | .mutable => .ok (store.write located.scope name value) := by
  rw [assign, target]
  cases store.locate? scope name with
  | none => rfl
  | some located =>
    dsimp only
    cases located.binding.mutability with
    | constant => rfl
    | mutable => rfl

theorem of_assign_ok {after : Store} {value : Value}
    (assigned : store.assign scope name value = .ok after) :
    ∃ located, store.locate? scope name = some located ∧
      after = store.write located.scope name value := by
  rw [assign_eq] at assigned
  split at assigned
  · cases assigned
  · rename_i located reached
    split at assigned
    · cases assigned
    · cases assigned
      exact ⟨located, reached, rfl⟩

theorem Built.ordered (built : store.Built) : store.Ordered := by
  induction built with
  | empty =>
    intro scope parent found present
    cases present
  | newRoot _ ordered => exact ordered.push fun parent around => by cases around
  | newChild _ present ordered =>
    refine ordered.push fun parent around => ?_
    cases around
    exact present
  | define scope binding _ ordered =>
    exact ordered.modify scope fun found => found.parent_define binding
  | assign _ assigned ordered =>
    obtain ⟨located, -, rfl⟩ := of_assign_ok assigned
    exact ordered.modify located.scope fun found => found.parent_write _ _

/-! ### Reading from the nearest scope -/

/-- From a scope that is not too far inside, the walk comes to the nearest scope. -/
theorem Ordered.locateWithin_of_nearest (ordered : store.Ordered) {holder : ScopeId}
    (nearest : store.Nearest name scope holder) {steps : Nat} (enough : scope < steps) :
    ∃ binding, store.locateWithin name steps scope = some ⟨holder, binding⟩ := by
  induction nearest generalizing steps with
  | @here scope binds =>
    obtain ⟨steps, rfl⟩ := Nat.exists_eq_succ_of_ne_zero (Nat.ne_zero_of_lt enough)
    cases present : store.scopes[scope]? with
    | none => simp [Store.binds, present] at binds
    | some found =>
      rw [binds_of_present present, Scope.binds, Option.isSome_iff_exists] at binds
      obtain ⟨binding, bound⟩ := binds
      exact ⟨binding, locateWithin_of_bound present bound⟩
  | @outward scope parent holder found free present around _ inductionHypothesis =>
    obtain ⟨steps, rfl⟩ := Nat.exists_eq_succ_of_ne_zero (Nat.ne_zero_of_lt enough)
    have earlier : parent < steps :=
      Nat.lt_of_lt_of_le (ordered present around) (Nat.le_of_lt_succ enough)
    rw [locateWithin_of_free present ((binds_eq_false_iff ..).mp free found present) around]
    exact inductionHypothesis earlier

theorem Ordered.locate?_eq_some_iff (ordered : store.Ordered) {located : Located} :
    store.locate? scope name = some located ↔
      store.Nearest name scope located.scope ∧
        store.binding? located.scope name = some located.binding := by
  constructor
  · intro reached
    exact ⟨nearest_of_locateWithin reached, binding?_of_locate? reached⟩
  · rintro ⟨nearest, bound⟩
    obtain ⟨binding, reached⟩ := ordered.locateWithin_of_nearest nearest (Nat.lt_succ_self scope)
    have same := (binding?_of_locate? reached).symm.trans bound
    cases same
    exact reached

/-- The value of a name is that of its binding in the nearest scope. -/
theorem Ordered.get?_eq_some_iff (ordered : store.Ordered) {value : Value} :
    store.get? scope name = some value ↔
      ∃ holder binding, store.Nearest name scope holder ∧
        store.binding? holder name = some binding ∧ binding.value = value := by
  unfold get?
  rw [Option.map_eq_some_iff]
  constructor
  · rintro ⟨located, reached, rfl⟩
    obtain ⟨nearest, bound⟩ := ordered.locate?_eq_some_iff.mp reached
    exact ⟨located.scope, located.binding, nearest, bound, rfl⟩
  · rintro ⟨holder, binding, nearest, bound, rfl⟩
    exact ⟨⟨holder, binding⟩, ordered.locate?_eq_some_iff.mpr ⟨nearest, bound⟩, rfl⟩

/-! ### Reading behind a write -/

/-- A binding behind a write to a name in a scope, if that is where it stands. -/
def rewritten (holder : ScopeId) (name : String) (value : Value) (scope : ScopeId)
    (label : String) (binding : Binding) : Binding :=
  if scope = holder ∧ label = name then { binding with value } else binding

theorem present_write {found : Scope} (present : store.scopes[scope]? = some found)
    (holder : ScopeId) (name : String) (value : Value) :
    ∃ last, (store.write holder name value).scopes[scope]? = some last ∧
      last.parent = found.parent ∧
      ∀ label, last.find? label =
        (found.find? label).map (rewritten holder name value scope label) := by
  rw [scope_write, present]
  by_cases here : scope = holder
  · refine ⟨found.write name value, if_pos here.symm, found.parent_write name value,
      fun label => ?_⟩
    by_cases same : label = name
    · rw [same, found.find?_write_self]
      congr 1
      funext binding
      exact (if_pos ⟨here, rfl⟩).symm
    · rw [found.find?_write_other name label value same]
      have unchanged : rewritten holder name value scope label = id :=
        funext fun binding => if_neg fun both => same both.2
      rw [unchanged, Option.map_id_fun, id]
  · refine ⟨found, if_neg (Ne.symm here), rfl, fun label => ?_⟩
    have unchanged : rewritten holder name value scope label = id :=
      funext fun binding => if_neg fun both => here both.1
    rw [unchanged, Option.map_id_fun, id]

/-- A write does not change which binding is found, only the value of the one written to. -/
theorem locateWithin_write (store : Store) (holder : ScopeId) (name : String) (value : Value)
    (label : String) (steps : Nat) (scope : ScopeId) :
    (store.write holder name value).locateWithin label steps scope =
      (store.locateWithin label steps scope).map fun located =>
        ⟨located.scope, rewritten holder name value located.scope label located.binding⟩ := by
  induction steps generalizing scope with
  | zero => rfl
  | succ steps inductionHypothesis =>
    cases present : store.scopes[scope]? with
    | none => simp only [locateWithin, scope_write, present, Option.map_none, ite_self]
    | some found =>
      obtain ⟨last, presentLast, sameParent, bindings⟩ := present_write present holder name value
      simp only [locateWithin, present, presentLast, sameParent, bindings]
      cases found.find? label with
      | some binding => rfl
      | none =>
        cases found.parent with
        | none => rfl
        | some parent => exact inductionHypothesis parent

/-- What differs between two stores is the value of a name in one scope, and it differs wherever
this is the nearest scope. -/
structure ChangesOnly (before after : Store) (holder : ScopeId) (name : String) (value : Value) :
    Prop where
  assigned : ∀ scope, before.Nearest name scope holder → after.get? scope name = some value
  others : ∀ scope label, ¬ (label = name ∧ before.Nearest name scope holder) →
    after.get? scope label = before.get? scope label

theorem Ordered.changesOnly_write (ordered : store.Ordered) (holder : ScopeId) (name : String)
    (value : Value) : store.ChangesOnly (store.write holder name value) holder name value where
  assigned := by
    intro scope nearest
    obtain ⟨binding, reached⟩ := ordered.locateWithin_of_nearest nearest (Nat.lt_succ_self scope)
    rw [get?, locate?, locateWithin_write, reached]
    simp [rewritten]
  others := by
    intro scope label apart
    rw [get?, get?, locate?, locate?, locateWithin_write, Option.map_map]
    refine Option.map_congr fun located reached => ?_
    have unchanged : ¬ (located.scope = holder ∧ label = name) := by
      rintro ⟨rfl, rfl⟩
      exact apart ⟨rfl, nearest_of_locateWithin reached⟩
    simp only [Function.comp_apply, rewritten, if_neg unchanged]

/-! ### Faults -/

theorem assign_undefined_iff {value : Value} :
    store.assign scope name value = .error .undefined ↔ store.get? scope name = none := by
  rw [assign_eq, get?]
  cases store.locate? scope name with
  | none => simp
  | some located => cases mutability : located.binding.mutability <;> simp [mutability]

theorem assign_constant_iff {value : Value} :
    store.assign scope name value = .error .constant ↔
      ∃ located, store.locate? scope name = some located ∧
        located.binding.mutability = .constant := by
  rw [assign_eq]
  cases store.locate? scope name with
  | none => simp
  | some located => cases mutability : located.binding.mutability <;> simp [mutability]

end Store

namespace Eval

/-- An assignment of a run is one in its store; a fault is classified and changes nothing. -/
theorem assign_eq_store (context : Context) (scope : ScopeId) (name : String) (value : Value)
    (position : Position) (machine : Machine) :
    assign context scope name value position machine =
      match machine.store.assign scope name value with
      | .ok after => .ok () { machine with store := after }
      | .error fault =>
        .error (.fault ⟨assignFault context name fault, some position⟩) machine := by
  rw [assign_apply, Store.assign]
  cases machine.store.target scope name with
  | ok holder => rfl
  | error fault => rfl

end Eval

/-! ### Assignment -/

/-- In every store that scopes, declarations and assignments have built: a name has the value of
its binding in the nearest scope. Assigning to a name fails if it has no value, and if the nearest
binding is a constant. Otherwise the name has the new value from every scope with the same nearest
scope, and whatever else is read from whatever scope is as it was. In a run a failed assignment
leaves everything as it was, and a name that stands for nothing is told from that of a procedure. -/
theorem assignment_changes_nearest {store : Store} (built : store.Built) (scope : ScopeId)
    (name : String) (value : Value) :
    (∀ origin label found, store.get? origin label = some found ↔
      ∃ holder binding, store.Nearest label origin holder ∧
        store.binding? holder label = some binding ∧ binding.value = found) ∧
    (store.assign scope name value = .error .undefined ↔ store.get? scope name = none) ∧
    (store.assign scope name value = .error .constant ↔
      ∃ holder binding, store.Nearest name scope holder ∧
        store.binding? holder name = some binding ∧ binding.mutability = .constant) ∧
    (∀ after, store.assign scope name value = .ok after →
      ∃ holder, store.Nearest name scope holder ∧ store.ChangesOnly after holder name value) ∧
    ∀ (context : Context) (position : Position) (machine : Machine), machine.store = store →
      Eval.assign context scope name value position machine =
        match store.assign scope name value with
        | .ok after => .ok () { machine with store := after }
        | .error .constant => .error (.fault ⟨.constReassignment name, some position⟩) machine
        | .error .undefined =>
          match context.procedures.find? name with
          | some _ => .error (.fault ⟨.procedureReassignment name, some position⟩) machine
          | none => .error (.fault ⟨.undefinedVariable name, some position⟩) machine := by
  have ordered := built.ordered
  refine ⟨fun origin label found => ordered.get?_eq_some_iff, Store.assign_undefined_iff,
    ?_, ?_, ?_⟩
  · rw [Store.assign_constant_iff]
    constructor
    · rintro ⟨located, reached, constant⟩
      obtain ⟨nearest, bound⟩ := ordered.locate?_eq_some_iff.mp reached
      exact ⟨located.scope, located.binding, nearest, bound, constant⟩
    · rintro ⟨holder, binding, nearest, bound, constant⟩
      exact ⟨⟨holder, binding⟩, ordered.locate?_eq_some_iff.mpr ⟨nearest, bound⟩, constant⟩
  · intro after assigned
    obtain ⟨located, reached, rfl⟩ := Store.of_assign_ok assigned
    exact ⟨located.scope, Store.nearest_of_locateWithin reached, ordered.changesOnly_write _ _ _⟩
  · rintro context position machine rfl
    rw [Eval.assign_eq_store]
    cases machine.store.assign scope name value with
    | ok after => rfl
    | error fault =>
      cases fault with
      | constant => rfl
      | undefined =>
        dsimp only [Eval.assignFault]
        cases context.procedures.find? name with
        | some closure => rfl
        | none => rfl

/-- A scope that binds `x` to 1, with two scopes inside it, of which the first has a constant `x` of
its own. -/
def shadowedStore : Store :=
  let outer := Store.empty.newRoot.2.define 0 ⟨"x", .int 1, .mutable⟩
  ((outer.newChild 0).2.define 1 ⟨"x", .int 2, .constant⟩).newChild 0 |>.2

theorem built_shadowedStore : shadowedStore.Built := by
  have outer : (Store.empty.newRoot.2.define 0 ⟨"x", .int 1, .mutable⟩).Built :=
    .define 0 _ (.newRoot .empty)
  exact .newChild (.define 1 _ (.newChild outer (by decide))) (by decide)

/-- Assigning from the second inner scope changes what it and the outer one read. The first inner
scope still reads its own constant, and cannot assign to it. -/
theorem assignment_changes_nearest_shadowed :
    shadowedStore.Built ∧
    (∃ after, shadowedStore.assign 2 "x" (.int 7) = .ok after ∧
      after.get? 2 "x" = some (.int 7) ∧ after.get? 0 "x" = some (.int 7) ∧
      after.get? 1 "x" = some (.int 2)) ∧
    shadowedStore.assign 1 "x" (.int 7) = .error .constant := by
  have inOuter : shadowedStore.Nearest "x" 0 0 := .here (by decide)
  have inFirst : shadowedStore.Nearest "x" 1 1 := .here (by decide)
  have inSecond : shadowedStore.Nearest "x" 2 0 := .outward (by decide) rfl rfl inOuter
  obtain ⟨-, -, -, changes, -⟩ := assignment_changes_nearest built_shadowedStore 2 "x" (.int 7)
  obtain ⟨-, -, faulty, -⟩ := assignment_changes_nearest built_shadowedStore 1 "x" (.int 7)
  obtain ⟨holder, nearest, only⟩ := changes _ rfl
  obtain rfl := inSecond.unique nearest
  refine ⟨built_shadowedStore, ⟨_, rfl, only.assigned 2 inSecond, only.assigned 0 inOuter, ?_⟩, ?_⟩
  · have apart : ¬ ("x" = "x" ∧ shadowedStore.Nearest "x" 1 0) := by
      rintro ⟨-, nearest⟩
      cases inFirst.unique nearest
    rw [only.others 1 "x" apart]
    rfl
  · exact faulty.mpr ⟨1, ⟨"x", .int 2, .constant⟩, inFirst, rfl, rfl⟩

end Scriptlet
