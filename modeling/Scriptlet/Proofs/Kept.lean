/-
This file says what it means that bindings stay. A scope is kept if it has its
parent and every name it bound, if a name has the mutability it had, and if a
constant has its value; it may have gained names, and the statement says which. A
store is kept if all scopes it had are. The primitive changes of a store keep it:
making a scope, giving a mutable binding a new value, and declaring a name that
its scope does not bind.
-/

import Scriptlet.Store

namespace Scriptlet

/-! ### Scopes -/

/-- A scope afterwards, with names gained only as allowed: all it bound it still binds, with
another value at most where the binding is mutable. -/
structure Scope.Kept (gains : String → Prop) (before after : Scope) : Prop where
  parent : after.parent = before.parent
  binding : ∀ {name binding}, before.find? name = some binding →
    ∃ value, after.find? name = some { binding with value } ∧
      (binding.mutability = .constant → value = binding.value)
  gained : ∀ {name}, before.find? name = none → after.find? name = none ∨ gains name

namespace Scope.Kept

variable {gains : String → Prop} {first second third : Scope}

theorem refl (scope : Scope) : scope.Kept gains scope where
  parent := rfl
  binding := fun {_ binding} found => ⟨binding.value, found, fun _ => rfl⟩
  gained := fun free => Or.inl free

theorem trans (earlier : first.Kept gains second) (later : second.Kept gains third) :
    first.Kept gains third where
  parent := later.parent.trans earlier.parent
  binding := by
    intro name binding found
    obtain ⟨middle, foundMiddle, fixedMiddle⟩ := earlier.binding found
    obtain ⟨value, foundLast, fixedLast⟩ := later.binding foundMiddle
    exact ⟨value, foundLast, fun constant => (fixedLast constant).trans (fixedMiddle constant)⟩
  gained := by
    intro name free
    rcases earlier.gained free with stillFree | allowed
    · exact later.gained stillFree
    · exact Or.inr allowed

theorem mono {more : String → Prop} (kept : first.Kept gains second)
    (weaker : ∀ name, gains name → more name) : first.Kept more second where
  parent := kept.parent
  binding := kept.binding
  gained := fun {name} free => (kept.gained free).imp_right (weaker name)

/-- A new value for a mutable binding. -/
theorem write {scope : Scope} {name : String} {binding : Binding}
    (found : scope.find? name = some binding) (mutable : binding.mutability = .mutable)
    (value : Value) : scope.Kept gains (scope.write name value) where
  parent := parent_write scope name value
  binding := by
    intro other kept foundOther
    by_cases same : other = name
    · subst same
      rw [found] at foundOther
      injection foundOther with equal
      subst equal
      refine ⟨value, ?_, fun constant => ?_⟩
      · rw [find?_write_self, found]
        rfl
      · rw [mutable] at constant
        cases constant
    · refine ⟨kept.value, ?_, fun _ => rfl⟩
      rw [find?_write_other scope name other value same]
      exact foundOther
  gained := by
    intro other free
    refine Or.inl ?_
    by_cases same : other = name
    · rw [same, found] at free
      cases free
    · rw [find?_write_other scope name other value same]
      exact free

/-- A new name. -/
theorem define {scope : Scope} {binding : Binding} (free : scope.find? binding.name = none) :
    scope.Kept (· = binding.name) (scope.define binding) where
  parent := parent_define scope binding
  binding := by
    intro other kept foundOther
    have different : other ≠ binding.name := by
      intro same
      rw [same, free] at foundOther
      cases foundOther
    refine ⟨kept.value, ?_, fun _ => rfl⟩
    rw [find?_define_other scope binding other different]
    exact foundOther
  gained := by
    intro other freeOther
    by_cases same : other = binding.name
    · exact Or.inr same
    · refine Or.inl ?_
      rw [find?_define_other scope binding other same]
      exact freeOther

end Scope.Kept

/-! ### Stores -/

/-- A store afterwards: every scope it had is kept, with names gained only as allowed. -/
def Store.Kept (gains : ScopeId → String → Prop) (before after : Store) : Prop :=
  ∀ ⦃scope : ScopeId⦄ ⦃found : Scope⦄, before.scopes[scope]? = some found →
    ∃ kept, after.scopes[scope]? = some kept ∧ found.Kept (gains scope) kept

/-- No name is gained anywhere. -/
def noNames : ScopeId → String → Prop := fun _ _ => False

/-- The names of a list, gained in one scope. -/
def namesIn (scope : ScopeId) (names : List String) : ScopeId → String → Prop :=
  fun target name => target = scope ∧ name ∈ names

namespace Store

theorem binds_eq_false_iff (store : Store) (scope : ScopeId) (name : String) :
    store.binds scope name = false ↔
      ∀ found, store.scopes[scope]? = some found → found.find? name = none := by
  unfold binds
  cases store.scopes[scope]? with
  | none => simp
  | some found => simp [Scope.binds]

/-- A fresh scope binds nothing. -/
theorem binds_newChild_self (store : Store) (parent : ScopeId) (name : String) :
    (store.newChild parent).2.binds store.scopes.size name = false := by
  simp [newChild, binds, Scope.binds, Scope.find?]

/-- A declaration binds its name. -/
theorem binds_define_self (store : Store) {scope : ScopeId} (binding : Binding)
    (present : scope < store.scopes.size) :
    (store.define scope binding).binds scope binding.name = true := by
  rw [binds, scope_define, if_pos rfl, Array.getElem?_eq_getElem present]
  show (Option.isSome (Scope.find? _ _)) = true
  rw [Scope.find?_define_self]
  rfl

theorem locateWithin_found {store : Store} {name : String} {located : Located} :
    ∀ {steps : Nat} {scope : ScopeId}, store.locateWithin name steps scope = some located →
      ∃ found, store.scopes[located.scope]? = some found ∧
        found.find? name = some located.binding := by
  intro steps
  induction steps with
  | zero =>
    intro scope reached
    cases reached
  | succ steps inductionHypothesis =>
    intro scope reached
    rw [locateWithin] at reached
    split at reached
    · cases reached
    · rename_i found present
      split at reached
      · rename_i binding bound
        injection reached with equal
        subst equal
        exact ⟨found, present, bound⟩
      · split at reached
        · exact inductionHypothesis reached
        · cases reached

/-- The binding a name stands for is in the scope that is said to hold it. -/
theorem locate?_found {store : Store} {scope : ScopeId} {name : String} {located : Located}
    (reached : store.locate? scope name = some located) :
    ∃ found, store.scopes[located.scope]? = some found ∧
      found.find? name = some located.binding :=
  locateWithin_found reached

/-- What can be assigned to is a mutable binding. -/
theorem target_found {store : Store} {scope target : ScopeId} {name : String}
    (reached : store.target scope name = .ok target) :
    ∃ found binding, store.scopes[target]? = some found ∧ found.find? name = some binding ∧
      binding.mutability = .mutable := by
  unfold Store.target at reached
  split at reached
  · cases reached
  · rename_i located foundAt
    obtain ⟨found, present, bound⟩ := locate?_found foundAt
    split at reached
    · cases reached
    · rename_i mutable
      injection reached with equal
      subst equal
      exact ⟨found, located.binding, present, bound, mutable⟩

namespace Kept

variable {gains : ScopeId → String → Prop} {first second third : Store}

theorem refl (store : Store) : store.Kept gains store :=
  fun _ found present => ⟨found, present, .refl found⟩

theorem trans (earlier : first.Kept gains second) (later : second.Kept gains third) :
    first.Kept gains third := by
  intro scope found present
  obtain ⟨middle, presentMiddle, keptMiddle⟩ := earlier present
  obtain ⟨last, presentLast, keptLast⟩ := later presentMiddle
  exact ⟨last, presentLast, keptMiddle.trans keptLast⟩

/-- Only the names gained in scopes that were there before count. -/
theorem restrict {more : ScopeId → String → Prop} (kept : first.Kept gains second)
    (weaker : ∀ scope name, scope < first.scopes.size → gains scope name → more scope name) :
    first.Kept more second := by
  intro scope found present
  obtain ⟨last, presentLast, keptLast⟩ := kept present
  have old : scope < first.scopes.size := (Array.getElem?_eq_some_iff.mp present).1
  exact ⟨last, presentLast, keptLast.mono fun name => weaker scope name old⟩

theorem size_le (kept : first.Kept gains second) : first.scopes.size ≤ second.scopes.size := by
  refine Nat.le_of_not_lt fun fewer => ?_
  obtain ⟨last, present, _⟩ := kept (Array.getElem?_eq_getElem fewer)
  rw [Array.getElem?_eq_none (Nat.le_refl _)] at present
  cases present

/-- A name that a scope binds it still binds. -/
theorem binds {scope : ScopeId} {name : String} (kept : first.Kept gains second)
    (bound : first.binds scope name = true) : second.binds scope name = true := by
  unfold Store.binds at bound
  split at bound
  · rename_i found present
    obtain ⟨last, presentLast, keptLast⟩ := kept present
    obtain ⟨binding, foundBinding⟩ := Option.isSome_iff_exists.mp bound
    obtain ⟨value, foundLast, _⟩ := keptLast.binding foundBinding
    rw [Store.binds, presentLast]
    exact Option.isSome_iff_exists.mpr ⟨_, foundLast⟩
  · cases bound

/-- A name that a scope does not bind it binds only if it has gained it. -/
theorem gained {scope : ScopeId} {name : String} (kept : first.Kept gains second)
    (old : scope < first.scopes.size) (free : first.binds scope name = false)
    (bound : second.binds scope name = true) : gains scope name := by
  have present := Array.getElem?_eq_getElem old
  obtain ⟨last, presentLast, keptLast⟩ := kept present
  have freeBefore := (binds_eq_false_iff first scope name).mp free _ present
  refine (keptLast.gained freeBefore).resolve_left fun stillFree => ?_
  have freeAfter : second.binds scope name = false := by
    refine (binds_eq_false_iff second scope name).mpr fun found presentFound => ?_
    rw [presentLast] at presentFound
    cases presentFound
    exact stillFree
  rw [freeAfter] at bound
  cases bound

/-- A change without new names is one whatever names are allowed. -/
theorem anyNames (kept : first.Kept noNames second) : first.Kept gains second :=
  kept.restrict fun _ _ _ impossible => impossible.elim

theorem newChild (store : Store) (parent : ScopeId) : store.Kept gains (store.newChild parent).2 := by
  intro scope found present
  refine ⟨found, ?_, .refl found⟩
  rw [scope_newChild store parent scope (Array.getElem?_eq_some_iff.mp present).1]
  exact present

/-- Names gained in a scope that was not there before do not count. -/
theorem outside {scope : ScopeId} {names : List String} (kept : first.Kept (namesIn scope names) second)
    (fresh : first.scopes.size ≤ scope) : first.Kept gains second := by
  refine kept.restrict fun other name old allowed => ?_
  exact absurd allowed.1 (Nat.ne_of_lt (Nat.lt_of_lt_of_le old fresh))

/-- A declaration in a scope that was not there before. -/
theorem defineFresh {scope : ScopeId} (kept : first.Kept gains second)
    (fresh : first.scopes.size ≤ scope) (binding : Binding) :
    first.Kept gains (second.define scope binding) := by
  intro other found present
  obtain ⟨last, presentLast, keptLast⟩ := kept present
  have old : other < first.scopes.size := (Array.getElem?_eq_some_iff.mp present).1
  refine ⟨last, ?_, keptLast⟩
  rw [scope_define, if_neg (Nat.ne_of_gt (Nat.lt_of_lt_of_le old fresh))]
  exact presentLast

theorem write {store : Store} {scope target : ScopeId} {name : String}
    (reached : store.target scope name = .ok target) (value : Value) :
    store.Kept gains (store.write target name value) := by
  obtain ⟨holder, binding, holderPresent, bound, mutable⟩ := target_found reached
  intro other found present
  rw [scope_write]
  by_cases same : target = other
  · subst same
    rw [holderPresent] at present
    injection present with equal
    subst equal
    refine ⟨holder.write name value, ?_, .write bound mutable value⟩
    rw [if_pos rfl, holderPresent]
    rfl
  · rw [if_neg same]
    exact ⟨found, present, .refl found⟩

/-- A declaration after other changes. The scope did not bind the name before, so it does not
bind it now, and nothing is written over. -/
theorem define {scope : ScopeId} (kept : first.Kept noNames second) (binding : Binding)
    (free : first.binds scope binding.name = false) :
    first.Kept (namesIn scope [binding.name]) (second.define scope binding) := by
  intro other found present
  obtain ⟨middle, presentMiddle, keptMiddle⟩ := kept present
  rw [scope_define]
  by_cases same : scope = other
  · subst same
    have freeBefore := (binds_eq_false_iff first scope binding.name).mp free found present
    have freeMiddle : middle.find? binding.name = none :=
      (keptMiddle.gained freeBefore).resolve_right fun impossible => impossible
    refine ⟨middle.define binding, ?_, ?_⟩
    · rw [if_pos rfl, presentMiddle]
      rfl
    · refine (keptMiddle.mono fun _ impossible => impossible.elim).trans
        ((Scope.Kept.define freeMiddle).mono fun name equal => ?_)
      exact ⟨rfl, List.mem_singleton.mpr equal⟩
  · rw [if_neg same]
    exact ⟨middle, presentMiddle, keptMiddle.mono fun _ impossible => impossible.elim⟩

end Kept

end Store

end Scriptlet
