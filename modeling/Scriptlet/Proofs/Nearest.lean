/-
This file says which binding a name stands for apart from the walk that finds it: the nearest
scope is the first one outward that binds the name itself. A change of the store that adds no
name to any scope leaves the nearest scope of every name where it was, however many values have
been replaced. Writing to a binding is such a change, and it replaces one value and nothing else.
-/

import Scriptlet.Proofs.Capture

namespace Scriptlet.Store

variable {store : Store} {name : String} {scope : ScopeId}

/-! ### The nearest scope -/

/-- Going outward from a scope, the first one that itself binds a name. -/
inductive Nearest (store : Store) (name : String) : ScopeId → ScopeId → Prop where
  | here {scope : ScopeId} : store.binds scope name = true → Nearest store name scope scope
  | outward {scope parent holder : ScopeId} {found : Scope} :
    store.binds scope name = false → store.scopes[scope]? = some found →
    found.parent = some parent → Nearest store name parent holder →
    Nearest store name scope holder

theorem Nearest.unique {holder other : ScopeId} (nearest : store.Nearest name scope holder)
    (nearestOther : store.Nearest name scope other) : other = holder := by
  induction nearest with
  | here binds =>
    cases nearestOther with
    | here _ => rfl
    | outward free _ _ _ => exact absurd binds (Bool.eq_false_iff.mp free)
  | outward free present around _ inductionHypothesis =>
    cases nearestOther with
    | here binds => exact absurd binds (Bool.eq_false_iff.mp free)
    | outward _ presentOther aroundOther further =>
      rw [present] at presentOther
      cases presentOther
      rw [around] at aroundOther
      cases aroundOther
      exact inductionHypothesis further

theorem nearest_of_locateWithin {steps : Nat} {located : Located}
    (reached : store.locateWithin name steps scope = some located) :
    store.Nearest name scope located.scope := by
  induction steps generalizing scope with
  | zero => cases reached
  | succ steps inductionHypothesis =>
    rw [locateWithin] at reached
    split at reached
    · cases reached
    · rename_i found present
      split at reached
      · rename_i binding bound
        cases reached
        refine .here ?_
        rw [binds_of_present present, Scope.binds, bound]
        rfl
      · rename_i free
        split at reached
        · rename_i parent around
          refine .outward ?_ present around (inductionHypothesis reached)
          rw [binds_of_present present, Scope.binds, free]
          rfl
        · cases reached

/-- The walk outward stops at the nearest scope. -/
theorem nearest_iff_of_locate? {located : Located}
    (reached : store.locate? scope name = some located) (other : ScopeId) :
    store.Nearest name scope other ↔ other = located.scope := by
  have nearest := nearest_of_locateWithin reached
  constructor
  · exact nearest.unique
  · rintro rfl
    exact nearest

/-! ### Single bindings -/

/-- The binding of a name in a scope itself. -/
def binding? (store : Store) (scope : ScopeId) (name : String) : Option Binding :=
  store.scopes[scope]?.bind fun found => found.find? name

theorem binding?_of_locate? {located : Located}
    (reached : store.locate? scope name = some located) :
    store.binding? located.scope name = some located.binding := by
  obtain ⟨found, present, bound⟩ := locate?_found reached
  rw [binding?, present]
  exact bound

theorem get?_of_locate? {located : Located} (reached : store.locate? scope name = some located) :
    store.get? scope name = some located.binding.value := by
  rw [get?, reached]
  rfl

/-- What can be assigned to is the nearest binding, if it is mutable. -/
theorem target_eq_ok_iff {holder : ScopeId} :
    store.target scope name = .ok holder ↔
      ∃ binding, store.locate? scope name = some ⟨holder, binding⟩ ∧
        binding.mutability = .mutable := by
  unfold target
  constructor
  · intro reached
    split at reached
    · cases reached
    · rename_i located foundAt
      split at reached
      · cases reached
      · rename_i mutable
        cases reached
        exact ⟨located.binding, foundAt, mutable⟩
  · rintro ⟨binding, reached, mutable⟩
    rw [reached]
    dsimp only
    rw [mutable]

/-- Writing replaces the value of one binding. -/
theorem binding?_write (store : Store) (holder : ScopeId) (name : String) (value : Value)
    (place : ScopeId) (label : String) :
    (store.write holder name value).binding? place label =
      if place = holder ∧ label = name then
        (store.binding? holder name).map fun binding => { binding with value }
      else store.binding? place label := by
  rw [binding?, scope_write]
  by_cases samePlace : place = holder
  · subst samePlace
    rw [if_pos rfl]
    unfold binding?
    cases store.scopes[place]? with
    | none =>
      split <;> rfl
    | some found =>
      by_cases sameName : label = name
      · subst sameName
        rw [if_pos ⟨rfl, rfl⟩]
        exact found.find?_write_self label value
      · rw [if_neg fun both => sameName both.2]
        exact found.find?_write_other name label value sameName
  · rw [if_neg (Ne.symm samePlace), if_neg fun both => samePlace both.1]
    rfl

/-! ### Changes without new names -/

variable {before after : Store}

theorem locateWithin_same {steps : Nat} {located : Located} (kept : before.Kept noNames after)
    (reached : before.locateWithin name steps scope = some located) :
    ∃ value, after.locateWithin name steps scope =
      some ⟨located.scope, { located.binding with value }⟩ := by
  induction steps generalizing scope with
  | zero => cases reached
  | succ steps inductionHypothesis =>
    cases present : before.scopes[scope]? with
    | none =>
      rw [locateWithin, present] at reached
      cases reached
    | some found =>
      obtain ⟨last, presentLast, keptLast⟩ := kept present
      cases bound : found.find? name with
      | some binding =>
        obtain ⟨value, boundLast, _⟩ := keptLast.binding bound
        rw [locateWithin_of_bound present bound] at reached
        cases reached
        exact ⟨value, locateWithin_of_bound presentLast boundLast⟩
      | none =>
        have free : last.find? name = none := (keptLast.gained bound).resolve_right id
        cases outer : found.parent with
        | none =>
          rw [locateWithin, present] at reached
          simp only [bound, outer] at reached
          cases reached
        | some parent =>
          rw [locateWithin_of_free present bound outer] at reached
          rw [locateWithin_of_free presentLast free (keptLast.parent.trans outer)]
          exact inductionHypothesis reached

/-- Where no scope gains a name, a name stands for the same binding, perhaps with another value. -/
theorem locate?_same {located : Located} (kept : before.Kept noNames after)
    (reached : before.locate? scope name = some located) :
    ∃ value, after.locate? scope name =
      some ⟨located.scope, { located.binding with value }⟩ :=
  locateWithin_same kept reached

theorem target_same {holder : ScopeId} (kept : before.Kept noNames after)
    (reached : before.target scope name = .ok holder) :
    after.target scope name = .ok holder := by
  obtain ⟨binding, foundAt, mutable⟩ := target_eq_ok_iff.mp reached
  obtain ⟨value, foundAfter⟩ := locate?_same kept foundAt
  exact target_eq_ok_iff.mpr ⟨_, foundAfter, mutable⟩

/-- A value that is written is read back from every scope the binding was reached from. -/
theorem get?_write {holder : ScopeId} (reached : store.target scope name = .ok holder)
    (value : Value) : (store.write holder name value).get? scope name = some value := by
  obtain ⟨binding, foundAt, _⟩ := target_eq_ok_iff.mp reached
  obtain ⟨present, foundAfter⟩ := locate?_same (.write reached value) foundAt
  have written := binding?_of_locate? foundAfter
  rw [binding?_write, if_pos ⟨rfl, rfl⟩, binding?_of_locate? foundAt] at written
  rw [get?_of_locate? foundAfter]
  exact congrArg (Option.map Binding.value) written.symm

end Scriptlet.Store
