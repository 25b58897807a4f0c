/-
This file says what it means that all function values that are held somewhere have a
property. Results of operations hold only what their operands hold, so they have the
property if the operands do. A store keeps it as well: a new scope holds nothing, and a
binding that is made or changed must bring a value with the property. A name that is
looked up then has a value with the property.
-/

import Scriptlet.Proofs.Contents
import Scriptlet.Proofs.Kept

namespace Scriptlet

/-! ### Values -/

/-- Every function value that a value holds has a property. -/
def Value.Holds (property : Closure → Prop) (value : Value) : Prop :=
  ∀ closure ∈ value.closures, property closure

/-- Every function value that a signal carries has a property. -/
def Signal.Holds (property : Closure → Prop) : Signal → Prop
  | .returning value => value.Holds property
  | _ => True

namespace Value.Holds

variable {property : Closure → Prop}

theorem of_closureless {value : Value} (empty : value.closures = []) : value.Holds property := by
  intro closure held
  rw [empty] at held
  cases held

theorem of_subset {value other : Value} (subset : value.closures ⊆ other.closures)
    (holds : other.Holds property) : value.Holds property :=
  fun closure held => holds closure (subset held)

theorem function {closure : Closure} (holds : property closure) :
    (Value.function closure).Holds property := by
  intro other held
  rw [List.mem_singleton.mp held]
  exact holds

theorem mono {weaker : Closure → Prop} {value : Value} (holds : value.Holds property)
    (implies : ∀ closure, property closure → weaker closure) : value.Holds weaker :=
  fun closure held => implies closure (holds closure held)

theorem unary {op : UnaryOp} {value result : Value} (applied : op.apply value = .ok result) :
    result.Holds property :=
  .of_closureless (closureless_unary op value result applied)

theorem binary {op : BinaryOp} {left right result : Value} (first : left.Holds property)
    (second : right.Holds property) (applied : op.apply left right = .ok result) :
    result.Holds property := by
  intro closure held
  rcases List.mem_append.mp (closures_binary applied held) with heldLeft | heldRight
  · exact first closure heldLeft
  · exact second closure heldRight

theorem builtin {builtin : Builtin} {arguments : List Value} {sink last : Sink} {result : Value}
    (holds : ∀ value ∈ arguments, value.Holds property)
    (ran : builtin.run arguments sink = .ok result last) : result.Holds property := by
  intro closure held
  obtain ⟨argument, member, heldThere⟩ := List.mem_flatMap.mp (closures_builtin ran held)
  exact holds argument member closure heldThere

end Value.Holds

/-! ### Stores -/

namespace Store

/-- Every value in a binding of the store has a property. -/
def All (property : Value → Prop) (store : Store) : Prop :=
  ∀ ⦃scope : ScopeId⦄ ⦃found : Scope⦄, store.scopes[scope]? = some found →
    ∀ binding ∈ found.bindings, property binding.value

/-- A store with one scope has no other scope. -/
theorem scope_of_newRoot {scope : ScopeId} {found : Scope}
    (present : empty.newRoot.2.scopes[scope]? = some found) : found = ⟨none, []⟩ := by
  simp only [newRoot, empty, Array.getElem?_push] at present
  split at present
  · injection present with same
    exact same.symm
  · cases present

/-- A scope that is there once a scope has been made was there before or is empty. -/
theorem scope_of_newChild {store : Store} {parent scope : ScopeId} {found : Scope}
    (present : (store.newChild parent).2.scopes[scope]? = some found) :
    store.scopes[scope]? = some found ∨
      scope = store.scopes.size ∧ found = ⟨some parent, []⟩ := by
  simp only [newChild, Array.getElem?_push] at present
  split at present
  · rename_i new
    injection present with same
    exact Or.inr ⟨new, same.symm⟩
  · exact Or.inl present

namespace All

variable {property : Value → Prop} {store : Store}

theorem mono {weaker : Value → Prop} (all : store.All property)
    (implies : ∀ value, property value → weaker value) : store.All weaker :=
  fun _ _ present binding member => implies binding.value (all present binding member)

theorem newRoot : Store.empty.newRoot.2.All property := by
  intro scope found present binding member
  rw [scope_of_newRoot present] at member
  cases member

theorem newChild (all : store.All property) (parent : ScopeId) :
    (store.newChild parent).2.All property := by
  intro scope found present binding member
  rcases scope_of_newChild present with before | ⟨-, rfl⟩
  · exact all before binding member
  · cases member

/-- A change of one scope that brings one value at most. -/
theorem modify (all : store.All property) {target : ScopeId} {value : Value}
    (holds : property value) {after : Store} {change : Scope → Scope}
    (changed : ∀ scope, after.scopes[scope]? =
      if target = scope then store.scopes[scope]?.map change else store.scopes[scope]?)
    (values : ∀ found, ∀ binding ∈ (change found).bindings,
      binding ∈ found.bindings ∨ binding.value = value) : after.All property := by
  intro scope found present binding member
  rw [changed] at present
  split at present
  · obtain ⟨before, presentBefore, rfl⟩ := Option.map_eq_some_iff.mp present
    rcases values before binding member with old | new
    · exact all presentBefore binding old
    · rw [new]
      exact holds
  · exact all present binding member

theorem define (all : store.All property) (scope : ScopeId) {binding : Binding}
    (holds : property binding.value) : (store.define scope binding).All property := by
  refine all.modify holds (fun other => scope_define store scope other binding) ?_
  intro found other member
  rcases List.mem_cons.mp member with same | old
  · exact Or.inr (congrArg Binding.value same)
  · exact Or.inl (List.mem_filter.mp old).1

theorem write (all : store.All property) (scope : ScopeId) (name : String) {value : Value}
    (holds : property value) : (store.write scope name value).All property := by
  refine all.modify holds (fun other => scope_write store scope other name value) ?_
  intro found binding member
  obtain ⟨old, memberOld, rfl⟩ := List.mem_map.mp member
  split
  · exact Or.inr rfl
  · exact Or.inl memberOld

theorem get? (all : store.All property) {scope : ScopeId} {name : String} {value : Value}
    (found : store.get? scope name = some value) : property value := by
  obtain ⟨located, reached, rfl⟩ := Option.map_eq_some_iff.mp found
  obtain ⟨holder, present, bound⟩ := locate?_found reached
  exact all present located.binding (List.mem_of_find?_eq_some bound)

end All

end Store

end Scriptlet
