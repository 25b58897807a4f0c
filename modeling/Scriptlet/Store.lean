/-
This file defines the variables of a run. A store is a row of scopes; a scope
holds bindings and names the scope around it. A name is looked up in a scope and
then outward, and the nearest binding is the one that counts. A scope is always
made after the one around it, so a walk outward from a scope takes at most as
many steps as there are scopes up to it.
-/

import Scriptlet.Text.Order
import Scriptlet.Text.Quoted
import Scriptlet.Value.Basic

namespace Scriptlet

/-! ### Scopes -/

/-- A named value and whether it may be replaced. -/
structure Binding where
  name : String
  value : Value
  mutability : Mutability

/-- Bindings, at most one for each name, and the scope around them. -/
structure Scope where
  parent : Option ScopeId
  bindings : List Binding

namespace Scope

/-- The binding of a name in this very scope. -/
def find? (scope : Scope) (name : String) : Option Binding :=
  scope.bindings.find? fun binding => binding.name == name

/-- Whether this very scope binds a name. -/
def binds (scope : Scope) (name : String) : Bool :=
  (scope.find? name).isSome

/-- The scope with a binding, which replaces one of the same name. -/
def define (scope : Scope) (binding : Binding) : Scope :=
  { scope with
    bindings := binding :: scope.bindings.filter fun other => other.name != binding.name }

/-- The scope with a new value for a name it binds. -/
def write (scope : Scope) (name : String) (value : Value) : Scope :=
  { scope with
    bindings := scope.bindings.map fun binding =>
      if binding.name == name then { binding with value } else binding }

/-- The names a scope binds. -/
def names (scope : Scope) : List String :=
  scope.bindings.map Binding.name

theorem find?_define_self (scope : Scope) (binding : Binding) :
    (scope.define binding).find? binding.name = some binding := by
  simp [find?, define]

theorem find?_define_other (scope : Scope) (binding : Binding) (name : String)
    (other : name ≠ binding.name) : (scope.define binding).find? name = scope.find? name := by
  have different : (binding.name == name) = false := by simpa using Ne.symm other
  simp only [find?, define, List.find?_cons, different, List.find?_filter]
  congr 1
  funext candidate
  by_cases same : candidate.name = name
  · simp [same, other]
  · simp [same]

theorem find?_write_self (scope : Scope) (name : String) (value : Value) :
    (scope.write name value).find? name =
      (scope.find? name).map fun binding => { binding with value } := by
  simp only [find?, write]
  induction scope.bindings with
  | nil => rfl
  | cons binding rest inductionHypothesis =>
    rw [List.map_cons, List.find?_cons, List.find?_cons]
    by_cases same : binding.name = name
    · simp [same]
    · rw [if_neg (by simpa using same), beq_eq_false_iff_ne.mpr same]
      exact inductionHypothesis

theorem find?_write_other (scope : Scope) (name other : String) (value : Value)
    (different : other ≠ name) : (scope.write name value).find? other = scope.find? other := by
  simp only [find?, write]
  induction scope.bindings with
  | nil => rfl
  | cons binding rest inductionHypothesis =>
    rw [List.map_cons, List.find?_cons, List.find?_cons]
    by_cases same : binding.name = name
    · have skipped : (binding.name == other) = false := by
        rw [same]
        exact beq_eq_false_iff_ne.mpr (Ne.symm different)
      simpa only [same, beq_self_eq_true, if_true, skipped,
        beq_eq_false_iff_ne.mpr (Ne.symm different)] using inductionHypothesis
    · rw [if_neg (by simpa using same)]
      cases binding.name == other with
      | true => rfl
      | false => exact inductionHypothesis

@[simp] theorem parent_define (scope : Scope) (binding : Binding) :
    (scope.define binding).parent = scope.parent := rfl

@[simp] theorem parent_write (scope : Scope) (name : String) (value : Value) :
    (scope.write name value).parent = scope.parent := rfl

end Scope

/-! ### Stores -/

/-- The scopes of a run, in the order they were made. -/
structure Store where
  scopes : Array Scope

/-- A binding and the scope that holds it. -/
structure Located where
  scope : ScopeId
  binding : Binding

/-- Why a name cannot be given a new value. -/
inductive AssignFault where
  | undefined
  | constant
deriving DecidableEq

namespace Store

/-- The store without scopes. -/
def empty : Store := ⟨#[]⟩

/-- Makes a scope with nothing around it. -/
def newRoot (store : Store) : ScopeId × Store :=
  (store.scopes.size, ⟨store.scopes.push ⟨none, []⟩⟩)

/-- Makes a scope inside another one. -/
def newChild (store : Store) (parent : ScopeId) : ScopeId × Store :=
  (store.scopes.size, ⟨store.scopes.push ⟨some parent, []⟩⟩)

/-- Binds a name in a scope. -/
def define (store : Store) (scope : ScopeId) (binding : Binding) : Store :=
  ⟨store.scopes.modify scope fun target => target.define binding⟩

/-- Gives a new value to a name that a scope binds. -/
def write (store : Store) (scope : ScopeId) (name : String) (value : Value) : Store :=
  ⟨store.scopes.modify scope fun target => target.write name value⟩

/-- Whether a scope itself binds a name. -/
def binds (store : Store) (scope : ScopeId) (name : String) : Bool :=
  match store.scopes[scope]? with
  | some found => found.binds name
  | none => false

/-- The nearest binding of a name, going outward for a number of scopes. -/
def locateWithin (store : Store) (name : String) : Nat → ScopeId → Option Located
  | 0, _ => none
  | steps + 1, scope =>
    match store.scopes[scope]? with
    | none => none
    | some found =>
      match found.find? name with
      | some binding => some ⟨scope, binding⟩
      | none =>
        match found.parent with
        | some parent => store.locateWithin name steps parent
        | none => none

/-- The nearest binding of a name, seen from a scope. -/
def locate? (store : Store) (scope : ScopeId) (name : String) : Option Located :=
  store.locateWithin name (scope + 1) scope

/-- The value of a name, seen from a scope. -/
def get? (store : Store) (scope : ScopeId) (name : String) : Option Value :=
  (store.locate? scope name).map fun located => located.binding.value

/-- The scope whose binding of a name can be given a new value, seen from a scope. -/
def target (store : Store) (scope : ScopeId) (name : String) : Except AssignFault ScopeId :=
  match store.locate? scope name with
  | none => .error .undefined
  | some located =>
    match located.binding.mutability with
    | .constant => .error .constant
    | .mutable => .ok located.scope

/-- Gives a new value to the nearest binding of a name. -/
def assign (store : Store) (scope : ScopeId) (name : String) (value : Value) :
    Except AssignFault Store :=
  (store.target scope name).map fun found => store.write found name value

/-- The number of scopes from a scope outward, itself included. -/
def depthWithin (store : Store) : Nat → ScopeId → Nat
  | 0, _ => 0
  | steps + 1, scope =>
    match store.scopes[scope]? with
    | none => 0
    | some found =>
      match found.parent with
      | some parent => store.depthWithin steps parent + 1
      | none => 1

/-- How deep a scope lies. -/
def depth (store : Store) (scope : ScopeId) : Nat :=
  store.depthWithin (scope + 1) scope

/-- The names a scope itself binds, in order of their code points. -/
def names (store : Store) (scope : ScopeId) : List String :=
  match store.scopes[scope]? with
  | some found => found.names.mergeSort fun left right => (Text.order left right).isLE
  | none => []

/-- A line that describes a scope: its names and its depth. -/
def describe (store : Store) (scope : ScopeId) : String :=
  "Environment \x7b names: [" ++ ", ".intercalate ((store.names scope).map Text.quoted) ++
    "], depth: " ++ toString (store.depth scope) ++ " \x7d"

@[simp] theorem size_newRoot (store : Store) :
    store.newRoot.2.scopes.size = store.scopes.size + 1 := by
  simp [newRoot]

@[simp] theorem size_newChild (store : Store) (parent : ScopeId) :
    (store.newChild parent).2.scopes.size = store.scopes.size + 1 := by
  simp [newChild]

@[simp] theorem size_define (store : Store) (scope : ScopeId) (binding : Binding) :
    (store.define scope binding).scopes.size = store.scopes.size := by
  simp [define]

@[simp] theorem size_write (store : Store) (scope : ScopeId) (name : String) (value : Value) :
    (store.write scope name value).scopes.size = store.scopes.size := by
  simp [write]

theorem scope_newChild (store : Store) (parent scope : ScopeId) (old : scope < store.scopes.size) :
    (store.newChild parent).2.scopes[scope]? = store.scopes[scope]? := by
  simp [newChild, Array.getElem?_push, Nat.ne_of_lt old]

theorem scope_define (store : Store) (target scope : ScopeId) (binding : Binding) :
    (store.define target binding).scopes[scope]? =
      if target = scope then store.scopes[scope]?.map fun found => found.define binding
      else store.scopes[scope]? := by
  simp [define, Array.getElem?_modify]

theorem scope_write (store : Store) (target scope : ScopeId) (name : String) (value : Value) :
    (store.write target name value).scopes[scope]? =
      if target = scope then store.scopes[scope]?.map fun found => found.write name value
      else store.scopes[scope]? := by
  simp [write, Array.getElem?_modify]

end Store

end Scriptlet
