/-
This file compares stores that differ in where things are. A relocation leaves the first
scope where it is, which all procedures see, and moves the other scopes and the function
values behind those that were made before. A store mirrors another one if every scope of
that one is there, at its new place and with its values relocated; other scopes may be
there as well.

Walks outward are limited by the place of the scope they start from, which is another one
in a store that mirrors. The limit is never felt where scopes are closed: what a scope
leads to has been made before it.
-/

import Scriptlet.Proofs.Relabeling
import Scriptlet.Proofs.Stored

namespace Scriptlet

/-! ### Relocations -/

/-- By how much scopes other than the first and function values are moved. -/
structure Relocation where
  scopes : Nat
  closures : Nat

namespace Relocation

variable (relocation : Relocation)

/-- The new place of a scope. -/
def scope : ScopeId → ScopeId
  | 0 => 0
  | place + 1 => place + 1 + relocation.scopes

theorem scope_of_pos {place : ScopeId} (positive : 0 < place) :
    relocation.scope place = place + relocation.scopes := by
  cases place with
  | zero => cases positive
  | succ place => rfl

theorem scope_lt {first second : ScopeId} (less : first < second) :
    relocation.scope first < relocation.scope second := by
  rw [relocation.scope_of_pos (Nat.zero_lt_of_lt less)]
  cases first with
  | zero => exact Nat.lt_of_lt_of_le less (Nat.le_add_right second relocation.scopes)
  | succ place => exact Nat.add_lt_add_right less relocation.scopes

theorem scope_injective : Function.Injective relocation.scope := by
  intro first second same
  rcases Nat.lt_trichotomy first second with less | equal | more
  · exact absurd same (Nat.ne_of_lt (relocation.scope_lt less))
  · exact equal
  · exact absurd same (Nat.ne_of_gt (relocation.scope_lt more))

/-- The new identity of a function value. -/
def identity (made : Nat) : Nat :=
  made + relocation.closures

theorem identity_injective : Function.Injective relocation.identity :=
  fun _ _ same => Nat.add_right_cancel same

/-- A function value with its new identity and the new place of its scope. -/
def closure (found : Closure) : Closure :=
  ⟨relocation.identity found.identity, found.procedure, relocation.scope found.scope⟩

/-- A relocation changes nothing that programs can see. -/
def relabeling : Relabeling where
  closure := relocation.closure
  name _ := rfl
  identity first second := by
    show (relocation.identity first.identity == relocation.identity second.identity) = _
    rw [Bool.eq_iff_iff, beq_iff_eq, beq_iff_eq]
    exact relocation.identity_injective.eq_iff

/-- A value whose functions have been relocated. -/
def value : Value → Value :=
  relocation.relabeling.value

/-- A signal whose value has been relocated. -/
def signal : Signal → Signal
  | .returning value => .returning (relocation.value value)
  | other => other

/-- A scope with its new surroundings and its values relocated. -/
def contents : Scope → Scope :=
  Scope.onValues relocation.scope relocation.value

/-- The binding of a name and the new place of the scope that holds it. -/
def located (found : Located) : Located :=
  ⟨relocation.scope found.scope, found.binding.onValue relocation.value⟩

/-- The procedures of a run, relocated. -/
def table (table : ProcedureTable) : ProcedureTable :=
  ⟨table.entries.map relocation.closure⟩

/-- What stays the same through a run, relocated. -/
def context (context : Context) : Context :=
  { context with procedures := relocation.table context.procedures }

theorem find?_table (table : ProcedureTable) (name : String) :
    (relocation.table table).find? name = (table.find? name).map relocation.closure :=
  List.find?_map

/-- Procedures that are made later are the relocated ones. -/
theorem table_build (procedures : List Procedure) :
    relocation.table (.build 0 0 procedures) = .build relocation.closures 0 procedures := by
  unfold table ProcedureTable.build
  rw [List.map_reverse]
  refine congrArg (fun entries : List Closure => ProcedureTable.mk entries.reverse) ?_
  refine List.ext_getElem? fun place => ?_
  rw [List.getElem?_map, List.getElem?_mapIdx, List.getElem?_mapIdx, Option.map_map]
  refine Option.map_congr fun procedure _ => ?_
  show (⟨0 + place + relocation.closures, procedure, 0⟩ : Closure) = _
  rw [Nat.zero_add, Nat.add_comm]

end Relocation

/-! ### Closed stores -/

/-- The scopes that the functions of a value see are among the first so many. -/
abbrev Value.Within (size : Nat) (value : Value) : Prop :=
  value.Holds fun closure => closure.scope < size

theorem Value.Within.mono {size more : Nat} {value : Value} (within : value.Within size)
    (le : size ≤ more) : value.Within more :=
  Value.Holds.mono within fun _ less => Nat.lt_of_lt_of_le less le

/-- What a scope leads to is there: the scope around it was made before it, and the functions it
holds see scopes that have been made. -/
structure Store.Closed (store : Store) : Prop where
  parent : ∀ {scope parent : ScopeId} {found : Scope}, store.scopes[scope]? = some found →
    found.parent = some parent → parent < scope
  values : store.All (Value.Within store.scopes.size)

namespace Store.Closed

variable {store : Store}

theorem newRoot : Store.empty.newRoot.2.Closed where
  parent := by
    intro scope outer found present around
    rw [scope_of_newRoot present] at around
    cases around
  values := .newRoot

theorem newChild (closed : store.Closed) {parent : ScopeId} (old : parent < store.scopes.size) :
    (store.newChild parent).2.Closed where
  parent := by
    intro scope outer found present around
    rcases scope_of_newChild present with before | ⟨rfl, rfl⟩
    · exact closed.parent before around
    · cases around
      exact old
  values := by
    rw [size_newChild]
    exact (closed.values.newChild parent).mono fun _ within => within.mono (Nat.le_succ _)

/-- A change of one scope that leaves the scope around it. -/
theorem modify (closed : store.Closed) {target : ScopeId} {change : Scope → Scope} {after : Store}
    (size : after.scopes.size = store.scopes.size)
    (changed : ∀ scope, after.scopes[scope]? =
      if target = scope then store.scopes[scope]?.map change else store.scopes[scope]?)
    (parent : ∀ found, (change found).parent = found.parent)
    (values : after.All (Value.Within store.scopes.size)) : after.Closed where
  parent := by
    intro scope outer found present around
    rw [changed] at present
    split at present
    · obtain ⟨before, presentBefore, rfl⟩ := Option.map_eq_some_iff.mp present
      rw [parent] at around
      exact closed.parent presentBefore around
    · exact closed.parent present around
  values := by
    rw [size]
    exact values

theorem define (closed : store.Closed) (scope : ScopeId) {binding : Binding}
    (within : binding.value.Within store.scopes.size) : (store.define scope binding).Closed :=
  closed.modify (size_define store scope binding)
    (fun other => scope_define store scope other binding)
    (fun found => Scope.parent_define found binding) (closed.values.define scope within)

theorem write (closed : store.Closed) (scope : ScopeId) (name : String) {value : Value}
    (within : value.Within store.scopes.size) : (store.write scope name value).Closed :=
  closed.modify (size_write store scope name value)
    (fun other => scope_write store scope other name value)
    (fun found => Scope.parent_write found name value) (closed.values.write scope name within)

end Store.Closed

/-! ### Stores that mirror others -/

/-- Every scope of the first store is in the second one, relocated. -/
structure Relocation.Mirrors (relocation : Relocation) (store mirror : Store) : Prop where
  rooted : 0 < store.scopes.size
  size : mirror.scopes.size = store.scopes.size + relocation.scopes
  scopes : ∀ scope, mirror.scopes[relocation.scope scope]? =
    store.scopes[scope]?.map relocation.contents

namespace Relocation.Mirrors

variable {relocation : Relocation} {store mirror : Store}

/-- The next scope to be made is the relocated one. -/
theorem next (mirrors : relocation.Mirrors store mirror) :
    mirror.scopes.size = relocation.scope store.scopes.size := by
  rw [mirrors.size, relocation.scope_of_pos mirrors.rooted]

theorem newChild (mirrors : relocation.Mirrors store mirror) (parent : ScopeId) :
    relocation.Mirrors (store.newChild parent).2
      (mirror.newChild (relocation.scope parent)).2 where
  rooted := by
    rw [Store.size_newChild]
    exact Nat.succ_pos _
  size := by
    rw [Store.size_newChild, Store.size_newChild, mirrors.size, Nat.add_right_comm]
  scopes := by
    intro scope
    simp only [Store.newChild, Array.getElem?_push, mirrors.next]
    by_cases new : scope = store.scopes.size
    · rw [if_pos new, if_pos (congrArg relocation.scope new)]
      rfl
    · rw [if_neg new, if_neg fun same => new (relocation.scope_injective same)]
      exact mirrors.scopes scope

/-- Changes of a scope that do the same up to the relocation. -/
theorem modify (mirrors : relocation.Mirrors store mirror) (target : ScopeId)
    {change other : Scope → Scope}
    (same : ∀ found, other (relocation.contents found) = relocation.contents (change found)) :
    relocation.Mirrors ⟨store.scopes.modify target change⟩
      ⟨mirror.scopes.modify (relocation.scope target) other⟩ where
  rooted := by
    rw [Array.size_modify]
    exact mirrors.rooted
  size := by
    rw [Array.size_modify, Array.size_modify]
    exact mirrors.size
  scopes := by
    intro scope
    rw [Array.getElem?_modify, Array.getElem?_modify, mirrors.scopes]
    by_cases here : target = scope
    · rw [if_pos here, if_pos (congrArg relocation.scope here), Option.map_map, Option.map_map]
      exact Option.map_congr fun found _ => same found
    · rw [if_neg here, if_neg fun moved => here (relocation.scope_injective moved)]

theorem define (mirrors : relocation.Mirrors store mirror) (scope : ScopeId) (binding : Binding) :
    relocation.Mirrors (store.define scope binding)
      (mirror.define (relocation.scope scope) (binding.onValue relocation.value)) :=
  mirrors.modify scope fun found => found.define_onValues _ _ binding

theorem write (mirrors : relocation.Mirrors store mirror) (scope : ScopeId) (name : String)
    (value : Value) :
    relocation.Mirrors (store.write scope name value)
      (mirror.write (relocation.scope scope) name (relocation.value value)) :=
  mirrors.modify scope fun found => found.write_onValues _ _ name value

theorem binds (mirrors : relocation.Mirrors store mirror) (scope : ScopeId) (name : String) :
    mirror.binds (relocation.scope scope) name = store.binds scope name := by
  rw [Store.binds, Store.binds, mirrors.scopes]
  cases store.scopes[scope]? with
  | none => rfl
  | some found => exact found.binds_onValues _ _ name

/-- Walks that may go on to the end find the same. -/
theorem locateWithin (mirrors : relocation.Mirrors store mirror) (closed : store.Closed)
    (name : String) {steps more : Nat} {scope : ScopeId} (enough : scope < steps)
    (enoughMore : relocation.scope scope < more) :
    mirror.locateWithin name more (relocation.scope scope) =
      (store.locateWithin name steps scope).map relocation.located := by
  induction steps generalizing scope more with
  | zero => cases enough
  | succ steps inductionHypothesis =>
    cases more with
    | zero => cases enoughMore
    | succ more =>
      rw [Store.locateWithin, Store.locateWithin, mirrors.scopes]
      cases present : store.scopes[scope]? with
      | none => rfl
      | some found =>
        have names : (relocation.contents found).find? name =
            (found.find? name).map (Binding.onValue relocation.value) :=
          found.find?_onValues _ _ name
        have outer : (relocation.contents found).parent = found.parent.map relocation.scope := rfl
        simp only [Option.map_some, names, outer]
        cases found.find? name with
        | some binding => rfl
        | none =>
          cases around : found.parent with
          | none => rfl
          | some parent =>
            -- The scope around was made earlier, so both walks have steps left.
            have before := closed.parent present around
            exact inductionHypothesis (Nat.lt_of_lt_of_le before (Nat.le_of_lt_succ enough))
              (Nat.lt_of_lt_of_le (relocation.scope_lt before) (Nat.le_of_lt_succ enoughMore))

theorem locate? (mirrors : relocation.Mirrors store mirror) (closed : store.Closed)
    (scope : ScopeId) (name : String) :
    mirror.locate? (relocation.scope scope) name =
      (store.locate? scope name).map relocation.located :=
  mirrors.locateWithin closed name (Nat.lt_succ_self scope) (Nat.lt_succ_self _)

theorem get? (mirrors : relocation.Mirrors store mirror) (closed : store.Closed)
    (scope : ScopeId) (name : String) :
    mirror.get? (relocation.scope scope) name =
      (store.get? scope name).map relocation.value := by
  rw [Store.get?, Store.get?, mirrors.locate? closed]
  cases store.locate? scope name with
  | none => rfl
  | some found => rfl

theorem target (mirrors : relocation.Mirrors store mirror) (closed : store.Closed)
    (scope : ScopeId) (name : String) :
    mirror.target (relocation.scope scope) name =
      (store.target scope name).map relocation.scope := by
  rw [Store.target, Store.target, mirrors.locate? closed]
  cases store.locate? scope name with
  | none => rfl
  | some found =>
    dsimp only [Option.map_some, Relocation.located, Binding.onValue]
    cases found.binding.mutability with
    | constant => rfl
    | mutable => rfl

end Relocation.Mirrors

end Scriptlet
