/-
This file forgets the places that values hold: a function value holds a procedure, and
a procedure holds the places of its body. Programs do not see these places, so this is a
relabeling of function values; operations on values and on the store of variables, showing
values included, do the same with the places and without them.
-/

import Scriptlet.Proofs.Layout.Bare
import Scriptlet.Proofs.Relabeling

namespace Scriptlet

/-! ### Values -/

instance : Placing Closure :=
  ⟨fun closure => ⟨closure.identity, bare closure.procedure, closure.scope⟩⟩

mutual

/-- A value without places. -/
def Value.bare : Value → Value
  | .int value => .int value
  | .float value => .float value
  | .str value => .str value
  | .bool value => .bool value
  | .void => .void
  | .nil => .nil
  | .list items => .list (bareValues items)
  | .function closure => .function (Placing.bare closure)

/-- Values without places. -/
def bareValues : List Value → List Value
  | [] => []
  | first :: rest => first.bare :: bareValues rest

end

instance : Placing Value := ⟨Value.bare⟩
instance : Placing RuntimeFault := ⟨id⟩

theorem bareValues_eq (values : List Value) : bareValues values = bare values := by
  induction values with
  | nil => rfl
  | cons first rest inductionHypothesis =>
    rw [bareValues, inductionHypothesis]
    rfl

@[simp] theorem bare_list (items : List Value) : bare (Value.list items) = .list (bare items) := by
  rw [← bareValues_eq]
  rfl

/-- Forgetting places changes nothing that programs can see of a function. -/
def Relabeling.placeless : Relabeling where
  closure := Placing.bare
  name closure := Procedure.name_bare closure.procedure
  identity _ _ := rfl

mutual

/-- Values without places are those of a relabeling of their functions. -/
theorem value_placeless : ∀ value : Value, Relabeling.placeless.value value = bare value
  | .int _ | .float _ | .str _ | .bool _ | .void | .nil | .function _ => rfl
  | .list items => congrArg Value.list (values_placeless items)

theorem values_placeless : ∀ items : List Value,
    Relabeling.placeless.values items = bareValues items
  | [] => rfl
  | first :: rest => by
    rw [Relabeling.values, bareValues, value_placeless first, values_placeless rest]
    rfl

end

theorem map_value_placeless (items : List Value) :
    items.map Relabeling.placeless.value = bare items := by
  rw [← Relabeling.values_eq, values_placeless, bareValues_eq]

@[simp] theorem bare_fault (fault : RuntimeFault) : bare fault = fault := rfl

/-- A result without places. -/
theorem map_placeless (result : Except RuntimeFault Value) :
    result.map Relabeling.placeless.value = bare result := by
  cases result with
  | ok value => exact congrArg Except.ok (value_placeless value)
  | error fault => rfl

@[simp] theorem type_bare (value : Value) : (bare value).type = value.type := by
  rw [← value_placeless, Relabeling.type_value]

@[simp] theorem isIndexable_bare (value : Value) :
    (bare value).isIndexable = value.isIndexable := by
  rw [← value_placeless, Relabeling.isIndexable_value]

@[simp] theorem expectBool_bare (value : Value) : (bare value).expectBool = value.expectBool := by
  rw [← value_placeless, Relabeling.expectBool_value]

/-- What a value shows does not depend on places. -/
theorem display_bare (value : Value) : (bare value).display = value.display := by
  rw [← value_placeless, Relabeling.display_value]

/-! ### Operations -/

/-- Operators see the places in their operands as little as any other label. -/
theorem binary_bare (op : BinaryOp) (left right : Value) :
    op.apply (bare left) (bare right) = bare (op.apply left right) := by
  rw [← value_placeless, ← value_placeless, Relabeling.binary_value, map_placeless]

theorem unary_bare (op : UnaryOp) (value : Value) :
    op.apply (bare value) = bare (op.apply value) := by
  rw [← value_placeless, Relabeling.unary_value, map_placeless]

/-- Elements of a list are bare if the list is. -/
theorem element_bare (target : Value) (index : Int64) :
    (bare target).element index = bare (target.element index) := by
  rw [← value_placeless, Relabeling.element_value, map_placeless]

/-! ### Builtins -/

instance : Placing Sink := ⟨id⟩

theorem line_bare (values : List Value) : Value.line (bare values) = Value.line values := by
  rw [← map_value_placeless, Relabeling.line_map]

theorem single_bare (builtin : SingleBuiltin) (value : Value) :
    builtin.apply (bare value) = bare (builtin.apply value) := by
  rw [← value_placeless, Relabeling.single_value, map_placeless]

/-- Steps that hold no places. -/
theorem alike_write (text : String) : Alike (Sink.write text) (Sink.write text) := by
  intro sink
  show Sink.write text sink = _
  cases Sink.write text sink <;> rfl

/-- A builtin writes the same text and comes to the same value, up to places. -/
theorem alike_builtin (builtin : Builtin) (values : List Value) :
    Alike (builtin.run values) (builtin.run (bare values)) := by
  cases builtin with
  | variadic builtin =>
    cases builtin with
    | print =>
      simp only [Builtin.run, VariadicBuiltin.run, line_bare]
      exact (alike_write _).bind fun _ => AlikeBy.pure rfl
    | println =>
      simp only [Builtin.run, VariadicBuiltin.run, line_bare]
      exact (alike_write _).bind fun _ => (alike_write _).bind fun _ => AlikeBy.pure rfl
    | list => exact AlikeBy.pure (bare_list values)
  | single builtin =>
    cases values with
    | nil => exact AlikeBy.throw rfl
    | cons value others =>
      cases others with
      | nil =>
        simp only [bare_cons, bare_nil, Builtin.run, single_bare]
        cases builtin.apply value with
        | ok result => exact AlikeBy.pure rfl
        | error fault => exact AlikeBy.throw rfl
      | cons second rest =>
        refine AlikeBy.throw ?_
        simp

/-! ### Variables -/

instance : Placing Binding :=
  ⟨fun binding => ⟨binding.name, bare binding.value, binding.mutability⟩⟩
instance : Placing Scope := ⟨fun scope => ⟨scope.parent, bare scope.bindings⟩⟩
instance : Placing Store := ⟨fun store => ⟨store.scopes.map bare⟩⟩
instance : Placing Located := ⟨fun located => ⟨located.scope, bare located.binding⟩⟩

namespace Scope

theorem bare_eq (scope : Scope) : bare scope = scope.onValues id bare := by
  show (⟨scope.parent, bare scope.bindings⟩ : Scope) =
    ⟨scope.parent.map id, scope.bindings.map (Binding.onValue bare)⟩
  rw [Option.map_id]
  rfl

theorem find?_bare (scope : Scope) (name : String) :
    (bare scope).find? name = bare (scope.find? name) := by
  rw [bare_eq, find?_onValues]
  rfl

theorem binds_bare (scope : Scope) (name : String) :
    (bare scope).binds name = scope.binds name := by
  rw [bare_eq, binds_onValues]

theorem define_bare (scope : Scope) (binding : Binding) :
    (bare scope).define (bare binding) = bare (scope.define binding) := by
  rw [bare_eq, bare_eq]
  exact define_onValues id bare scope binding

theorem write_bare (scope : Scope) (name : String) (value : Value) :
    (bare scope).write name (bare value) = bare (scope.write name value) := by
  rw [bare_eq, bare_eq]
  exact write_onValues id bare scope name value

end Scope

namespace Store

theorem getElem?_bare (store : Store) (scope : ScopeId) :
    (bare store).scopes[scope]? = bare store.scopes[scope]? := by
  show (store.scopes.map Placing.bare)[scope]? = _
  rw [Array.getElem?_map]
  rfl

/-- A new scope gets the same number. -/
theorem newChild_bare (store : Store) (parent : ScopeId) :
    (bare store).newChild parent = bare (store.newChild parent) := by
  show ((store.scopes.map Placing.bare).size,
    (⟨(store.scopes.map Placing.bare).push ⟨some parent, []⟩⟩ : Store)) = _
  rw [Array.size_map]
  show _ = (store.scopes.size, (⟨(store.scopes.push ⟨some parent, []⟩).map Placing.bare⟩ : Store))
  rw [Array.map_push]
  rfl

/-- Changing one scope commutes with forgetting places. -/
theorem modify_bare (store : Store) (scope : ScopeId) {change other : Scope → Scope}
    (same : ∀ found, other (bare found) = bare (change found)) :
    (⟨(bare store).scopes.modify scope other⟩ : Store) = bare ⟨store.scopes.modify scope change⟩ := by
  have scopes : (store.scopes.map Placing.bare).modify scope other =
      (store.scopes.modify scope change).map Placing.bare := by
    refine Array.ext_getElem? fun place => ?_
    rw [Array.getElem?_modify, Array.getElem?_map, Array.getElem?_map, Array.getElem?_modify]
    split
    · cases store.scopes[place]? with
      | none => rfl
      | some found => exact congrArg some (same found)
    · rfl
  exact congrArg Store.mk scopes

theorem define_bare (store : Store) (scope : ScopeId) (binding : Binding) :
    (bare store).define scope (bare binding) = bare (store.define scope binding) :=
  store.modify_bare scope fun found => found.define_bare binding

theorem write_bare (store : Store) (scope : ScopeId) (name : String) (value : Value) :
    (bare store).write scope name (bare value) = bare (store.write scope name value) :=
  store.modify_bare scope fun found => found.write_bare name value

theorem binds_bare (store : Store) (scope : ScopeId) (name : String) :
    (bare store).binds scope name = store.binds scope name := by
  rw [binds, binds, getElem?_bare]
  cases store.scopes[scope]? with
  | none => rfl
  | some found => exact found.binds_bare name

/-- The way from scope to scope depends on names and parents only. -/
theorem locateWithin_bare (store : Store) (name : String) (steps : Nat) (scope : ScopeId) :
    (bare store).locateWithin name steps scope = bare (store.locateWithin name steps scope) := by
  induction steps generalizing scope with
  | zero => rfl
  | succ steps inductionHypothesis =>
    rw [locateWithin, locateWithin, getElem?_bare]
    cases store.scopes[scope]? with
    | none => rfl
    | some found =>
      simp only [bare_some, Scope.find?_bare]
      cases found.find? name with
      | some binding => rfl
      | none =>
        have sameParent : (bare found).parent = found.parent := rfl
        simp only [bare_none, sameParent]
        cases found.parent with
        | none => rfl
        | some parent => exact inductionHypothesis parent

theorem get?_bare (store : Store) (scope : ScopeId) (name : String) :
    (bare store).get? scope name = bare (store.get? scope name) := by
  rw [get?, get?, locate?, locate?, locateWithin_bare]
  cases store.locateWithin name (scope + 1) scope <;> rfl

/-- Whether a name can be assigned to, and where, does not depend on places. -/
theorem target_bare (store : Store) (scope : ScopeId) (name : String) :
    (bare store).target scope name = store.target scope name := by
  rw [target, target, locate?, locate?, locateWithin_bare]
  cases store.locateWithin name (scope + 1) scope <;> rfl

end Store

end Scriptlet
