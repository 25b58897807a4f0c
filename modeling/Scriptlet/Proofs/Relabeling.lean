/-
This file changes the function values inside values. Programs see little of a function:
the name it shows and whether it is the same as another one. A change that keeps these two
is a relabeling, and operations on relabeled values come to what they come to on the
values themselves, relabeled: comparing and showing values, operators and builtins.

Scopes can be changed in the same way, in the scope around them and in the values they
hold. Names stay where they are, so looking up, declaring and assigning commute with that.
-/

import Scriptlet.Proofs.Output

namespace Scriptlet

/-- A change of function values that keeps their names and which of them are the same. -/
structure Relabeling where
  closure : Closure → Closure
  name : ∀ found, (closure found).procedure.name = found.procedure.name
  identity : ∀ first second,
    ((closure first).identity == (closure second).identity) = (first.identity == second.identity)

namespace Relabeling

mutual

/-- A value with its function values relabeled. -/
def value (relabeling : Relabeling) : Value → Value
  | .int value => .int value
  | .float value => .float value
  | .str value => .str value
  | .bool value => .bool value
  | .void => .void
  | .nil => .nil
  | .list items => .list (relabeling.values items)
  | .function closure => .function (relabeling.closure closure)

/-- Values with their function values relabeled. -/
def values (relabeling : Relabeling) : List Value → List Value
  | [] => []
  | first :: rest => relabeling.value first :: relabeling.values rest

end

variable (relabeling : Relabeling)

theorem values_eq (items : List Value) : relabeling.values items = items.map relabeling.value := by
  induction items with
  | nil => rfl
  | cons first rest inductionHypothesis => rw [values, inductionHypothesis, List.map_cons]

theorem value_list (items : List Value) :
    relabeling.value (.list items) = .list (items.map relabeling.value) := by
  rw [value, values_eq]

/-! ### What values show -/

@[simp] theorem type_value (value : Value) : (relabeling.value value).type = value.type := by
  cases value with
  | _ => rfl

@[simp] theorem toFloat?_value (value : Value) :
    (relabeling.value value).toFloat? = value.toFloat? := by
  cases value with
  | _ => rfl

@[simp] theorem isPlain_value (value : Value) :
    (relabeling.value value).isPlain = value.isPlain := by
  cases value with
  | _ => rfl

@[simp] theorem isText_value (value : Value) :
    (relabeling.value value).isText = value.isText := by
  cases value with
  | _ => rfl

@[simp] theorem isIndexable_value (value : Value) :
    (relabeling.value value).isIndexable = value.isIndexable := by
  cases value with
  | _ => rfl

@[simp] theorem expectBool_value (value : Value) :
    (relabeling.value value).expectBool = value.expectBool := by
  cases value with
  | _ => rfl

/-- A function shows its name and nothing else. -/
theorem display_closure (closure : Closure) :
    (relabeling.closure closure).display = closure.display := by
  rw [Closure.display, Closure.display, relabeling.name]

mutual

/-- Relabeled values are shown in the same way. -/
theorem display_value : ∀ value : Value, (relabeling.value value).display = value.display
  | .int _ | .float _ | .str _ | .bool _ | .void | .nil => rfl
  | .list items => by rw [value, Value.display, Value.display, displays_values items]
  | .function closure => relabeling.display_closure closure

theorem displays_values : ∀ items : List Value, displays (relabeling.values items) = displays items
  | [] => rfl
  | first :: rest => by
    rw [values, displays, displays, display_value first, displays_values rest]

end

mutual

/-- Relabeled values are equal exactly if the values are: functions are told apart by their
identities only, and a relabeling keeps which of them are the same. -/
theorem equal_value : ∀ left right : Value,
    (relabeling.value left).equal (relabeling.value right) = left.equal right
  | .list lefts, .list rights => by
    rw [value, value, Value.equal, Value.equal, equalLists_values lefts rights]
  | .function first, .function second => relabeling.identity first second
  | .list _, .int _ | .list _, .float _ | .list _, .str _ | .list _, .bool _ | .list _, .void
  | .list _, .nil | .list _, .function _ => rfl
  | .function _, .int _ | .function _, .float _ | .function _, .str _ | .function _, .bool _
  | .function _, .void | .function _, .nil | .function _, .list _ => rfl
  | .int _, right | .float _, right | .str _, right | .bool _, right | .void, right
  | .nil, right => by
    cases right with
    | _ => rfl

theorem equalLists_values : ∀ lefts rights : List Value,
    Value.equalLists (relabeling.values lefts) (relabeling.values rights) =
      Value.equalLists lefts rights
  | [], [] => rfl
  | [], _ :: _ => rfl
  | _ :: _, [] => rfl
  | left :: lefts, right :: rights => by
    rw [values, values, Value.equalLists, Value.equalLists, equal_value left right,
      equalLists_values lefts rights]

end

@[simp] theorem order?_value (left right : Value) :
    (relabeling.value left).order? (relabeling.value right) = left.order? right := by
  cases left with
  | _ =>
    cases right with
    | _ => rfl

/-! ### Operators -/

/-- A result without function values is its own relabeling. -/
def Unlabeled (result : Except RuntimeFault Value) : Prop :=
  result.map relabeling.value = result

variable {relabeling} in
theorem Unlabeled.ofInt (number : Int) : relabeling.Unlabeled (Value.ofInt number) := by
  unfold Unlabeled Value.ofInt
  split
  · rfl
  · rfl

/-- Numbers come to numbers, which hold no function. -/
theorem unlabeled_onInts (operation : Arithmetic) (left right : Int64) :
    relabeling.Unlabeled (operation.onInts left right) := by
  cases operation with
  | divide =>
    unfold Arithmetic.onInts
    dsimp only
    split
    · rfl
    · exact .ofInt _
  | remainder =>
    unfold Arithmetic.onInts
    dsimp only
    split
    · rfl
    · split
      · exact .ofInt _
      · rfl
  | _ => exact .ofInt _

theorem unlabeled_onFloats (operation : Arithmetic) (left right : Float) :
    relabeling.Unlabeled (operation.onFloats left right) := by
  cases operation with
  | divide =>
    unfold Arithmetic.onFloats
    dsimp only
    split
    · rfl
    · rfl
  | remainder =>
    unfold Arithmetic.onFloats
    dsimp only
    split
    · rfl
    · rfl
  | _ => rfl

/-- Arithmetic sees the types of its operands and what numbers they are. -/
theorem onNumbers_value (operation : Arithmetic) (left right : Value) :
    operation.onNumbers (relabeling.value left) (relabeling.value right) =
      (operation.onNumbers left right).map relabeling.value := by
  unfold Arithmetic.onNumbers Arithmetic.mismatch
  simp only [toFloat?_value, type_value]
  split
  · exact (relabeling.unlabeled_onFloats operation _ _).symm
  · rfl

/-- Texts are joined from what the operands show. -/
theorem join_value (left right : Value) :
    (relabeling.value left).join (relabeling.value right) =
      (left.join right).map relabeling.value := by
  unfold Value.join Arithmetic.mismatch
  simp only [isPlain_value, display_value, type_value]
  split
  · rfl
  · rfl

/-- Addition of values that are neither both integers nor both lists. -/
theorem added_value (left right : Value) :
    (if (relabeling.value left).isText || (relabeling.value right).isText then
        (relabeling.value left).join (relabeling.value right)
      else Arithmetic.add.onNumbers (relabeling.value left) (relabeling.value right)) =
      (if left.isText || right.isText then left.join right
        else Arithmetic.add.onNumbers left right).map relabeling.value := by
  rw [isText_value, isText_value]
  split
  · exact relabeling.join_value left right
  · exact relabeling.onNumbers_value .add left right

/-- Arithmetic on relabeled values comes to the relabeled result. Only the addition of two lists
gives function values on. -/
theorem arithmetic_value (operation : Arithmetic) (left right : Value) :
    operation.apply (relabeling.value left) (relabeling.value right) =
      (operation.apply left right).map relabeling.value := by
  have added := relabeling.added_value left right
  have numbers := relabeling.onNumbers_value operation left right
  cases left with
  | int first =>
    cases right with
    | int second => exact (relabeling.unlabeled_onInts operation first second).symm
    | _ =>
      cases operation with
      | add => exact added
      | _ => exact numbers
  | list items =>
    cases right with
    | list others =>
      cases operation with
      | add =>
        show Except.ok (Value.list (relabeling.values items ++ relabeling.values others)) =
          Except.ok (relabeling.value (.list (items ++ others)))
        rw [values_eq, values_eq, value_list, List.map_append]
      | _ => exact numbers
    | _ =>
      cases operation with
      | add => exact added
      | _ => exact numbers
  | _ =>
    cases operation with
    | add => exact added
    | _ => exact numbers

/-- An operator on relabeled operands comes to the relabeled result, or to the same fault. -/
theorem binary_value (op : BinaryOp) (left right : Value) :
    op.apply (relabeling.value left) (relabeling.value right) =
      (op.apply left right).map relabeling.value := by
  cases op with
  | arithmetic operation => exact relabeling.arithmetic_value operation left right
  | relation comparison =>
    simp only [BinaryOp.apply, Relation.test, order?_value]
    rfl
  | equal =>
    simp only [BinaryOp.apply, equal_value]
    rfl
  | notEqual =>
    simp only [BinaryOp.apply, equal_value]
    rfl

/-- An operator in front of a relabeled operand comes to the relabeled result, or to the same fault.
-/
theorem unary_value (op : UnaryOp) (value : Value) :
    op.apply (relabeling.value value) = (op.apply value).map relabeling.value := by
  cases op with
  | not =>
    cases value with
    | _ => rfl
  | negate =>
    cases value with
    | int number => exact (Unlabeled.ofInt _).symm
    | _ => rfl
  | update step yield =>
    cases value with
    | int number => exact (Unlabeled.ofInt _).symm
    | _ => rfl

/-- The index decides which item is taken, or which fault is reported, and not the items. -/
theorem elementAt_map {α β : Type} (change : α → β) (items : List α) (index : Int64) :
    elementAt (items.map change) index = (elementAt items index).map change := by
  unfold elementAt
  simp only [List.length_map, List.getElem?_map]
  split
  · rename_i place _
    cases items[place]? with
    | none => rfl
    | some item => rfl
  · rfl

/-- An element of a relabeled list is the relabeled element, and that of a text is the same. -/
theorem element_value (target : Value) (index : Int64) :
    (relabeling.value target).element index = (target.element index).map relabeling.value := by
  cases target with
  | list items =>
    rw [value_list]
    exact elementAt_map relabeling.value items index
  | str text =>
    show (elementAt text.toList index).map Value.ofChar =
      ((elementAt text.toList index).map Value.ofChar).map relabeling.value
    cases elementAt text.toList index with
    | ok character => rfl
    | error fault => rfl
  | _ => rfl

/-! ### Builtins -/

theorem expectList_value (value : Value) :
    (relabeling.value value).expectList = value.expectList.map (List.map relabeling.value) := by
  cases value with
  | list items =>
    rw [value_list]
    rfl
  | _ => rfl

theorem length_value (value : Value) :
    (relabeling.value value).length = value.length.map relabeling.value := by
  cases value with
  | list items =>
    rw [value_list, Value.length, Value.length, List.length_map]
    exact (Unlabeled.ofInt _).symm
  | str text => exact (Unlabeled.ofInt _).symm
  | _ => rfl

/-- A builtin of one argument comes to the relabeled result, or to the same fault. -/
theorem single_value (builtin : SingleBuiltin) (value : Value) :
    builtin.apply (relabeling.value value) = (builtin.apply value).map relabeling.value := by
  cases builtin with
  | assert =>
    simp only [SingleBuiltin.apply, expectBool_value]
    cases value.expectBool with
    | error fault => rfl
    | ok truth =>
      cases truth with
      | _ => rfl
  | str =>
    simp only [SingleBuiltin.apply, display_value]
    rfl
  | len => exact relabeling.length_value value
  | head =>
    simp only [SingleBuiltin.apply, expectList_value]
    cases value.expectList with
    | error fault => rfl
    | ok items =>
      cases items with
      | _ => rfl
  | rest =>
    simp only [SingleBuiltin.apply, expectList_value]
    cases value.expectList with
    | error fault => rfl
    | ok items =>
      cases items with
      | nil => rfl
      | cons first others => exact congrArg Except.ok (relabeling.value_list others).symm
  | isEmpty =>
    simp only [SingleBuiltin.apply, expectList_value]
    cases value.expectList with
    | error fault => rfl
    | ok items =>
      cases items with
      | _ => rfl
  | isNil =>
    cases value with
    | _ => rfl

/-- A line shows its items. -/
theorem line_map (items : List Value) :
    Value.line (items.map relabeling.value) = Value.line items := by
  rw [Value.line, Value.line, List.map_map]
  exact congrArg _ (List.map_congr_left fun item _ => relabeling.display_value item)

/-- A builtin writes the same texts. -/
theorem texts_map (builtin : Builtin) (arguments : List Value) :
    builtin.texts (arguments.map relabeling.value) = builtin.texts arguments := by
  rcases builtin with builtin | builtin
  · cases builtin with
    | list => rfl
    | _ => simp only [Builtin.texts, line_map]
  · rfl

/-- What a builtin comes to is relabeled with its arguments; a wrong number of arguments is wrong
before and after. -/
theorem result_map (builtin : Builtin) (arguments : List Value) :
    builtin.result (arguments.map relabeling.value) =
      (builtin.result arguments).map relabeling.value := by
  rcases builtin with builtin | builtin
  · cases builtin with
    | list => exact congrArg Except.ok (relabeling.value_list arguments).symm
    | _ => rfl
  · match arguments with
    | [] => rfl
    | [value] => exact relabeling.single_value builtin value
    | first :: second :: rest =>
      simp only [List.map_cons, Builtin.result, List.length_cons, List.length_map]
      rfl

end Relabeling

/-! ### Scopes -/

/-- A binding with another value. -/
def Binding.onValue (change : Value → Value) (binding : Binding) : Binding :=
  { binding with value := change binding.value }

namespace Scope

/-- A scope inside another one and with other values. -/
def onValues (move : ScopeId → ScopeId) (change : Value → Value) (scope : Scope) : Scope :=
  ⟨scope.parent.map move, scope.bindings.map (Binding.onValue change)⟩

variable (move : ScopeId → ScopeId) (change : Value → Value) (scope : Scope)

/-- A name is found where it was. -/
theorem find?_onValues (name : String) :
    (scope.onValues move change).find? name = (scope.find? name).map (Binding.onValue change) :=
  List.find?_map

theorem binds_onValues (name : String) :
    (scope.onValues move change).binds name = scope.binds name := by
  rw [binds, binds, find?_onValues, Option.isSome_map]

/-- Declaring hides the bindings of one name, whichever values they hold. -/
theorem define_onValues (binding : Binding) :
    (scope.onValues move change).define (binding.onValue change) =
      (scope.define binding).onValues move change := by
  unfold define onValues
  rw [List.map_cons, List.filter_map]
  rfl

/-- Assigning changes the bindings of one name, whichever values they hold. -/
theorem write_onValues (name : String) (value : Value) :
    (scope.onValues move change).write name (change value) =
      (scope.write name value).onValues move change := by
  unfold write onValues
  rw [List.map_map, List.map_map]
  refine congrArg _ (List.map_congr_left fun binding _ => ?_)
  show (if binding.name == name then { binding with value := change value }
      else binding.onValue change) =
    Binding.onValue change (if binding.name == name then { binding with value } else binding)
  split
  · rfl
  · rfl

end Scope

end Scriptlet
