/-
This file proves that the comparisons agree with each other. Equality and order are told apart
by different rules: equality looks into lists and knows functions, order knows numbers and texts
only. Where two values have an order they are equal exactly if neither comes before the other,
so the relations of order and equality leave out no case and share none. Where they have no order
all relations fail, whether the values are equal or not.
-/

import Scriptlet.Operation
import Scriptlet.Proofs.Equality.NumberOrder

namespace Scriptlet

/-! ### Texts -/

namespace Text

theorem orderCharacters_eq_iff (lefts rights : List Char) :
    orderCharacters lefts rights = .eq ↔ lefts = rights := by
  induction lefts generalizing rights with
  | nil => cases rights <;> simp [orderCharacters]
  | cons first lefts inductionHypothesis =>
    cases rights with
    | nil => simp [orderCharacters]
    | cons second rights =>
      rw [orderCharacters, List.cons.injEq, ← inductionHypothesis, ← Char.toNat_inj]
      split
      · rename_i below
        exact iff_of_false (by decide) fun same => absurd same.1 below.ne
      · rename_i notBelow
        split
        · rename_i above
          exact iff_of_false (by decide) fun same => absurd same.1 above.ne'
        · rename_i notAbove
          exact (and_iff_right (Nat.le_antisymm (Nat.le_of_not_lt notAbove)
            (Nat.le_of_not_lt notBelow))).symm

/-- Only a text itself comes neither before nor after it. -/
theorem order_eq_iff (left right : String) : order left right = .eq ↔ left = right :=
  (orderCharacters_eq_iff left.toList right.toList).trans String.toList_inj

theorem order_swap (left right : String) : (order left right).swap = order right left :=
  orderCharacters_swap left.toList right.toList

end Text

namespace Double

theorem compareTotal_swap (left right : Float) :
    (compareTotal left right).swap = compareTotal right left :=
  Int.compare_swap (rank left) (rank right)

theorem compareTotal_eq_iff (left right : Float) :
    compareTotal left right = .eq ↔ equalTotal left right = true :=
  compare_eq_iff_eq.trans beq_iff_eq.symm

end Double

namespace Value

/-! ### Equality -/

mutual

theorem equal_self : ∀ value : Value, value.equal value = true
  | .int number => beq_self_eq_true number
  | .float number => Double.equalTotal_self number
  | .str text => beq_self_eq_true text
  | .bool truth => beq_self_eq_true truth
  | .void => rfl
  | .nil => rfl
  | .list items => equalLists_self items
  | .function closure => beq_self_eq_true closure.identity

theorem equalLists_self : ∀ items : List Value, equalLists items items = true
  | [] => rfl
  | item :: rest => Bool.and_eq_true_iff.mpr ⟨equal_self item, equalLists_self rest⟩

end

mutual

theorem equal_comm : ∀ left right : Value, left.equal right = right.equal left
  | .int left, right => by
    cases right with
    | int right => exact Bool.beq_comm
    | float right => exact Double.equalTotal_comm _ _
    | _ => rfl
  | .float left, right => by
    cases right with
    | int right => exact Double.equalTotal_comm _ _
    | float right => exact Double.equalTotal_comm _ _
    | _ => rfl
  | .str left, right => by
    cases right with
    | str right => exact Bool.beq_comm
    | _ => rfl
  | .bool left, right => by
    cases right with
    | bool right => exact Bool.beq_comm
    | _ => rfl
  | .void, right => by cases right <;> rfl
  | .nil, right => by cases right <;> rfl
  | .list lefts, right => by
    cases right with
    | list rights => exact equalLists_comm lefts rights
    | _ => rfl
  | .function left, right => by
    cases right with
    | function right => exact Bool.beq_comm
    | _ => rfl

theorem equalLists_comm : ∀ lefts rights : List Value,
    equalLists lefts rights = equalLists rights lefts
  | [], [] => rfl
  | [], _ :: _ => rfl
  | _ :: _, [] => rfl
  | left :: lefts, right :: rights =>
    congrArg₂ and (equal_comm left right) (equalLists_comm lefts rights)

end

/-! ### Order -/

theorem order?_swap (left right : Value) :
    right.order? left = (left.order? right).map Ordering.swap := by
  cases left with
  | int left =>
    cases right with
    | int right => exact congrArg some (Int.compare_swap left.toInt right.toInt).symm
    | float right => exact congrArg some (Double.compareTotal_swap _ _).symm
    | _ => rfl
  | float left =>
    cases right with
    | int right => exact congrArg some (Double.compareTotal_swap _ _).symm
    | float right => exact congrArg some (Double.compareTotal_swap _ _).symm
    | _ => rfl
  | str left =>
    cases right with
    | str right => exact congrArg some (Text.order_swap left right).symm
    | _ => rfl
  | _ => cases right <;> rfl

/-- Values that have an order are equal exactly if neither comes before the other. -/
theorem order?_eq_iff {left right : Value} {order : Ordering}
    (ordered : left.order? right = some order) : order = .eq ↔ left.equal right = true := by
  cases left with
  | int left =>
    cases right with
    | int right =>
      cases ordered
      exact compare_eq_iff_eq.trans (Int64.toInt_inj.trans beq_iff_eq.symm)
    | float right =>
      cases ordered
      exact Double.compareTotal_eq_iff _ _
    | _ => cases ordered
  | float left =>
    cases right with
    | int right =>
      cases ordered
      exact Double.compareTotal_eq_iff _ _
    | float right =>
      cases ordered
      exact Double.compareTotal_eq_iff _ _
    | _ => cases ordered
  | str left =>
    cases right with
    | str right =>
      cases ordered
      exact (Text.order_eq_iff left right).trans beq_iff_eq.symm
    | _ => cases ordered
  | _ => cases right <;> cases ordered

theorem equal_of_order {left right : Value} {order : Ordering}
    (ordered : left.order? right = some order) : left.equal right = order.isEq := by
  rw [Bool.eq_iff_iff, ← order?_eq_iff ordered, Ordering.isEq_iff_eq_eq]

end Value

namespace Relation

variable {left right : Value}

theorem test_of_order {order : Ordering} (ordered : left.order? right = some order)
    (relation : Relation) : relation.test left right = relation.holds order := by
  rw [test, ordered]

theorem test_of_unordered (unordered : left.order? right = none) (relation : Relation) :
    relation.test left right = false := by
  rw [test, unordered]

end Relation

/-! ### Comparisons -/

/-- Equality holds of every value and itself, and both ways. Order is turned round with the
values. Of two values in an order exactly one is less, equal or greater, equal being what the
language's equality says, and the other two relations are the disjunctions they are named for.
Values without an order stand in none of the relations. The operators yield these truth values,
and the one for inequality the other one. Doubles are in the order of their number format, with a
NaN equal to itself and above everything else. -/
theorem comparisons_coherent (left right : Value) :
    left.equal left = true ∧
    left.equal right = right.equal left ∧
    right.order? left = (left.order? right).map Ordering.swap ∧
    (match left.order? right with
      | some order =>
        (order = .eq ↔ left.equal right = true) ∧
        [Relation.less.test left right, left.equal right,
          Relation.greater.test left right].count true = 1 ∧
        Relation.lessOrEqual.test left right =
          (Relation.less.test left right || left.equal right) ∧
        Relation.greaterOrEqual.test left right =
          (Relation.greater.test left right || left.equal right)
      | none => ∀ relation : Relation, relation.test left right = false) ∧
    ((∀ relation, (BinaryOp.relation relation).apply left right =
        .ok (.bool (relation.test left right))) ∧
      BinaryOp.equal.apply left right = .ok (.bool (left.equal right)) ∧
      BinaryOp.notEqual.apply left right = .ok (.bool (!left.equal right))) ∧
    ∀ first second : Float,
      ((Value.float first).order? (.float second) = some .lt ↔
        first < second ∨ ¬ first.isNaN = true ∧ second.isNaN = true) ∧
      ((Value.float first).order? (.float second) = some .eq ↔
        (first == second) = true ∨ first.isNaN = true ∧ second.isNaN = true) := by
  refine ⟨left.equal_self, left.equal_comm right, left.order?_swap right, ?_,
    ⟨fun _ => rfl, rfl, rfl⟩, fun first second => ⟨?_, ?_⟩⟩
  · split
    · rename_i order ordered
      have tests := Relation.test_of_order ordered
      have equality := Value.equal_of_order ordered
      refine ⟨Value.order?_eq_iff ordered, ?_, ?_, ?_⟩
      · rw [tests, tests, equality]
        cases order <;> rfl
      · rw [tests, tests, equality]
        cases order <;> rfl
      · rw [tests, tests, equality]
        cases order <;> rfl
    · rename_i unordered
      exact Relation.test_of_unordered unordered
  · exact Option.some_inj.trans Double.compareTotal_eq_lt_iff
  · exact (Option.some_inj.trans (Double.compareTotal_eq_iff first second)).trans
      Double.equalTotal_iff

end Scriptlet
