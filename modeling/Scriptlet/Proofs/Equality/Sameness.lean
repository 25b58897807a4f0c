/-
This file compares the two equalities of values. The equality of data is the finer one: values
that are the same are equal. Equal values that are not the same hold, at one place of their lists,
two NaNs or an integer and the double it is promoted to. So without doubles the two equalities
are one.
-/

import Scriptlet.Proofs.Equality.NumberFormat
import Scriptlet.Value.Comparison

namespace Scriptlet

/-! ### Doubles -/

/-- Doubles are the same as the number format has it. -/
theorem Double.equalNumeric_eq_beq (left right : Float) :
    equalNumeric left right = (left == right) := by
  rw [Bool.eq_iff_iff, beq_iff_rank, equalNumeric, Bool.and_eq_true_iff, beq_iff_eq, bne_iff_ne,
    Ne, rank_eq_nanRank_iff]

namespace Value

variable {left right : Value}

mutual

/-- Whether a double is found in a value, at any depth of lists. -/
def hasFloat : Value → Bool
  | .float _ => true
  | .list items => hasFloatItem items
  | _ => false

/-- Whether a double is found in one of some values. -/
def hasFloatItem : List Value → Bool
  | [] => false
  | item :: items => item.hasFloat || hasFloatItem items

end

theorem hasFloatItem_of_getElem? {items : List Value} {item : Value} {index : Nat}
    (present : items[index]? = some item) (found : item.hasFloat = true) :
    hasFloatItem items = true := by
  induction items generalizing index with
  | nil => cases present
  | cons first others inductionHypothesis =>
    rw [hasFloatItem, Bool.or_eq_true_iff]
    cases index with
    | zero =>
      cases present
      exact Or.inl found
    | succ index => exact Or.inr (inductionHypothesis present)

/-- Two NaNs, or an integer and a double that is equal to the promoted integer, stand in two values
at the same place. -/
inductive FloatsApart : Value → Value → Prop where
  | notANumber {first second : Float} : first.isNaN = true → second.isNaN = true →
    FloatsApart (.float first) (.float second)
  | promotedLeft {integer : Int64} {number : Float} :
    Double.equalTotal (Double.ofInt64 integer) number = true →
    FloatsApart (.int integer) (.float number)
  | promotedRight {integer : Int64} {number : Float} :
    Double.equalTotal number (Double.ofInt64 integer) = true →
    FloatsApart (.float number) (.int integer)
  | items {lefts rights : List Value} {left right : Value} (index : Nat) :
    lefts[index]? = some left → rights[index]? = some right → FloatsApart left right →
    FloatsApart (.list lefts) (.list rights)

theorem FloatsApart.hasFloat (apart : FloatsApart left right) :
    left.hasFloat = true ∨ right.hasFloat = true := by
  induction apart with
  | notANumber isNaN isNaNSecond => exact Or.inl rfl
  | promotedLeft equal => exact Or.inr rfl
  | promotedRight equal => exact Or.inl rfl
  | items index atLeft atRight inner inductionHypothesis =>
    exact inductionHypothesis.imp (hasFloatItem_of_getElem? atLeft)
      (hasFloatItem_of_getElem? atRight)

theorem floatsApart_float_iff {first second : Float} :
    FloatsApart (.float first) (.float second) ↔ first.isNaN = true ∧ second.isNaN = true := by
  constructor
  · rintro (⟨isNaN, isNaNSecond⟩)
    exact ⟨isNaN, isNaNSecond⟩
  · rintro ⟨isNaN, isNaNSecond⟩
    exact .notANumber isNaN isNaNSecond

theorem not_floatsApart_nil : ¬ FloatsApart (.list []) (.list []) := by
  intro apart
  cases apart with
  | items index atLeft _ _ => cases atLeft

/-- Such a pair stands in two lists in their first items or in the others. -/
theorem floatsApart_cons_iff {lefts rights : List Value} :
    FloatsApart (.list (left :: lefts)) (.list (right :: rights)) ↔
      FloatsApart left right ∨ FloatsApart (.list lefts) (.list rights) := by
  constructor
  · intro apart
    cases apart with
    | items index atLeft atRight inner =>
      cases index with
      | zero =>
        cases atLeft
        cases atRight
        exact Or.inl inner
      | succ index => exact Or.inr (.items index atLeft atRight inner)
  · rintro (first | others)
    · exact .items 0 rfl rfl first
    · cases others with
      | items index atLeft atRight inner => exact .items (index + 1) atLeft atRight inner

/-! ### Values that are the same -/

theorem same_float_iff {first second : Float} :
    (Value.float first).same (.float second) = true ↔
      (Value.float first).equal (.float second) = true ∧
        ¬ FloatsApart (.float first) (.float second) := by
  show Double.equalNumeric first second = true ↔ Double.equalTotal first second = true ∧ _
  rw [Double.equalNumeric_eq_beq, Double.equalTotal_iff, floatsApart_float_iff, or_and_right,
    and_not_self_iff, or_false]
  refine (and_iff_left_of_imp fun numbers isNaN => ?_).symm
  exact (Double.beq_iff_rank.mp numbers).2 isNaN.1

theorem same_iff_of_agree (agree : left.same right = left.equal right)
    (together : ¬ FloatsApart left right) :
    left.same right = true ↔ left.equal right = true ∧ ¬ FloatsApart left right := by
  rw [agree, and_iff_left together]

mutual

/-- Values are the same if they are equal and not because of a NaN or a promoted integer. -/
theorem same_iff : ∀ left right : Value,
    left.same right = true ↔ left.equal right = true ∧ ¬ FloatsApart left right
  | .int integer, right => by
    cases right with
    | float number => exact iff_of_false nofun fun same => same.2 (.promotedLeft same.1)
    | _ => exact same_iff_of_agree rfl nofun
  | .float number, right => by
    cases right with
    | float other => exact same_float_iff
    | int integer => exact iff_of_false nofun fun same => same.2 (.promotedRight same.1)
    | _ => exact same_iff_of_agree rfl nofun
  | .list lefts, right => by
    cases right with
    | list rights => exact sameLists_iff lefts rights
    | _ => exact same_iff_of_agree rfl nofun
  | .str text, right => same_iff_of_agree (by cases right <;> rfl) nofun
  | .bool truth, right => same_iff_of_agree (by cases right <;> rfl) nofun
  | .void, right => same_iff_of_agree (by cases right <;> rfl) nofun
  | .nil, right => same_iff_of_agree (by cases right <;> rfl) nofun
  | .function closure, right => same_iff_of_agree (by cases right <;> rfl) nofun

theorem sameLists_iff : ∀ lefts rights : List Value,
    sameLists lefts rights = true ↔
      equalLists lefts rights = true ∧ ¬ FloatsApart (.list lefts) (.list rights)
  | [], [] => iff_of_true rfl ⟨rfl, not_floatsApart_nil⟩
  | [], _ :: _ => iff_of_false nofun fun same => nomatch same.1
  | _ :: _, [] => iff_of_false nofun fun same => nomatch same.1
  | left :: lefts, right :: rights => by
    rw [sameLists, equalLists, Bool.and_eq_true_iff, Bool.and_eq_true_iff, same_iff left right,
      sameLists_iff lefts rights, floatsApart_cons_iff, not_or, and_and_and_comm]

end

/-- Values that are the same are equal, and without doubles in them equal values are the same. The
two equalities tell apart only values that are equal and hold, at the same place, two NaNs or an
integer and a double that is equal to the promoted integer. Doubles are the same as the number
format has it. -/
theorem same_refines_equal (left right : Value) :
    (left.same right = true → left.equal right = true) ∧
    (left.hasFloat = false → right.hasFloat = false → left.same right = left.equal right) ∧
    (left.same right ≠ left.equal right ↔ left.equal right = true ∧ FloatsApart left right) ∧
    ∀ first second : Float, (Value.float first).same (.float second) = (first == second) := by
  refine ⟨fun same => ((same_iff left right).mp same).1, fun free freeRight => ?_, ?_,
    Double.equalNumeric_eq_beq⟩
  · have together : ¬ FloatsApart left right := fun apart =>
      apart.hasFloat.elim (Bool.eq_false_iff.mp free) (Bool.eq_false_iff.mp freeRight)
    rw [Bool.eq_iff_iff, same_iff, and_iff_left together]
  · rw [Ne, Bool.eq_iff_iff, same_iff]
    tauto

/-- Two nested lists without doubles. -/
theorem same_refines_equal_nested :
    (Value.list [.int 1, .list [.nil]]).equal (.list [.int 1, .list [.nil]]) = true ∧
      (Value.list [.int 1, .list [.nil]]).same (.list [.int 1, .list []]) =
        (Value.list [.int 1, .list [.nil]]).equal (.list [.int 1, .list []]) :=
  ⟨(same_refines_equal _ _).1 (by decide), (same_refines_equal _ _).2.1 (by decide) (by decide)⟩

/-- A list with an integer is equal to one with the promoted integer, and not the same. -/
example : (Value.list [.int 1]).equal (.list [.float 1.0]) = true ∧
    (Value.list [.int 1]).same (.list [.float 1.0]) = false := by decide

end Value

end Scriptlet
