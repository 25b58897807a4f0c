/-
This file proves that arithmetic on integers is exact or reported. What an operation should
give is said on whole numbers of any size, with a quotient as the cut-off fraction of its
operands. Of the five operations only the remainder falls short, and only for the least
integer divided by minus one: the remainder there is zero, but the quotient has left the
range, and it is the quotient that is asked.
-/

import Mathlib.Data.Rat.Floor
import Scriptlet.Operation

namespace Scriptlet

/-! ### Cutting off toward zero -/

/-- The whole number that is left of a fraction when it is cut off toward zero. -/
def truncate (fraction : ℚ) : Int :=
  if 0 ≤ fraction then ⌊fraction⌋ else ⌈fraction⌉

theorem truncate_of_nonneg {fraction : ℚ} (nonneg : 0 ≤ fraction) :
    truncate fraction = ⌊fraction⌋ :=
  if_pos nonneg

theorem truncate_neg (fraction : ℚ) : truncate (-fraction) = -truncate fraction := by
  unfold truncate
  rcases lt_trichotomy fraction 0 with negative | rfl | positive
  · rw [if_pos (neg_nonneg.mpr negative.le), if_neg negative.not_ge, Int.floor_neg]
  · simp
  · rw [if_neg (neg_neg_of_pos positive).not_ge, if_pos positive.le, Int.ceil_neg]

theorem truncate_natCast_div (left right : ℕ) :
    truncate ((left : ℚ) / right) = (left : Int).tdiv right := by
  have nonneg : (0 : ℚ) ≤ (left : ℚ) / right := div_nonneg left.cast_nonneg right.cast_nonneg
  rw [truncate_of_nonneg nonneg, Rat.floor_natCast_div_natCast, ← Int.ofNat_tdiv,
    Int.natCast_div]

/-- A fraction cut off toward zero is the quotient of its terms. -/
theorem truncate_div (left right : Int) :
    truncate ((left : ℚ) / right) = left.tdiv right := by
  -- the signs are taken out of both terms first, since each side turns with either of them
  have ofNat (left : Int) (right : ℕ) : truncate ((left : ℚ) / right) = left.tdiv right := by
    obtain ⟨size, rfl | rfl⟩ := left.eq_nat_or_neg
    · exact truncate_natCast_div size right
    · rw [Int.cast_neg, Int.cast_natCast, neg_div, truncate_neg, truncate_natCast_div,
        Int.neg_tdiv]
  obtain ⟨size, rfl | rfl⟩ := right.eq_nat_or_neg
  · exact ofNat left size
  · rw [Int.cast_neg, Int.cast_natCast, div_neg, truncate_neg, ofNat, Int.tdiv_neg]

/-! ### The range of integers -/

theorem fitsInt64_iff {number : Int} :
    fitsInt64 number ↔ -2 ^ 63 ≤ number ∧ number ≤ 2 ^ 63 - 1 :=
  Iff.rfl

theorem fitsInt64_toInt (integer : Int64) : fitsInt64 integer.toInt :=
  ⟨integer.le_toInt, Int.le_sub_one_of_lt integer.toInt_lt⟩

theorem toInt_ofInt_of_fitsInt64 {number : Int} (fits : fitsInt64 number) :
    (Int64.ofInt number).toInt = number :=
  Int64.toInt_ofInt_of_le fits.1 (Int.lt_of_le_sub_one fits.2)

/-- A quotient leaves the range only for the least integer divided by minus one. -/
theorem fitsInt64_tdiv_iff {left right : Int} (fits : fitsInt64 left) :
    fitsInt64 (left.tdiv right) ↔ ¬ (left = -2 ^ 63 ∧ right = -1) := by
  constructor
  · rintro quotientFits ⟨rfl, rfl⟩
    exact absurd quotientFits (by decide)
  · intro other
    by_cases unit : right.natAbs = 1
    · obtain rfl | rfl := Int.natAbs_eq_natAbs_iff.mp (unit.trans Int.natAbs_one.symm)
      · rwa [Int.tdiv_one]
      · rw [Int.tdiv_neg, Int.tdiv_one]
        unfold fitsInt64 at *
        omega
    · -- a divisor other than one, minus one and zero halves the size at least
      have size : (left.tdiv right).natAbs = left.natAbs / right.natAbs := Int.natAbs_tdiv _ _
      have halved : left.natAbs / right.natAbs ≤ left.natAbs / 2 := by
        rcases Nat.eq_zero_or_pos right.natAbs with none | some
        · rw [none, Nat.div_zero]
          exact Nat.zero_le _
        · exact Nat.div_le_div_left (by omega) (by decide)
      unfold fitsInt64 at *
      omega

/-! ### Exact results -/

/-- An outcome is a number exactly if the number is a 64-bit integer, and the report of an
overflow exactly if it is not. -/
structure ExactOrReported (outcome : Except RuntimeFault Value) (number : Int) : Prop where
  exact : (∃ integer : Int64, outcome = .ok (.int integer) ∧ integer.toInt = number) ↔
    -2 ^ 63 ≤ number ∧ number ≤ 2 ^ 63 - 1
  reported : outcome = .error .integerOverflow ↔ ¬ (-2 ^ 63 ≤ number ∧ number ≤ 2 ^ 63 - 1)

theorem exactOrReported_ofInt (number : Int) : ExactOrReported (Value.ofInt number) number := by
  unfold Value.ofInt
  by_cases fits : fitsInt64 number
  · have inside := fitsInt64_iff.mp fits
    rw [if_pos fits]
    exact ⟨iff_of_true ⟨_, rfl, toInt_ofInt_of_fitsInt64 fits⟩ inside,
      iff_of_false nofun (not_not_intro inside)⟩
  · have outside := mt fitsInt64_iff.mpr fits
    rw [if_neg fits]
    exact ⟨iff_of_false nofun outside, iff_of_true rfl outside⟩

theorem ofInt_ne_divisionByZero (number : Int) :
    Value.ofInt number ≠ .error .divisionByZero := by
  unfold Value.ofInt
  split <;> nofun

namespace Arithmetic

/-- What an operation on whole numbers should give, where it does not divide by zero. -/
def exactResult (operation : Arithmetic) (left right : Int) : Int :=
  match operation with
  | add => left + right
  | subtract => left - right
  | multiply => left * right
  | divide => truncate ((left : ℚ) / right)
  | remainder => left - right * truncate ((left : ℚ) / right)

theorem exactResult_divide (left right : Int) :
    divide.exactResult left right = left.tdiv right :=
  truncate_div left right

theorem exactResult_remainder (left right : Int) :
    remainder.exactResult left right = left.tmod right := by
  rw [exactResult, truncate_div, Int.tmod_def]

/-- Whether an operation would divide by zero. -/
def DividesByZero (operation : Arithmetic) (right : Int64) : Prop :=
  (operation = divide ∨ operation = remainder) ∧ right = 0

/-- An operation on two integers divides by zero exactly if that is its outcome, and gives its
exact result or reports that it is no 64-bit integer otherwise. -/
structure IsExactAt (operation : Arithmetic) (left right : Int64) : Prop where
  zeroDivisor : operation.apply (.int left) (.int right) = .error .divisionByZero ↔
    operation.DividesByZero right
  otherwise : ¬ operation.DividesByZero right →
    ExactOrReported (operation.apply (.int left) (.int right))
      (operation.exactResult left.toInt right.toInt)

variable {operation : Arithmetic} {left right : Int64}

/-- An operation whose outcome is that of its exact result is exact. -/
theorem isExactAt_of_apply (divides : ¬ operation.DividesByZero right)
    (outcome : operation.apply (.int left) (.int right) =
      Value.ofInt (operation.exactResult left.toInt right.toInt)) :
    operation.IsExactAt left right where
  zeroDivisor := by
    rw [outcome]
    exact iff_of_false (ofInt_ne_divisionByZero _) divides
  otherwise _ := by
    rw [outcome]
    exact exactOrReported_ofInt _

theorem isExactAt_of_dividesByZero (divides : operation.DividesByZero right) :
    operation.IsExactAt left right where
  zeroDivisor := by
    obtain ⟨rfl | rfl, rfl⟩ := divides <;> exact iff_of_true rfl ⟨by simp, rfl⟩
  otherwise proper := absurd divides proper

theorem divisor_ne_zero (divides : ¬ operation.DividesByZero right)
    (division : operation = divide ∨ operation = remainder) : right.toInt ≠ 0 :=
  fun zero => divides ⟨division, Int64.toInt_inj.mp zero⟩

theorem apply_divide (divides : ¬ divide.DividesByZero right) :
    divide.apply (.int left) (.int right) =
      Value.ofInt (divide.exactResult left.toInt right.toInt) := by
  rw [exactResult_divide]
  exact if_neg (divisor_ne_zero divides (Or.inl rfl))

theorem apply_remainder (divides : ¬ remainder.DividesByZero right)
    (quotientFits : fitsInt64 (left.toInt.tdiv right.toInt)) :
    remainder.apply (.int left) (.int right) =
      Value.ofInt (remainder.exactResult left.toInt right.toInt) := by
  rw [exactResult_remainder]
  exact (if_neg (divisor_ne_zero divides (Or.inr rfl))).trans (if_pos quotientFits)

/-- The quotient of two integers fits unless they are the least one and minus one. -/
theorem fitsInt64_quotient_iff :
    fitsInt64 (left.toInt.tdiv right.toInt) ↔ ¬ (left = Int64.minValue ∧ right = -1) := by
  rw [fitsInt64_tdiv_iff (fitsInt64_toInt left), ← Int64.toInt_inj, ← Int64.toInt_inj]
  rfl

theorem exactResult_remainder_least :
    remainder.exactResult Int64.minValue.toInt (-1) = 0 :=
  exactResult_remainder _ _

theorem apply_remainder_least :
    remainder.apply (.int Int64.minValue) (.int (-1)) = .error .integerOverflow :=
  rfl

/-- The least integer divided by minus one leaves no remainder, but an overflow is reported. -/
theorem not_isExactAt_remainder_least : ¬ remainder.IsExactAt Int64.minValue (-1) := by
  intro exactly
  have divides : ¬ remainder.DividesByZero (-1) := fun zero => absurd zero.2 (by decide)
  have outside := (exactly.otherwise divides).reported.mp apply_remainder_least
  rw [show (-1 : Int64).toInt = -1 from rfl, exactResult_remainder_least] at outside
  exact outside (by decide)

/-- An operation on two integers is exact unless it is the one remainder whose quotient
overflows. -/
theorem isExactAt_of_not_least
    (other : ¬ (operation = remainder ∧ left = Int64.minValue ∧ right = -1)) :
    operation.IsExactAt left right := by
  by_cases divides : operation.DividesByZero right
  · exact isExactAt_of_dividesByZero divides
  · refine isExactAt_of_apply divides ?_
    cases operation with
    | add => rfl
    | subtract => rfl
    | multiply => rfl
    | divide => exact apply_divide divides
    | remainder =>
      have quotientFits : fitsInt64 (left.toInt.tdiv right.toInt) :=
        fitsInt64_quotient_iff.mpr fun least => other ⟨rfl, least⟩
      exact apply_remainder divides quotientFits

end Arithmetic

/-- Arithmetic on integers is exact or reported, except for the remainder of the least integer
by minus one. A sign change and a step by one are so without exception. -/
theorem integers_exact_or_reported (operation : Arithmetic) (left right : Int64) (yield : Yield) :
    (operation.IsExactAt left right ↔
        ¬ (operation = .remainder ∧ left = Int64.minValue ∧ right = -1)) ∧
      ExactOrReported (UnaryOp.negate.apply (.int left)) (-left.toInt) ∧
      ExactOrReported ((UnaryOp.update .increment yield).apply (.int left)) (left.toInt + 1) ∧
      ExactOrReported ((UnaryOp.update .decrement yield).apply (.int left)) (left.toInt - 1) := by
  refine ⟨⟨?_, Arithmetic.isExactAt_of_not_least⟩, exactOrReported_ofInt _,
    exactOrReported_ofInt _, exactOrReported_ofInt _⟩
  rintro exactly ⟨rfl, rfl, rfl⟩
  exact Arithmetic.not_isExactAt_remainder_least exactly

/-- Not every operation on two integers is exact or reported: the least one divided by minus
one leaves the remainder zero, which is in range, and an overflow is reported. -/
theorem remainder_of_least_reported :
    Arithmetic.remainder.exactResult Int64.minValue.toInt (-1) = 0 ∧
      Arithmetic.remainder.apply (.int Int64.minValue) (.int (-1)) = .error .integerOverflow ∧
        ¬ ∀ (operation : Arithmetic) (left right : Int64), operation.IsExactAt left right :=
  ⟨Arithmetic.exactResult_remainder_least, Arithmetic.apply_remainder_least,
    fun always => Arithmetic.not_isExactAt_remainder_least (always _ _ _)⟩

end Scriptlet
