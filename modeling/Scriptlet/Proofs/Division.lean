/-
This file proves that the quotient and the remainder of two integers fit together. One fails
exactly when the other does, and with the same fault: for a zero divisor, and for the least
integer divided by minus one. Otherwise the product of quotient and divisor lies between zero
and the dividend, and so does the remainder, so that putting the dividend together again cannot
leave the range of integers.
-/

import Scriptlet.Proofs.ExactArithmetic

namespace Scriptlet

/-! ### Whole numbers -/

/-- A remainder lies between zero and the dividend. -/
theorem tmod_between (left right : Int) :
    0 ≤ left.tmod right ∧ left.tmod right ≤ left ∨
      left ≤ left.tmod right ∧ left.tmod right ≤ 0 := by
  have size : (left.tmod right).natAbs ≤ left.natAbs := by
    rw [Int.natAbs_tmod]
    exact Nat.mod_le _ _
  rcases Int.le_total 0 left with nonneg | nonpos
  · have rest := Int.tmod_nonneg right nonneg
    omega
  · have rest := Int.tmod_nonneg right (Int.neg_nonneg_of_nonpos nonpos)
    rw [Int.neg_tmod] at rest
    omega

theorem fitsInt64_tmod {left : Int} (fits : fitsInt64 left) (right : Int) :
    fitsInt64 (left.tmod right) := by
  have between := tmod_between left right
  unfold fitsInt64 at *
  omega

/-- The part of the dividend that the divisor goes into lies between zero and the dividend. -/
theorem fitsInt64_tdiv_mul {left : Int} (fits : fitsInt64 left) (right : Int) :
    fitsInt64 (left.tdiv right * right) := by
  rw [Int.tdiv_mul_self]
  have between := tmod_between left right
  unfold fitsInt64 at *
  omega

theorem sign_tmod_cases (left right : Int) :
    left.tmod right = 0 ∨ (left.tmod right).sign = left.sign := by
  by_cases divides : right ∣ left
  · exact Or.inl (Int.tmod_eq_zero_of_dvd divides)
  · exact Or.inr ((Int.sign_tmod left right).trans (if_neg divides))

/-! ### Integers -/

theorem ofInt_of_fitsInt64 {number : Int} (fits : fitsInt64 number) :
    Value.ofInt number = .ok (.int (Int64.ofInt number)) :=
  if_pos fits

theorem ofInt_toInt (integer : Int64) : Value.ofInt integer.toInt = .ok (.int integer) := by
  rw [ofInt_of_fitsInt64 (fitsInt64_toInt integer), Int64.ofInt_toInt]

namespace Arithmetic

/-- A quotient and a remainder of two integers that give the dividend back. The remainder is
smaller than the divisor and, unless it is zero, has the sign of the dividend. -/
structure FitTogether (left right quotient rest : Int64) : Prop where
  restored : ∃ product : Int64,
    multiply.apply (.int quotient) (.int right) = .ok (.int product) ∧
      add.apply (.int product) (.int rest) = .ok (.int left)
  smaller : rest.toInt.natAbs < right.toInt.natAbs
  sign : rest = 0 ∨ rest.toInt.sign = left.toInt.sign

/-- The pairs of integers that cannot be divided. -/
def Indivisible (left right : Int64) : Prop :=
  right = 0 ∨ left = Int64.minValue ∧ right = -1

variable {left right : Int64}

/-- Quotient and remainder on whole numbers fit together if they are taken to integers. -/
theorem fitTogether_ofInt (divisor : right.toInt ≠ 0)
    (quotientFits : fitsInt64 (left.toInt.tdiv right.toInt)) :
    FitTogether left right (Int64.ofInt (left.toInt.tdiv right.toInt))
      (Int64.ofInt (left.toInt.tmod right.toInt)) := by
  have quotient := toInt_ofInt_of_fitsInt64 quotientFits
  have restFits := fitsInt64_tmod (fitsInt64_toInt left) right.toInt
  have rest := toInt_ofInt_of_fitsInt64 restFits
  have productFits := fitsInt64_tdiv_mul (fitsInt64_toInt left) right.toInt
  have product := toInt_ofInt_of_fitsInt64 productFits
  refine ⟨⟨Int64.ofInt (left.toInt.tdiv right.toInt * right.toInt), ?_, ?_⟩, ?_, ?_⟩
  · show Value.ofInt (_ * _) = _
    rw [quotient]
    exact ofInt_of_fitsInt64 productFits
  · show Value.ofInt (_ + _) = _
    rw [product, rest, Int.tdiv_mul_add_tmod]
    exact ofInt_toInt left
  · rw [rest, Int.natAbs_tmod]
    exact Nat.mod_lt _ (Int.natAbs_pos.mpr divisor)
  · rw [rest]
    refine (sign_tmod_cases left.toInt right.toInt).imp_left fun none => ?_
    rw [none]
    rfl

/-- Quotient and remainder come out in one of two ways: they share a fault, or they fit
together. -/
theorem division_cases (left right : Int64) :
    (∃ fault, Indivisible left right ∧
      divide.apply (.int left) (.int right) = .error fault ∧
      remainder.apply (.int left) (.int right) = .error fault) ∨
    ∃ quotient rest, ¬ Indivisible left right ∧
      divide.apply (.int left) (.int right) = .ok (.int quotient) ∧
      remainder.apply (.int left) (.int right) = .ok (.int rest) ∧
      FitTogether left right quotient rest := by
  by_cases zero : right = 0
  · subst zero
    exact Or.inl ⟨.divisionByZero, Or.inl rfl, rfl, rfl⟩
  · by_cases least : left = Int64.minValue ∧ right = -1
    · obtain ⟨rfl, rfl⟩ := least
      exact Or.inl ⟨.integerOverflow, Or.inr ⟨rfl, rfl⟩, rfl, rfl⟩
    · have divisor : right.toInt ≠ 0 := fun same => zero (Int64.toInt_inj.mp same)
      have quotientFits := fitsInt64_quotient_iff.mpr least
      refine Or.inr ⟨_, _, not_or.mpr ⟨zero, least⟩, ?_, ?_, fitTogether_ofInt divisor quotientFits⟩
      · exact (if_neg divisor).trans (ofInt_of_fitsInt64 quotientFits)
      · have restFits := fitsInt64_tmod (fitsInt64_toInt left) right.toInt
        exact ((if_neg divisor).trans (if_pos quotientFits)).trans (ofInt_of_fitsInt64 restFits)

end Arithmetic

/-- A quotient of two integers can be taken exactly if the remainder can, and neither can with the
same fault. Quotient and remainder that can be taken fit together: multiplying the quotient by the
divisor and adding the remainder gives the dividend, without an overflow on the way. Only a zero
divisor, and minus one for the least integer, stand in the way. -/
theorem quotient_and_remainder_fit (left right : Int64) :
    ((∃ quotient, Arithmetic.divide.apply (.int left) (.int right) = .ok quotient) ↔
      ∃ rest, Arithmetic.remainder.apply (.int left) (.int right) = .ok rest) ∧
    (∀ fault, Arithmetic.divide.apply (.int left) (.int right) = .error fault ↔
      Arithmetic.remainder.apply (.int left) (.int right) = .error fault) ∧
    (∀ quotient rest, Arithmetic.divide.apply (.int left) (.int right) = .ok quotient →
      Arithmetic.remainder.apply (.int left) (.int right) = .ok rest →
      ∃ whole part, quotient = .int whole ∧ rest = .int part ∧
        Arithmetic.FitTogether left right whole part) ∧
    ((∃ quotient, Arithmetic.divide.apply (.int left) (.int right) = .ok quotient) ↔
      ¬ Arithmetic.Indivisible left right) := by
  rcases Arithmetic.division_cases left right with
    ⟨fault, indivisible, divided, remained⟩ |
      ⟨whole, part, divisible, divided, remained, together⟩
  · rw [divided, remained]
    exact ⟨iff_of_false nofun nofun, fun _ => Iff.rfl, nofun,
      iff_of_false nofun (not_not_intro indivisible)⟩
  · rw [divided, remained]
    refine ⟨iff_of_true ⟨_, rfl⟩ ⟨_, rfl⟩, fun _ => iff_of_false nofun nofun, ?_,
      iff_of_true ⟨_, rfl⟩ divisible⟩
    rintro quotient rest ⟨⟩ ⟨⟩
    exact ⟨whole, part, rfl, rfl, together⟩

/-- The least integer divided by ten: the remainder is negative, as the dividend is. -/
theorem quotient_and_remainder_fit_least :
    Arithmetic.divide.apply (.int Int64.minValue) (.int 10) =
        .ok (.int (-922337203685477580)) ∧
      Arithmetic.remainder.apply (.int Int64.minValue) (.int 10) = .ok (.int (-8)) ∧
      ∃ whole part, Value.int (-922337203685477580) = .int whole ∧ Value.int (-8) = .int part ∧
        Arithmetic.FitTogether Int64.minValue 10 whole part :=
  ⟨rfl, rfl, (quotient_and_remainder_fit Int64.minValue 10).2.2.1 _ _ rfl rfl⟩

end Scriptlet
