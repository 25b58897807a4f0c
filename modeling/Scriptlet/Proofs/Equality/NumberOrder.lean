/-
This file relates the order of doubles by rank to the order of the number format. The format
compares numbers by their signs, then by their exponents and then by their significands; the
rank has all three in one whole number. So of two doubles other than a NaN the lesser one has the
lower rank, and a NaN, which the format does not order, ranks above all of them.
-/

import Scriptlet.Proofs.Equality.NumberFormat

namespace Scriptlet.Double

open Float.Model (UnpackedFloat)
open Float.Model.UnpackedFloat

/-! ### Ranks of what is read -/

/-- The significand and the exponent of a number other than zero, as they are read from bits: the
leading place is filled unless the exponent is the least one. -/
structure Canonical (significand : Nat) (exponent : Int) : Prop where
  positive : 0 < significand
  short : significand < 2 ^ 53
  least : -1074 ≤ exponent
  most : exponent ≤ 971
  filled : exponent ≠ -1074 → 2 ^ 52 ≤ significand

/-- The rank of the number with a significand and an exponent, regardless of its sign. -/
def level (significand : Nat) (exponent : Int) : Int :=
  significand + (exponent + 1074) * 2 ^ 52

/-- The rank of a number that is read. -/
inductive Ranked : UnpackedFloat → Int → Prop where
  | infinity (sign : Sign) : Ranked (.infinity sign) (sign.apply (2047 * 2 ^ 52))
  | zero (sign : Sign) : Ranked (.zero sign) 0
  | finite (sign : Sign) {significand : Nat} {exponent : Int} (positive : 0 < significand) :
    Canonical significand exponent →
    Ranked (.finite sign significand exponent positive) (sign.apply (level significand exponent))

/-- The rank of bits, by their fields. -/
theorem apply_signOf {bits : Nat} (room : bits < 2 ^ 64) :
    (signOf bits).apply (biasedOf bits * 2 ^ 52 + fractionOf bits) =
      if bits < 2 ^ 63 then (bits : Int) else 2 ^ 63 - (bits : Int) := by
  unfold signOf biasedOf fractionOf
  split
  · rw [Sign.apply]
    omega
  · rw [Sign.apply]
    omega

theorem Reads.ranked {bits : Nat} {read : UnpackedFloat} (reads : Reads bits read)
    (number : read ≠ .notANumber) :
    Ranked read ((signOf bits).apply (biasedOf bits * 2 ^ 52 + fractionOf bits)) := by
  have fractionBelow : fractionOf bits < 2 ^ 52 := Nat.mod_lt _ (Nat.two_pow_pos 52)
  cases reads with
  | infinity last none same =>
    rw [same, last, none]
    exact .infinity _
  | notANumber _ _ same => exact absurd same number
  | zero first none same =>
    rw [same, first, none]
    have nothing : (signOf bits).apply 0 = 0 := by cases signOf bits <;> rfl
    rw [show ((0 : Nat) : Int) * 2 ^ 52 + (0 : Nat) = 0 from rfl, nothing]
    exact .zero _
  | small positive first same =>
    have sameLevel : ((0 : Nat) : Int) * 2 ^ 52 + fractionOf bits =
        level (fractionOf bits) (-1074) := by
      unfold level
      omega
    rw [same, first, sameLevel]
    exact .finite _ _ ⟨positive, by omega, by omega, by omega, by omega⟩
  | filled positive notFirst notLast same =>
    have sameLevel : (biasedOf bits : Int) * 2 ^ 52 + fractionOf bits =
        level (2 ^ 52 + fractionOf bits) (biasedOf bits - 1075) := by
      unfold level
      omega
    rw [same, sameLevel]
    exact .finite _ _ ⟨positive, by omega, by omega, by omega, by omega⟩

theorem ranked_unpack {number : Float} (proper : ¬ number.isNaN = true) :
    Ranked number.toModel.unpack (rank number) := by
  rw [rank_of_number proper, ← apply_signOf number.toBits.toNat_lt]
  exact (reads_toBits number).ranked (mt isNaN_iff.mpr proper)

/-! ### The order of the number format -/

section

variable {significand digits : Nat} {exponent place : Int}

theorem Canonical.level_pos (canonical : Canonical significand exponent) :
    0 < level significand exponent := by
  obtain ⟨positive, -, least, -, -⟩ := canonical
  unfold level
  omega

theorem Canonical.level_lt (canonical : Canonical significand exponent) :
    level significand exponent < 2047 * 2 ^ 52 := by
  obtain ⟨-, short, -, most, -⟩ := canonical
  unfold level
  omega

theorem Canonical.bounded (canonical : Canonical significand exponent) (sign : Sign) :
    -(2047 * 2 ^ 52) < sign.apply (level significand exponent) ∧
      sign.apply (level significand exponent) < 2047 * 2 ^ 52 := by
  have low := canonical.level_pos
  have high := canonical.level_lt
  cases sign with
  | negative =>
    rw [Sign.apply]
    omega
  | positive =>
    rw [Sign.apply]
    omega

/-- A larger exponent counts for more than any significand. -/
theorem Canonical.level_lt_of_lt (canonical : Canonical significand exponent)
    (other : Canonical digits place) (lower : exponent < place) :
    level significand exponent < level digits place := by
  have long := other.filled (by have := canonical.least; omega)
  have short := canonical.short
  unfold level
  omega

/-- Comparing the exponents and then the significands is comparing the ranks. -/
theorem Canonical.compare_eq (canonical : Canonical significand exponent)
    (other : Canonical digits place) :
    (compare exponent place).then (compare significand digits) =
      compare (level significand exponent) (level digits place) := by
  rcases lt_trichotomy exponent place with lower | rfl | higher
  · rw [compare_lt_iff_lt.mpr lower, compare_lt_iff_lt.mpr (canonical.level_lt_of_lt other lower)]
    rfl
  · rw [compare_eq_iff_eq.mpr rfl]
    show compare significand digits = _
    unfold level
    rcases lt_trichotomy significand digits with less | rfl | more
    · rw [compare_lt_iff_lt.mpr less, compare_lt_iff_lt.mpr (by omega)]
    · rw [compare_eq_iff_eq.mpr rfl, compare_eq_iff_eq.mpr rfl]
    · rw [compare_gt_iff_gt.mpr more, compare_gt_iff_gt.mpr (by omega)]
  · rw [compare_gt_iff_gt.mpr higher, compare_gt_iff_gt.mpr (other.level_lt_of_lt canonical higher)]
    rfl

end

theorem compare_neg_neg (first second : Int) :
    compare (-first) (-second) = (compare first second).swap := by
  rw [Int.compare_swap]
  rcases lt_trichotomy first second with less | rfl | more
  · rw [compare_gt_iff_gt.mpr less, compare_gt_iff_gt.mpr (Int.neg_lt_neg less)]
  · rw [compare_eq_iff_eq.mpr rfl, compare_eq_iff_eq.mpr rfl]
  · rw [compare_lt_iff_lt.mpr more, compare_lt_iff_lt.mpr (Int.neg_lt_neg more)]

theorem some_lt {first second : Int} (less : first < second) :
    some .lt = some (compare first second) :=
  congrArg some (compare_lt_iff_lt.mpr less).symm

theorem some_gt {first second : Int} (more : second < first) :
    some .gt = some (compare first second) :=
  congrArg some (compare_gt_iff_gt.mpr more).symm

/-- The format compares numbers as their ranks are compared. -/
theorem Ranked.compare_eq {first second : UnpackedFloat} {place other : Int}
    (ranked : Ranked first place) (rankedOther : Ranked second other) :
    first.compare second = some (compare place other) := by
  cases ranked with
  | infinity sign =>
    cases rankedOther with
    | infinity another => cases sign <;> cases another <;> rfl
    | zero another => cases sign <;> rfl
    | finite another positive canonical =>
      obtain ⟨above, below⟩ := canonical.bounded another
      cases sign with
      | negative => exact some_lt above
      | positive => exact some_gt below
  | zero sign =>
    cases rankedOther with
    | infinity another => cases another <;> rfl
    | zero another => rfl
    | finite another positive canonical =>
      cases another with
      | negative => exact some_gt (Int.neg_neg_of_pos canonical.level_pos)
      | positive => exact some_lt canonical.level_pos
  | finite sign positive canonical =>
    obtain ⟨above, below⟩ := canonical.bounded sign
    have low := canonical.level_pos
    cases rankedOther with
    | infinity another =>
      cases another with
      | negative => cases sign <;> exact some_gt above
      | positive => cases sign <;> exact some_lt below
    | zero another =>
      cases sign with
      | negative => exact some_lt (Int.neg_neg_of_pos low)
      | positive => exact some_gt low
    | finite another positiveOther canonicalOther =>
      have lowOther := canonicalOther.level_pos
      cases sign with
      | negative =>
        cases another with
        | negative =>
          show some (Ordering.swap _) = some (compare (-_) (-_))
          rw [canonical.compare_eq canonicalOther, compare_neg_neg]
        | positive => exact some_lt ((Int.neg_neg_of_pos low).trans lowOther)
      | positive =>
        cases another with
        | negative => exact some_gt ((Int.neg_neg_of_pos lowOther).trans low)
        | positive => exact congrArg some (canonical.compare_eq canonicalOther)

/-! ### Doubles -/

variable {left right : Float}

/-- Of two doubles other than a NaN the lesser one has the lower rank; a NaN is neither less nor
greater. -/
theorem lt_iff_rank : left < right ↔
    rank left < rank right ∧ ¬ left.isNaN = true ∧ ¬ right.isNaN = true := by
  have format : left < right ↔ left.toModel.unpack.compare right.toModel.unpack = some .lt := by
    show decide (left.toModel < right.toModel) = true ↔ _
    rw [decide_eq_true_iff]
    exact beq_iff_eq
  rw [format]
  by_cases isNaN : left.isNaN = true
  · rw [isNaN_iff.mp isNaN]
    exact iff_of_false nofun fun proper => proper.2.1 isNaN
  · by_cases isNaNRight : right.isNaN = true
    · rw [isNaN_iff.mp isNaNRight]
      refine iff_of_false ?_ fun proper => proper.2.2 isNaNRight
      cases left.toModel.unpack <;> nofun
    · rw [(ranked_unpack isNaN).compare_eq (ranked_unpack isNaNRight), Option.some_inj,
        compare_lt_iff_lt]
      exact ⟨fun less => ⟨less, isNaN, isNaNRight⟩, fun proper => proper.1⟩

theorem rank_lt_nanRank (number : ¬ left.isNaN = true) : rank left < nanRank := by
  rw [rank_of_number number]
  show _ < (2 : Int) ^ 63
  split <;> omega

/-- The order of doubles by rank is that of the number format, with a NaN above all else. -/
theorem compareTotal_eq_lt_iff : compareTotal left right = .lt ↔
    left < right ∨ ¬ left.isNaN = true ∧ right.isNaN = true := by
  rw [compareTotal, compare_lt_iff_lt, lt_iff_rank]
  by_cases isNaN : left.isNaN = true
  · refine iff_of_false (fun less => ?_) (by tauto)
    rw [rank_of_isNaN isNaN] at less
    by_cases isNaNRight : right.isNaN = true
    · rw [rank_of_isNaN isNaNRight] at less
      exact lt_irrefl _ less
    · exact lt_asymm less (rank_lt_nanRank isNaNRight)
  · by_cases isNaNRight : right.isNaN = true
    · refine iff_of_true ?_ (Or.inr ⟨isNaN, isNaNRight⟩)
      rw [rank_of_isNaN isNaNRight]
      exact rank_lt_nanRank isNaN
    · tauto

end Scriptlet.Double
