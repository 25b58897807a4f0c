/-
This file relates the order of doubles by rank to the number format. Doubles of one rank are
those that the format calls equal, and the NaNs, which it does not. A double other than a NaN
is told by its sign, its exponent and its fraction, and the two zeros are the only different
ones that are equal.
-/

import Mathlib
import Scriptlet.Double

namespace Scriptlet.Double

open Float.Model (Format UnpackedFloat)
open Float.Model.UnpackedFloat

/-! ### Fields of a word -/

/-- The sign of the double with the given bits. -/
def signOf (bits : Nat) : Sign :=
  if bits < 2 ^ 63 then .positive else .negative

/-- The exponent of the double with the given bits, counted from the least one. -/
def biasedOf (bits : Nat) : Nat :=
  bits / 2 ^ 52 % 2048

/-- The places behind the leading one of the double with the given bits. -/
def fractionOf (bits : Nat) : Nat :=
  bits % 2 ^ 52

theorem signOf_eq_positive_iff {bits : Nat} : signOf bits = .positive ↔ bits < 2 ^ 63 := by
  unfold signOf
  split
  · rename_i below
    exact iff_of_true rfl below
  · rename_i notBelow
    exact iff_of_false nofun notBelow

/-- Bits are told by their fields. -/
theorem eq_of_fields {bits other : Nat} (room : bits < 2 ^ 64) (roomOther : other < 2 ^ 64)
    (signs : signOf bits = signOf other) (exponents : biasedOf bits = biasedOf other)
    (fractions : fractionOf bits = fractionOf other) : bits = other := by
  have halves : bits < 2 ^ 63 ↔ other < 2 ^ 63 := by
    rw [← signOf_eq_positive_iff, signs, signOf_eq_positive_iff]
  unfold biasedOf at exponents
  unfold fractionOf at fractions
  omega

/-- What the number format reads from bits. -/
inductive Reads (bits : Nat) (read : UnpackedFloat) : Prop where
  | infinity : biasedOf bits = 2047 → fractionOf bits = 0 → read = .infinity (signOf bits) →
    Reads bits read
  | notANumber : biasedOf bits = 2047 → fractionOf bits ≠ 0 → read = .notANumber → Reads bits read
  | zero : biasedOf bits = 0 → fractionOf bits = 0 → read = .zero (signOf bits) → Reads bits read
  | small (positive : 0 < fractionOf bits) : biasedOf bits = 0 →
    read = .finite (signOf bits) (fractionOf bits) (-1074) positive → Reads bits read
  | filled (positive : 0 < 2 ^ 52 + fractionOf bits) : 0 < biasedOf bits → biasedOf bits < 2047 →
    read = .finite (signOf bits) (2 ^ 52 + fractionOf bits) (biasedOf bits - 1075) positive →
    Reads bits read

theorem finite_eq {sign : Sign} {first second : Nat} {place other : Int} {positive : 0 < first}
    {positiveSecond : 0 < second} (same : first = second) (samePlace : place = other) :
    UnpackedFloat.finite sign first place positive = .finite sign second other positiveSecond := by
  subst same samePlace
  rfl

/-- The leading place stands in front of the fraction. -/
theorem toNat_led (fraction : BitVec 52) : (1#1 ++ fraction).toNat = 2 ^ 52 + fraction.toNat := by
  rw [BitVec.toNat_append, ← Nat.shiftLeft_add_eq_or_of_lt fraction.isLt]
  rfl

section

variable (word : BitVec Format.binary64.numBits)

theorem ofBitVec_unpackSign : Sign.ofBitVec (unpackSign word) = signOf word.toNat := by
  have room : word.toNat < 2 ^ 64 := word.isLt
  have field : (unpackSign word).toNat = word.toNat / 2 ^ 63 := by
    show (word.extractLsb' 63 1).toNat = _
    rw [BitVec.extractLsb'_toNat, Nat.shiftRight_eq_div_pow]
    omega
  have clear : unpackSign word = 0#1 ↔ word.toNat < 2 ^ 63 := by
    rw [← BitVec.toNat_inj, field, BitVec.toNat_ofNat]
    omega
  unfold Sign.ofBitVec signOf
  simp only [clear]

theorem toNat_unpackExponent : (unpackExponent word).toNat = biasedOf word.toNat := by
  show (word.extractLsb' 52 11).toNat = _
  rw [BitVec.extractLsb'_toNat, Nat.shiftRight_eq_div_pow]
  rfl

theorem toNat_unpackMantissa : (unpackMantissa word).toNat = fractionOf word.toNat := by
  show (word.extractLsb' 0 52).toNat = _
  rw [BitVec.extractLsb'_toNat, Nat.shiftRight_zero]
  rfl

theorem reads_unpack : Reads word.toNat (unpack Format.binary64 word) := by
  have last : unpackExponent word = -1#11 ↔ biasedOf word.toNat = 2047 := by
    rw [← BitVec.toNat_inj, toNat_unpackExponent]
    rfl
  have first : unpackExponent word = 0#11 ↔ biasedOf word.toNat = 0 := by
    rw [← BitVec.toNat_inj, toNat_unpackExponent]
    rfl
  have none : unpackMantissa word = 0#52 ↔ fractionOf word.toNat = 0 := by
    rw [← BitVec.toNat_inj, toNat_unpackMantissa]
    rfl
  have below : biasedOf word.toNat < 2048 := Nat.mod_lt _ (by decide)
  unfold unpack
  simp only [ofBitVec_unpackSign]
  split
  · rename_i isLast
    split
    · rename_i isNone
      exact .infinity (last.mp isLast) (none.mp isNone) rfl
    · rename_i some
      exact .notANumber (last.mp isLast) (mt none.mpr some) rfl
  · rename_i notLast
    split
    · rename_i isFirst
      split
      · rename_i isNone
        exact .zero (first.mp isFirst) (none.mp isNone) rfl
      · rename_i some
        refine .small (Nat.pos_of_ne_zero (mt none.mpr some)) (first.mp isFirst) ?_
        refine finite_eq (toNat_unpackMantissa word) ?_
        rw [toNat_unpackExponent, first.mp isFirst]
        rfl
    · rename_i notFirst
      have notLastField := mt last.mpr notLast
      have notFirstField := mt first.mpr notFirst
      refine .filled (by omega) (by omega) (by omega) ?_
      refine finite_eq ?_ ?_
      · rw [← toNat_unpackMantissa]
        exact toNat_led _
      · rw [toNat_unpackExponent]
        rfl

end

/-- The fields that a number is written with. -/
def fieldsOf : UnpackedFloat → Sign × Nat × Nat
  | .notANumber => (.positive, 2047, 2 ^ 51)
  | .infinity sign => (sign, 2047, 0)
  | .zero sign => (sign, 0, 0)
  | .finite sign significand exponent _ =>
    if significand < 2 ^ 52 then (sign, 0, significand)
    else (sign, (exponent + 1075).toNat, significand - 2 ^ 52)

namespace Reads

variable {bits other : Nat} {read : UnpackedFloat}

/-- A number that is read is written with the fields it was read from. -/
theorem fields_eq (reads : Reads bits read) (number : read ≠ .notANumber) :
    fieldsOf read = (signOf bits, biasedOf bits, fractionOf bits) := by
  cases reads with
  | infinity last none same => rw [same, fieldsOf, last, none]
  | notANumber _ _ same => exact absurd same number
  | zero first none same => rw [same, fieldsOf, first, none]
  | small positive first same =>
    have below : fractionOf bits < 2 ^ 52 := Nat.mod_lt _ (Nat.two_pow_pos 52)
    rw [same, fieldsOf, if_pos below, first]
  | filled positive notFirst notLast same =>
    have exponent : ((biasedOf bits : Int) - 1075 + 1075).toNat = biasedOf bits := by omega
    rw [same, fieldsOf, if_neg (by omega), exponent, Nat.add_sub_cancel_left]

/-- Bits of the same number are the same. -/
theorem bits_eq (reads : Reads bits read) (readsOther : Reads other read)
    (room : bits < 2 ^ 64) (roomOther : other < 2 ^ 64) (number : read ≠ .notANumber) :
    bits = other := by
  have fields := (reads.fields_eq number).symm.trans (readsOther.fields_eq number)
  injection fields with signs fields
  injection fields with exponents fractions
  exact eq_of_fields room roomOther signs exponents fractions

theorem notANumber_iff (reads : Reads bits read) :
    read = .notANumber ↔ biasedOf bits = 2047 ∧ fractionOf bits ≠ 0 := by
  cases reads with
  | infinity last none same => exact iff_of_false (by rw [same]; nofun) fun is => is.2 none
  | notANumber last some same => exact iff_of_true same ⟨last, some⟩
  | zero first none same => exact iff_of_false (by rw [same]; nofun) fun is => is.2 none
  | small positive first same =>
    exact iff_of_false (by rw [same]; nofun) fun is => by omega
  | filled positive notFirst notLast same =>
    exact iff_of_false (by rw [same]; nofun) fun is => by omega

theorem zero_iff (reads : Reads bits read) (room : bits < 2 ^ 64) :
    (∃ sign, read = .zero sign) ↔ bits = 0 ∨ bits = 2 ^ 63 := by
  have fields : biasedOf bits = 0 ∧ fractionOf bits = 0 ↔ bits = 0 ∨ bits = 2 ^ 63 := by
    unfold biasedOf fractionOf
    omega
  rw [← fields]
  cases reads with
  | infinity last none same => exact iff_of_false (by rw [same]; nofun) fun is => by omega
  | notANumber last some same => exact iff_of_false (by rw [same]; nofun) fun is => some is.2
  | zero first none same => exact iff_of_true ⟨_, same⟩ ⟨first, none⟩
  | small positive first same => exact iff_of_false (by rw [same]; nofun) fun is => by omega
  | filled positive notFirst notLast same =>
    exact iff_of_false (by rw [same]; nofun) fun is => by omega

end Reads

/-! ### Equality in the number format -/

/-- Numbers of one sign are equal if their parts are. -/
theorem finite_beq_iff {sign other : Sign} {significand digits : Nat} {exponent place : Int}
    {positive : 0 < significand} {positiveOther : 0 < digits} :
    (UnpackedFloat.finite sign significand exponent positive).beq
        (.finite other digits place positiveOther) = true ↔
      sign = other ∧ significand = digits ∧ exponent = place := by
  cases sign <;> cases other <;>
    simp [UnpackedFloat.beq, UnpackedFloat.compare, Ordering.then_eq_eq, and_comm]

theorem infinity_beq_iff {sign other : Sign} :
    (UnpackedFloat.infinity sign).beq (.infinity other) = true ↔ sign = other := by
  cases sign with
  | negative =>
    cases other with
    | negative => exact iff_of_true rfl rfl
    | positive => exact iff_of_false nofun nofun
  | positive =>
    cases other with
    | negative => exact iff_of_false nofun nofun
    | positive => exact iff_of_true rfl rfl

/-- Numbers are equal if they are the same, or both zero. -/
theorem beq_iff {first second : UnpackedFloat} :
    first.beq second = true ↔
      first = second ∧ first ≠ .notANumber ∨
        (∃ sign, first = .zero sign) ∧ ∃ sign, second = .zero sign := by
  cases first with
  | notANumber => simp [UnpackedFloat.beq, UnpackedFloat.compare]
  | infinity sign =>
    cases second with
    | infinity other => simp [infinity_beq_iff]
    | _ => cases sign <;> simp [UnpackedFloat.beq, UnpackedFloat.compare]
  | zero sign =>
    cases second with
    | notANumber => simp [UnpackedFloat.beq, UnpackedFloat.compare]
    | zero other => simp [UnpackedFloat.beq, UnpackedFloat.compare]
    | infinity other => cases other <;> simp [UnpackedFloat.beq, UnpackedFloat.compare]
    | finite other => cases other <;> simp [UnpackedFloat.beq, UnpackedFloat.compare]
  | finite sign significand exponent positive =>
    cases second with
    | finite other digits place positiveOther => simp [finite_beq_iff]
    | infinity other => cases other <;> simp [UnpackedFloat.beq, UnpackedFloat.compare]
    | _ => cases sign <;> simp [UnpackedFloat.beq, UnpackedFloat.compare]

/-! ### Ranks -/

variable {left right : Float}

theorem reads_toBits (number : Float) :
    Reads number.toBits.toNat number.toModel.unpack :=
  reads_unpack number.toModel.toBits.toBitVec

theorem isNaN_iff : left.isNaN = true ↔ left.toModel.unpack = .notANumber := by
  show left.toModel.unpack.isNaN = true ↔ _
  cases left.toModel.unpack <;> simp [UnpackedFloat.isNaN]

theorem ofFloat_eq_nan_iff : Binary64.ofFloat left = .nan ↔ left.isNaN = true := by
  rw [isNaN_iff, (reads_toBits left).notANumber_iff]
  show (if biasedOf left.toBits.toNat = 2047 then
      if fractionOf left.toBits.toNat = 0 then _ else .nan
    else if biasedOf left.toBits.toNat = 0 then _ else _) = Binary64.nan ↔ _
  split
  · rename_i last
    split
    · rename_i none
      exact iff_of_false nofun fun is => is.2 none
    · rename_i some
      exact iff_of_true rfl ⟨last, some⟩
  · rename_i notLast
    split <;> exact iff_of_false nofun fun is => notLast is.1

theorem rank_of_isNaN (isNaN : left.isNaN = true) : rank left = nanRank := by
  unfold rank
  rw [ofFloat_eq_nan_iff.mpr isNaN]

/-- The rank of a number is that of its bits. -/
theorem rank_of_number (number : ¬ left.isNaN = true) :
    rank left = if left.toBits.toNat < 2 ^ 63 then (left.toBits.toNat : Int)
      else 2 ^ 63 - (left.toBits.toNat : Int) := by
  unfold rank
  split
  · rename_i isNaN
    exact absurd (ofFloat_eq_nan_iff.mp isNaN) number
  · rfl

theorem rank_eq_nanRank_iff : rank left = nanRank ↔ left.isNaN = true := by
  refine ⟨fun same => ?_, rank_of_isNaN⟩
  by_contra number
  have top : nanRank = 2 ^ 63 := rfl
  rw [rank_of_number number, top] at same
  split at same <;> omega

/-- Numbers of one rank have the same bits or are both zero. -/
theorem rank_eq_iff (number : ¬ left.isNaN = true) (numberOther : ¬ right.isNaN = true) :
    rank left = rank right ↔
      left.toBits.toNat = right.toBits.toNat ∨
        (left.toBits.toNat = 0 ∨ left.toBits.toNat = 2 ^ 63) ∧
          (right.toBits.toNat = 0 ∨ right.toBits.toNat = 2 ^ 63) := by
  rw [rank_of_number number, rank_of_number numberOther]
  split <;> split <;> omega

theorem unpack_eq_iff (number : ¬ left.isNaN = true) :
    left.toModel.unpack = right.toModel.unpack ↔ left.toBits.toNat = right.toBits.toNat := by
  constructor
  · intro same
    have readsRight := reads_toBits right
    rw [← same] at readsRight
    exact (reads_toBits left).bits_eq readsRight left.toBits.toNat_lt right.toBits.toNat_lt
      (mt isNaN_iff.mpr number)
  · intro same
    have bits : left.toModel.toBits = right.toModel.toBits := UInt64.toNat_inj.mp same
    unfold Float.Model.unpack
    rw [bits]

theorem exists_zero_iff :
    (∃ sign, left.toModel.unpack = .zero sign) ↔
      left.toBits.toNat = 0 ∨ left.toBits.toNat = 2 ^ 63 :=
  (reads_toBits left).zero_iff left.toBits.toNat_lt

/-- Numbers are equal in the number format if they have one rank. A NaN is equal to nothing. -/
theorem beq_iff_rank : (left == right) = true ↔ rank left = rank right ∧ ¬ left.isNaN = true := by
  have format : (left == right) = true ↔
      left.toModel.unpack = right.toModel.unpack ∧ ¬ left.isNaN = true ∨
        (∃ sign, left.toModel.unpack = .zero sign) ∧ ∃ sign, right.toModel.unpack = .zero sign := by
    rw [isNaN_iff]
    exact beq_iff
  rw [format]
  by_cases isNaN : left.isNaN = true
  · refine iff_of_false ?_ fun same => same.2 isNaN
    rintro (⟨-, number⟩ | ⟨⟨sign, zero⟩, -⟩)
    · exact number isNaN
    · rw [isNaN_iff.mp isNaN] at zero
      cases zero
  · by_cases isNaNRight : right.isNaN = true
    · have apart : rank left ≠ rank right := by
        rw [rank_of_isNaN isNaNRight]
        exact mt rank_eq_nanRank_iff.mp isNaN
      refine iff_of_false ?_ fun same => apart same.1
      rw [isNaN_iff.mp isNaNRight]
      rintro (⟨same, number⟩ | ⟨-, ⟨sign, zero⟩⟩)
      · exact number (isNaN_iff.mpr same)
      · cases zero
    · rw [unpack_eq_iff isNaN, exists_zero_iff, exists_zero_iff, rank_eq_iff isNaN isNaNRight,
        and_iff_left isNaN, and_iff_left isNaN]

/-- Doubles have one rank if they are equal in the number format, or both a NaN. -/
theorem equalTotal_iff :
    equalTotal left right = true ↔
      (left == right) = true ∨ left.isNaN = true ∧ right.isNaN = true := by
  rw [beq_iff_rank, equalTotal, beq_iff_eq]
  by_cases isNaN : left.isNaN = true
  · rw [rank_of_isNaN isNaN, eq_comm, rank_eq_nanRank_iff]
    tauto
  · tauto

end Scriptlet.Double
