/-
This file says how integers are promoted to doubles, and which of them share one. The double
is the nearest one, halves going to the even one. An integer below `2 ^ 53` in magnitude has
a double of its own: all its digits fit into a significand, and the doubles of longer
integers rank above it. So two integers that share a double have at least that magnitude,
both of them.
-/

import Scriptlet.Proofs.Equality.NumberFormat

namespace Scriptlet.Double

open Float.Model (Format totalExponent UnpackedFloat)
open Float.Model.UnpackedFloat

/-- All places of a significand are filled, and its exponent is one that doubles have. -/
structure Filled (significand : Nat) (exponent : Int) : Prop where
  atLeast : 2 ^ 52 ≤ significand
  below : significand < 2 ^ 53
  least : -1074 ≤ exponent
  most : exponent ≤ 971

namespace Filled

variable {significand : Nat} {exponent : Int}

theorem positive (filled : Filled significand exponent) : 0 < significand :=
  Nat.lt_of_lt_of_le (Nat.two_pow_pos 52) filled.atLeast

theorem log2_eq (filled : Filled significand exponent) : significand.log2 = 52 :=
  (Nat.log2_eq_iff filled.positive.ne').mpr ⟨filled.atLeast, filled.below⟩

/-- A significand that fills all its places stands at its exponent. -/
theorem targetExponent_eq (filled : Filled significand exponent) :
    Format.binary64.targetExponent (totalExponent significand exponent) = exponent := by
  have least := filled.least
  simp only [Format.targetExponent, totalExponent, filled.log2_eq, Format.mantissaBits,
    Format.minExponent]
  omega

/-- Nothing is moved out of a significand that fills its places. -/
theorem shift_eq (filled : Filled significand exponent) :
    shiftToTargetExponent Format.binary64 significand exponent .exact =
      (⟨significand, false, false⟩, exponent) := by
  simp [shiftToTargetExponent, filled.targetExponent_eq, shiftToExponent, HShiftRight.hShiftRight,
    Nat.repeat, ExtendedMantissa.ofMantissaAndAccuracy]

end Filled

/-! ### Rounding -/

/-- A significand that was rounded up to one more place is moved by that place. -/
theorem shift_of_carried {exponent : Int} (least : -1074 ≤ exponent) :
    shiftToTargetExponent Format.binary64 (2 ^ 53) exponent .exact =
      (⟨2 ^ 52, false, false⟩, exponent + 1) := by
  have target : Format.binary64.targetExponent (totalExponent (2 ^ 53) exponent) =
      exponent + 1 := by
    simp only [Format.targetExponent, totalExponent, Nat.log2_two_pow, Format.mantissaBits,
      Format.minExponent]
    omega
  have once : (exponent + 1 - exponent).toNat = 1 := by omega
  rw [shiftToTargetExponent, target, shiftToExponent, once]
  rfl

theorem mantissa_shiftRight (extended : ExtendedMantissa) (places : Nat) :
    (extended >>> places).mantissa = extended.mantissa / 2 ^ places := by
  show (Nat.repeat ExtendedMantissa.shiftRightOne places extended).mantissa = _
  induction places with
  | zero => simp [Nat.repeat]
  | succ places inductionHypothesis =>
    rw [Nat.repeat, ExtendedMantissa.shiftRightOne, inductionHypothesis, Nat.div_div_eq_div_mul,
      Nat.pow_succ]

theorem roundedMantissa_bounds (extended : ExtendedMantissa) :
    extended.mantissa ≤ extended.roundedMantissa ∧
      extended.roundedMantissa ≤ extended.mantissa + 1 := by
  obtain ⟨mantissa, roundBit, stickyBit⟩ := extended
  have odd := Nat.mod_lt mantissa (show 0 < 2 by decide)
  cases roundBit <;> cases stickyBit <;>
    simp only [ExtendedMantissa.roundedMantissa, ExtendedMantissa.accuracy,
      Accuracy.roundToNearestEven] <;> omega

/-- A significand that is rounded within its places is the one that is kept. -/
theorem round_of_filled {number : Nat} {exponent place : Int} {accuracy : Accuracy}
    {first : ExtendedMantissa} (sign : Sign)
    (moved : shiftToTargetExponent Format.binary64 number exponent accuracy = (first, place))
    (filled : Filled first.roundedMantissa place) :
    roundWithAccuracy Format.binary64 sign number exponent accuracy =
      .finite sign first.roundedMantissa place filled.positive := by
  simp only [roundWithAccuracy, moved, filled.shift_eq]
  rw [dif_neg filled.positive.ne']

theorem round_of_carried {number : Nat} {exponent place : Int} {accuracy : Accuracy}
    {first : ExtendedMantissa} (sign : Sign)
    (moved : shiftToTargetExponent Format.binary64 number exponent accuracy = (first, place))
    (carried : first.roundedMantissa = 2 ^ 53) (least : -1074 ≤ place) :
    roundWithAccuracy Format.binary64 sign number exponent accuracy =
      .finite sign (2 ^ 52) (place + 1) (by decide) := by
  simp only [roundWithAccuracy, moved, carried, shift_of_carried least]
  rfl

/-- The parts of the double that a whole number is rounded to. A number whose digits all fit keeps
them, and the exponent of a longer one is positive. -/
structure RoundsTo (number significand : Nat) (exponent : Int) : Prop
    extends Filled significand exponent where
  rounded : ∀ sign, UnpackedFloat.round Format.binary64 sign number 0 =
    .finite sign significand exponent toFilled.positive
  digits : number < 2 ^ 53 →
    significand = number * 2 ^ (52 - number.log2) ∧ exponent = (number.log2 : Int) - 52
  long : 2 ^ 53 ≤ number → 1 ≤ exponent

/-- A whole number with more digits than a significand keeps its first ones, rounded. -/
theorem round_long {number : Nat} (long : 2 ^ 53 ≤ number) (short : number ≤ 2 ^ 63) :
    ∃ significand exponent, RoundsTo number significand exponent := by
  have nonzero : number ≠ 0 := by omega
  obtain ⟨atLeast, below⟩ := (Nat.log2_eq_iff nonzero).mp (rfl : number.log2 = number.log2)
  have more : 53 ≤ number.log2 := (Nat.le_log2 nonzero).mpr long
  have fewer : number.log2 < 64 := (Nat.log2_lt nonzero).mpr (by omega)
  have notShort : ¬ number < 2 ^ 53 := Nat.not_lt.mpr long
  -- The places in front of those that are dropped.
  obtain ⟨dropped, digits⟩ : ∃ dropped, number.log2 = 52 + dropped := ⟨number.log2 - 52, by omega⟩
  rw [digits] at atLeast below
  have target : Format.binary64.targetExponent (totalExponent number 0) = dropped := by
    simp only [Format.targetExponent, totalExponent, digits, Format.mantissaBits,
      Format.minExponent]
    omega
  let first : ExtendedMantissa := (⟨number, false, false⟩ : ExtendedMantissa) >>> dropped
  have moved : shiftToTargetExponent Format.binary64 number 0 .exact = (first, (dropped : Int)) := by
    simp [shiftToTargetExponent, target, shiftToExponent, first,
      ExtendedMantissa.ofMantissaAndAccuracy]
  have kept : first.mantissa = number / 2 ^ dropped := mantissa_shiftRight _ _
  have keptAtLeast : 2 ^ 52 ≤ first.mantissa := by
    rw [kept, Nat.le_div_iff_mul_le (Nat.two_pow_pos dropped), ← Nat.pow_add]
    exact atLeast
  have keptBelow : first.mantissa < 2 ^ 53 := by
    rw [kept, Nat.div_lt_iff_lt_mul (Nat.two_pow_pos dropped), ← Nat.pow_add]
    rwa [show 53 + dropped = 52 + dropped + 1 by omega]
  obtain ⟨notLess, notMore⟩ := roundedMantissa_bounds first
  have unmoved : decreaseExponent number 0 (dropped : Int) = (number, 0) := by
    simp [decreaseExponent]
  have rounds (sign : Sign) : UnpackedFloat.round Format.binary64 sign number 0 =
      roundWithAccuracy Format.binary64 sign number 0 .exact := by
    rw [UnpackedFloat.round, target, unmoved]
  by_cases carried : first.roundedMantissa = 2 ^ 53
  · have filled : Filled (2 ^ 52) (dropped + 1) := ⟨by decide, by decide, by omega, by omega⟩
    refine ⟨2 ^ 52, dropped + 1, filled, fun sign => ?_, fun few => absurd few notShort,
      fun _ => by omega⟩
    rw [rounds, round_of_carried sign moved carried (by omega)]
  · have filled : Filled first.roundedMantissa dropped :=
      ⟨by omega, by omega, by omega, by omega⟩
    refine ⟨first.roundedMantissa, dropped, filled, fun sign => ?_, fun few => absurd few notShort,
      fun _ => by omega⟩
    rw [rounds, round_of_filled sign moved filled]

/-- Moved up to the leading place, a short number fills all places. -/
theorem filled_scaled {number places : Nat} (atLeast : 2 ^ places ≤ number)
    (below : number < 2 ^ (places + 1)) (fits : places ≤ 52) :
    Filled (number * 2 ^ (52 - places)) ((places : Int) - 52) := by
  have scaledAtLeast := Nat.mul_le_mul_right (2 ^ (52 - places)) atLeast
  have scaledBelow := Nat.mul_lt_mul_of_pos_right below (Nat.two_pow_pos (52 - places))
  rw [← Nat.pow_add] at scaledAtLeast scaledBelow
  rw [show places + (52 - places) = 52 by omega] at scaledAtLeast
  rw [show places + 1 + (52 - places) = 53 by omega] at scaledBelow
  exact ⟨scaledAtLeast, scaledBelow, by omega, by omega⟩

/-- A whole number whose digits all fit keeps them. -/
theorem round_short {number : Nat} (nonzero : number ≠ 0) (short : number < 2 ^ 53) :
    RoundsTo number (number * 2 ^ (52 - number.log2)) ((number.log2 : Int) - 52) := by
  obtain ⟨atLeast, below⟩ := (Nat.log2_eq_iff nonzero).mp (rfl : number.log2 = number.log2)
  have fits : number.log2 < 53 := (Nat.log2_lt nonzero).mpr short
  have target : Format.binary64.targetExponent (totalExponent number 0) =
      (number.log2 : Int) - 52 := by
    simp only [Format.targetExponent, totalExponent, Format.mantissaBits, Format.minExponent]
    omega
  have moved : decreaseExponent number 0 ((number.log2 : Int) - 52) =
      (number * 2 ^ (52 - number.log2), (number.log2 : Int) - 52) := by
    have count : (0 - ((number.log2 : Int) - 52)).toNat = 52 - number.log2 := by omega
    have down : (0 : Int) - ↑(52 - number.log2) = (number.log2 : Int) - 52 := by omega
    rw [decreaseExponent, count, down, Nat.shiftLeft_eq]
  have filled := filled_scaled atLeast below (Nat.le_of_lt_succ fits)
  refine ⟨filled, fun sign => ?_, fun _ => ⟨rfl, rfl⟩,
    fun more => absurd more (Nat.not_le_of_lt short)⟩
  rw [UnpackedFloat.round, target, moved]
  exact round_of_filled sign filled.shift_eq filled

theorem exists_roundsTo {number : Nat} (positive : 0 < number) (short : number ≤ 2 ^ 63) :
    ∃ significand exponent, RoundsTo number significand exponent := by
  rcases Nat.lt_or_ge number (2 ^ 53) with few | many
  · exact ⟨_, _, round_short positive.ne' few⟩
  · exact round_long many short

/-! ### Bits -/

/-- The bits of a double without its sign. -/
def height (significand : Nat) (exponent : Int) : Nat :=
  (exponent + 1075).toNat * 2 ^ 52 + significand % 2 ^ 52

theorem unpackSign_packComponents (sign : Sign) (exponent : BitVec 11) (fraction : BitVec 52) :
    unpackSign (packComponents Format.binary64 sign exponent fraction) = sign.toBitVec := by
  show (sign.toBitVec ++ exponent ++ fraction).extractLsb' 63 1 = sign.toBitVec
  rw [BitVec.extractLsb'_append_eq_of_le (by decide), BitVec.extractLsb'_append_eq_of_le (by decide)]
  cases sign <;> rfl

namespace Filled

variable {significand : Nat} {exponent : Int}

/-- The bits without the sign leave room for it, and are not those of a NaN. -/
theorem height_bounds (filled : Filled significand exponent) :
    0 < height significand exponent ∧ height significand exponent < 2047 * 2 ^ 52 := by
  have fraction := Nat.mod_lt significand (Nat.two_pow_pos 52)
  have least := filled.least
  have most := filled.most
  rw [height]
  omega

theorem toNat_biased (filled : Filled significand exponent) :
    (BitVec.ofNat 11 (exponent + 1075).toNat).toNat = (exponent + 1075).toNat := by
  have most := filled.most
  rw [BitVec.toNat_ofNat]
  exact Nat.mod_eq_of_lt (by omega)

/-- The sign, the exponent and the places behind the leading one stand side by side. -/
theorem pack_eq (filled : Filled significand exponent) (sign : Sign) :
    pack Format.binary64 (.finite sign significand exponent filled.positive) =
      packComponents Format.binary64 sign (BitVec.ofNat 11 (exponent + 1075).toNat)
        (BitVec.ofNat 52 significand) := by
  have most := filled.most
  have inside : ¬ 2 ^ 11 ≤ (exponent + 1075).toNat + 1 := by omega
  have biased : (exponent + Format.binary64.exponentBias +
      Format.binary64.mantissaBitsWithoutImplicit).toNat = (exponent + 1075).toNat := by
    show (exponent + 1023 + 52).toNat = _
    omega
  have places : significand.log2 + 1 = Format.binary64.mantissaBits := by
    rw [filled.log2_eq]
    rfl
  simp only [pack, biased, if_neg inside, if_pos places]

theorem toBits_eq (filled : Filled significand exponent) (sign : Sign) :
    (Float.Model.pack (.finite sign significand exponent filled.positive)).toBits.toNat =
      (sign.toBitVec).toNat * 2 ^ 63 + height significand exponent := by
  show (pack Format.binary64 (.finite sign significand exponent filled.positive)).toNat = _
  rw [filled.pack_eq]
  show (sign.toBitVec ++ BitVec.ofNat 11 (exponent + 1075).toNat ++
    BitVec.ofNat 52 significand).toNat = _
  rw [BitVec.toNat_append, BitVec.toNat_append, ← Nat.shiftLeft_add_eq_or_of_lt (BitVec.isLt _),
    ← Nat.shiftLeft_add_eq_or_of_lt (BitVec.isLt _), filled.toNat_biased, BitVec.toNat_ofNat,
    Nat.shiftLeft_eq, Nat.shiftLeft_eq, height]
  omega

/-- The places behind the leading one give the significand back. -/
theorem toNat_led_fraction (filled : Filled significand exponent) :
    (1#1 ++ BitVec.ofNat 52 significand).toNat = significand := by
  have atLeast := filled.atLeast
  have below := filled.below
  rw [toNat_led, BitVec.toNat_ofNat]
  omega

/-- The exponent is neither that of the infinities nor that of the zeros. -/
theorem biased_ne (filled : Filled significand exponent) :
    BitVec.ofNat 11 (exponent + 1075).toNat ≠ -1#11 ∧
      BitVec.ofNat 11 (exponent + 1075).toNat ≠ 0#11 := by
  have least := filled.least
  have most := filled.most
  have last : (-1#11).toNat = 2047 := rfl
  have first : (0#11).toNat = 0 := rfl
  constructor <;> intro same <;> have word := congrArg BitVec.toNat same <;>
    rw [filled.toNat_biased] at word <;> omega

theorem unpack_eq (filled : Filled significand exponent) (sign : Sign) :
    (Float.Model.pack (.finite sign significand exponent filled.positive)).unpack =
      .finite sign significand exponent filled.positive := by
  show unpack Format.binary64 (pack Format.binary64 _) = _
  rw [filled.pack_eq]
  obtain ⟨notLast, notFirst⟩ := filled.biased_ne
  have least := filled.least
  have back : (((exponent + 1075).toNat : Nat) : Int) - (1023 + 52) = exponent := by omega
  have bias : (Format.binary64.exponentBias : Int) = 1023 := rfl
  have sameSign : Sign.ofBitVec sign.toBitVec = sign := by cases sign <;> rfl
  simp only [unpack, unpackMantissa_packComponents, unpackExponent_packComponents,
    unpackSign_packComponents, if_neg notLast, if_neg notFirst, filled.toNat_biased,
    filled.toNat_led_fraction, bias, sameSign]
  congr 1

/-- The rank of a double is that of its bits, with its sign. -/
theorem rank_eq (filled : Filled significand exponent) (sign : Sign) :
    rank ⟨Float.Model.pack (.finite sign significand exponent filled.positive)⟩ =
      sign.apply (height significand exponent) := by
  have number : ¬ (⟨Float.Model.pack (.finite sign significand exponent filled.positive)⟩ :
      Float).isNaN = true := by
    rw [isNaN_iff, filled.unpack_eq]
    nofun
  have bits : (⟨Float.Model.pack (.finite sign significand exponent filled.positive)⟩ :
      Float).toBits.toNat = (sign.toBitVec).toNat * 2 ^ 63 + height significand exponent :=
    filled.toBits_eq sign
  obtain ⟨some, room⟩ := filled.height_bounds
  rw [rank_of_number number, bits]
  cases sign with
  | positive =>
    have none : (Sign.positive.toBitVec).toNat = 0 := rfl
    rw [none, Sign.apply, if_pos (by omega)]
    omega
  | negative =>
    have one : (Sign.negative.toBitVec).toNat = 1 := rfl
    rw [one, Sign.apply, if_neg (by omega)]
    omega

end Filled

/-! ### Whole numbers -/

/-- The double of a whole number below `2 ^ 64`. -/
def ofNat (number : Nat) : Float :=
  (UInt64.ofNat number).toFloat

theorem ofNat_eq {number : Nat} (positive : 0 < number) (short : number ≤ 2 ^ 63) :
    ofNat number =
      ⟨Float.Model.pack (UnpackedFloat.round Format.binary64 .positive number 0)⟩ := by
  have word : (UInt64.ofNat number).toNat = number := by
    rw [UInt64.toNat_ofNat']
    exact Nat.mod_eq_of_lt (by omega)
  have greater : compare (number : Int) 0 = .gt := Int.compare_eq_gt.mpr (by omega)
  simp only [ofNat, UInt64.toFloat, Float.Model.ofUInt64, UnpackedFloat.ofUInt64,
    UnpackedFloat.ofNat, UnpackedFloat.ofInt, UnpackedFloat.normalize, word, greater,
    Int.toNat_natCast]

/-- Turned round, the double of a whole number is that of the number below zero. -/
theorem neg_ofNat_eq {number : Nat} (positive : 0 < number) (short : number ≤ 2 ^ 63) :
    -ofNat number =
      ⟨Float.Model.pack (UnpackedFloat.round Format.binary64 .negative number 0)⟩ := by
  obtain ⟨significand, exponent, rounds⟩ := exists_roundsTo positive short
  rw [ofNat_eq positive short, rounds.rounded, rounds.rounded]
  show (⟨Float.Model.pack (Float.Model.pack _).unpack.neg⟩ : Float) = _
  rw [rounds.unpack_eq]
  rfl

theorem RoundsTo.rank_ofNat {number significand : Nat} {exponent : Int}
    (rounds : RoundsTo number significand exponent) (positive : 0 < number)
    (short : number ≤ 2 ^ 63) : rank (ofNat number) = height significand exponent := by
  rw [ofNat_eq positive short, rounds.rounded]
  exact rounds.rank_eq .positive

theorem rank_neg_ofNat {number : Nat} (short : number ≤ 2 ^ 63) :
    rank (-ofNat number) = -rank (ofNat number) := by
  by_cases zero : number = 0
  · subst zero
    decide
  · have positive := Nat.pos_of_ne_zero zero
    obtain ⟨significand, exponent, rounds⟩ := exists_roundsTo positive short
    rw [rounds.rank_ofNat positive short, neg_ofNat_eq positive short, rounds.rounded]
    exact rounds.rank_eq .negative

theorem rank_ofNat_pos {number : Nat} (positive : 0 < number) (short : number ≤ 2 ^ 63) :
    0 < rank (ofNat number) := by
  obtain ⟨significand, exponent, rounds⟩ := exists_roundsTo positive short
  rw [rounds.rank_ofNat positive short]
  exact Int.natCast_pos.mpr rounds.height_bounds.1

/-- The doubles of long numbers rank above those of short ones. -/
theorem rank_ofNat_lt {number other : Nat} (few : number < 2 ^ 53) (many : 2 ^ 53 ≤ other)
    (short : other ≤ 2 ^ 63) : rank (ofNat number) < rank (ofNat other) := by
  by_cases zero : number = 0
  · subst zero
    have nothing : rank (ofNat 0) = 0 := by decide
    rw [nothing]
    exact rank_ofNat_pos (by omega) short
  · obtain ⟨longer, higher, roundsOther⟩ := exists_roundsTo (show 0 < other by omega) short
    have rounds := round_short zero few
    have bound : number.log2 < 53 := (Nat.log2_lt zero).mpr few
    have more := roundsOther.long many
    have fraction := Nat.mod_lt (number * 2 ^ (52 - number.log2)) (Nat.two_pow_pos 52)
    rw [rounds.rank_ofNat (Nat.pos_of_ne_zero zero) (by omega),
      roundsOther.rank_ofNat (by omega) short, height, height]
    omega

/-- Short numbers with the same double are the same. -/
theorem eq_of_rank_ofNat {number other : Nat} (few : number < 2 ^ 53) (fewOther : other < 2 ^ 53)
    (same : rank (ofNat number) = rank (ofNat other)) : number = other := by
  have nothing : rank (ofNat 0) = 0 := by decide
  by_cases zero : number = 0
  · subst zero
    by_cases zeroOther : other = 0
    · exact zeroOther.symm
    · have above := rank_ofNat_pos (Nat.pos_of_ne_zero zeroOther) (by omega)
      omega
  · by_cases zeroOther : other = 0
    · subst zeroOther
      have above := rank_ofNat_pos (Nat.pos_of_ne_zero zero) (by omega)
      omega
    · have rounds := round_short zero few
      have roundsOther := round_short zeroOther fewOther
      rw [rounds.rank_ofNat (Nat.pos_of_ne_zero zero) (by omega),
        roundsOther.rank_ofNat (Nat.pos_of_ne_zero zeroOther) (by omega), height, height] at same
      -- The exponents tell how many digits the numbers have, the significands which.
      have places : number.log2 = other.log2 := by omega
      have atLeast := rounds.atLeast
      have below := rounds.below
      have atLeastOther := roundsOther.atLeast
      have belowOther := roundsOther.below
      have significands : number * 2 ^ (52 - number.log2) = other * 2 ^ (52 - other.log2) := by
        omega
      rw [places] at significands
      exact Nat.eq_of_mul_eq_mul_right (Nat.two_pow_pos _) significands

/-! ### Integers -/

theorem ofInt64_eq (number : Int64) :
    ofInt64 number =
      if number < 0 then -ofNat number.toInt.natAbs else ofNat number.toInt.natAbs := rfl

theorem natAbs_le (number : Int64) : number.toInt.natAbs ≤ 2 ^ 63 := by
  have least := number.le_toInt
  have most := number.toInt_lt
  omega

/-- An integer is promoted to the double nearest to it, halves going to the even one. -/
theorem ofInt64_eq_rounded (number : Int64) : ofInt64 number = ⟨Float.Model.ofInt64 number⟩ := by
  have negative : number < 0 ↔ number.toInt < 0 := Int64.lt_iff_toInt_lt
  rw [ofInt64_eq, Float.Model.ofInt64, UnpackedFloat.ofInt64, UnpackedFloat.ofInt,
    UnpackedFloat.normalize]
  rcases Int.lt_trichotomy number.toInt 0 with below | zero | above
  · have magnitude : (-number.toInt).toNat = number.toInt.natAbs := by omega
    rw [if_pos (negative.mpr below), neg_ofNat_eq (by omega) (natAbs_le number),
      Int.compare_eq_lt.mpr below, magnitude]
  · rw [if_neg (mt negative.mp (by omega)), zero]
    rfl
  · have magnitude : number.toInt.toNat = number.toInt.natAbs := by omega
    rw [if_neg (mt negative.mp (by omega)), ofNat_eq (by omega) (natAbs_le number),
      Int.compare_eq_gt.mpr above, magnitude]

/-- The rank of an integer's double is that of its magnitude, with its sign. -/
theorem rank_ofInt64 (number : Int64) :
    rank (ofInt64 number) =
      if number.toInt < 0 then -rank (ofNat number.toInt.natAbs)
      else rank (ofNat number.toInt.natAbs) := by
  have negative : number < 0 ↔ number.toInt < 0 := Int64.lt_iff_toInt_lt
  rw [ofInt64_eq]
  split
  · rename_i below
    rw [if_pos (negative.mp below), rank_neg_ofNat (natAbs_le number)]
  · rename_i notBelow
    rw [if_neg fun below => notBelow (negative.mpr below)]

/-- Integers with the same double have the same sign, and magnitudes with the same double. -/
theorem rank_natAbs_of_rank_eq {first second : Int64}
    (same : rank (ofInt64 first) = rank (ofInt64 second)) :
    rank (ofNat first.toInt.natAbs) = rank (ofNat second.toInt.natAbs) ∧
      (first.toInt < 0 ↔ second.toInt < 0) := by
  have above : ∀ number : Int64, number.toInt = 0 ∧ rank (ofNat number.toInt.natAbs) = 0 ∨
      number.toInt ≠ 0 ∧ 0 < rank (ofNat number.toInt.natAbs) := by
    intro number
    by_cases zero : number.toInt = 0
    · refine Or.inl ⟨zero, ?_⟩
      rw [zero]
      decide
    · exact Or.inr ⟨zero, rank_ofNat_pos (by omega) (natAbs_le number)⟩
  have aboveFirst := above first
  have aboveSecond := above second
  rw [rank_ofInt64, rank_ofInt64] at same
  split at same <;> split at same <;> omega

/-- Two integers that share a double have at least `2 ^ 53` for a magnitude, both of them. -/
theorem two_pow_le_of_rank_eq {first second : Int64} (different : first ≠ second)
    (same : rank (ofInt64 first) = rank (ofInt64 second)) :
    2 ^ 53 ≤ first.toInt.natAbs ∧ 2 ^ 53 ≤ second.toInt.natAbs := by
  obtain ⟨magnitudes, signs⟩ := rank_natAbs_of_rank_eq same
  have apart : first.toInt.natAbs ≠ second.toInt.natAbs := by
    intro equal
    exact different (Int64.toInt_inj.mp (by omega))
  rcases Nat.lt_or_ge first.toInt.natAbs (2 ^ 53) with few | many <;>
    rcases Nat.lt_or_ge second.toInt.natAbs (2 ^ 53) with fewOther | manyOther
  · exact absurd (eq_of_rank_ofNat few fewOther magnitudes) apart
  · have less := rank_ofNat_lt few manyOther (natAbs_le second)
    omega
  · have less := rank_ofNat_lt fewOther many (natAbs_le first)
    omega
  · exact ⟨many, manyOther⟩

end Scriptlet.Double
