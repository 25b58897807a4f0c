/-
This file holds what the language asks of doubles beyond the four basic
operations. Doubles are ordered by a rank, a whole number read off the bits: the
two zeros share one rank, and a NaN ranks above everything and equal to itself.
The remainder is computed without rounding on significands. A 64-bit integer
is promoted to the nearest double, halves going to the even one.
-/

import Scriptlet.Decimal.Binary64

namespace Scriptlet.Double

/-- The rank of a NaN, above that of the infinities. -/
def nanRank : Int := twoTo 63

/-- The place of a double in the order of all doubles. Magnitudes are ordered as their
bits are; the sign bit turns the order round. -/
def rank (number : Float) : Int :=
  match Binary64.ofFloat number with
  | .nan => nanRank
  | _ =>
    let bits := number.toBits.toNat
    if bits < twoTo 63 then (bits : Int) else (twoTo 63 : Int) - (bits : Int)

/-- The order of doubles in which a NaN is equal to itself and greater than all else. -/
def compareTotal (left right : Float) : Ordering :=
  compare (rank left) (rank right)

/-- Equality in that order. -/
def equalTotal (left right : Float) : Bool :=
  rank left == rank right

/-- Equality as the number format defines it: a NaN differs from everything. -/
def equalNumeric (left right : Float) : Bool :=
  rank left == rank right && rank left != nanRank

/-- Whether a double is one of the two zeros. -/
def isZero (number : Float) : Bool :=
  rank number == 0

/-- What is left of `left` after taking away whole multiples of `right`; it has the sign of
`left`. Over the smaller of the two exponents both are whole numbers, so nothing is
rounded. -/
def remainder (left right : Float) : Float :=
  match Binary64.ofFloat left, Binary64.ofFloat right with
  | .finite negative significand exponent, .finite _ divisor divisorExponent =>
    if divisor = 0 then Binary64.nan.toFloat
    else
      let least := min exponent divisorExponent
      let whole := significand * twoTo (exponent - least).toNat
      let wholeDivisor := divisor * twoTo (divisorExponent - least).toNat
      (Binary64.finite negative (whole % wholeDivisor) least).toFloat
  | .finite _ _ _, .infinite _ => left
  | _, _ => Binary64.nan.toFloat

/-- The double nearest to an integer. -/
def ofInt64 (number : Int64) : Float :=
  let magnitude := (UInt64.ofNat number.toInt.natAbs).toFloat
  if number < 0 then -magnitude else magnitude

theorem equalTotal_self (number : Float) : equalTotal number number = true := by
  simp [equalTotal]

theorem equalTotal_comm (left right : Float) :
    equalTotal left right = equalTotal right left := by
  simp [equalTotal, Bool.beq_comm]

theorem equalTotal_of_equalNumeric (left right : Float) (equal : equalNumeric left right = true) :
    equalTotal left right = true := by
  simp only [equalNumeric, Bool.and_eq_true] at equal
  exact equal.1

end Scriptlet.Double
