/-
This file reads a double as the number it stands for: a sign, a whole
significand and a power of two. Exact statements about doubles, such as which
decimal is the nearest, are made on these three parts, and a double is put
together again from them.
-/

import Scriptlet.Decimal.Power

namespace Scriptlet

/-- What the bits of a double say. A finite double is
`± significand * 2 ^ exponent`, with `significand < 2 ^ 53`. -/
inductive Binary64 where
  | nan
  | infinite (negative : Bool)
  | finite (negative : Bool) (significand : Nat) (exponent : Int)
deriving DecidableEq

namespace Binary64

/-- The exponent of the last place of the smallest doubles. -/
def leastExponent : Int := -1074

/-- The number of bits that follow the leading bit of a significand. -/
def fractionBits : Nat := 52

/-- The weight of the leading bit of a significand. -/
def leadingBit : Nat := twoTo fractionBits

/-- The parts of a double. -/
def ofFloat (number : Float) : Binary64 :=
  let bits := number.toBits.toNat
  let negative := decide (twoTo 63 ≤ bits)
  let biased : Nat := bits / leadingBit % 2048
  let fraction := bits % leadingBit
  if biased = 2047 then
    if fraction = 0 then .infinite negative else .nan
  else if biased = 0 then
    .finite negative fraction leastExponent
  else
    .finite negative (leadingBit + fraction) (biased + leastExponent - 1)

/-- The bits of the double `± significand * 2 ^ exponent`, for a significand
below `2 ^ 53` and an exponent of at least `leastExponent`. The significand is
first moved up as far as the exponent allows. -/
def bits (negative : Bool) (significand : Nat) (exponent : Int) : Nat :=
  let shift := min (fractionBits - significand.log2) (exponent - leastExponent).toNat
  let moved := significand * twoTo shift
  let biased := (exponent - shift - leastExponent).toNat + 1
  let sign := if negative then twoTo 63 else 0
  if moved < leadingBit then sign + moved
  else sign + biased * leadingBit + (moved - leadingBit)

/-- The double with the given parts. -/
def toFloat : Binary64 → Float
  | .nan => Float.ofBits 0x7ff8000000000000
  | .infinite false => Float.ofBits 0x7ff0000000000000
  | .infinite true => Float.ofBits 0xfff0000000000000
  | .finite negative significand exponent =>
    Float.ofBits (UInt64.ofNat (bits negative significand exponent))

/-- Whether `significand * 2 ^ exponent` is a whole number. -/
def isWhole (significand : Nat) (exponent : Int) : Bool :=
  significand % twoTo (-exponent).toNat == 0

end Binary64

end Scriptlet
