/-
This file defines decimal numbers, a whole coefficient times a power of ten,
and the two ways of writing one down: all places in a row, or one digit, a
point, the other digits and an exponent.
-/

import Scriptlet.Decimal.Power

namespace Scriptlet

/-- The number `coefficient * 10 ^ exponent`. -/
structure Decimal where
  coefficient : Nat
  exponent : Int
deriving DecidableEq

namespace Decimal

/-- The decimal equal to `significand * 2 ^ exponent`. A negative power of two is
a power of five over a power of ten. -/
def ofBinary (significand : Nat) (exponent : Int) : Decimal :=
  if 0 ≤ exponent then ⟨significand * twoTo exponent.toNat, 0⟩
  else ⟨significand * Nat.pow 5 (-exponent).toNat, exponent⟩

/-- The digits of the coefficient. -/
def digits (number : Decimal) : List Char :=
  Nat.toDigits 10 number.coefficient

/-- The power of ten of the leading digit. -/
def order (number : Decimal) : Int :=
  number.exponent + number.digits.length - 1

/-- A number of zeros. -/
def zeros (count : Nat) : List Char :=
  List.replicate count '0'

/-- All places in a row: zeros fill the places up to the units, and a number below
one starts with a zero and the point. -/
def positional (number : Decimal) : List Char :=
  let digits := number.digits
  if 0 ≤ number.exponent then digits ++ zeros number.exponent.toNat
  else
    let places := (-number.exponent).toNat
    if places < digits.length then
      digits.take (digits.length - places) ++ '.' :: digits.drop (digits.length - places)
    else '0' :: '.' :: zeros (places - digits.length) ++ digits

/-- The leading digit, the other digits behind a point, and the order. -/
def scientific (number : Decimal) : List Char :=
  let mark := 'e' :: (toString number.order).toList
  match number.digits with
  | [] => mark
  | [digit] => digit :: mark
  | digit :: others => digit :: '.' :: others ++ mark

@[simp] theorem length_zeros (count : Nat) : (zeros count).length = count := by
  simp [zeros]

end Decimal

end Scriptlet
