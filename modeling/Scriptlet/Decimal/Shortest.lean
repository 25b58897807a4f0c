/-
This file finds the shortest decimal that reads back as a given double. The
reals that round to a double form an interval around it, closed when the
significand is even. On each decimal grid, from coarse to fine, only the two
neighbours of the value have to be tried: the first grid with a neighbour in
the interval has the fewest digits. When both neighbours are inside, the nearer
one is taken, and the upper one when they are equally near.
-/

import Scriptlet.Decimal.Basic
import Scriptlet.Decimal.Binary64

namespace Scriptlet.Decimal

/-- An interval of numbers and a point in it, all over one denominator. -/
structure Interval where
  low : Nat
  middle : Nat
  high : Nat
  denominator : Nat
  closed : Bool

namespace Interval

/-- The numbers that round to `significand * 2 ^ exponent`. The next double below is
only half as far away where the exponent goes down with it. -/
def around (significand : Nat) (exponent : Int) : Interval :=
  let below :=
    if significand = Binary64.leadingBit ∧ Binary64.leastExponent < exponent then 1 else 2
  let scale := twoTo (exponent - 2).toNat
  { low := (4 * significand - below) * scale
    middle := 4 * significand * scale
    high := (4 * significand + 2) * scale
    denominator := twoTo (2 - exponent).toNat
    closed := significand % 2 == 0 }

/-- The same interval with all numbers multiplied by a power of ten. -/
def timesTen (interval : Interval) (power : Nat) : Interval :=
  { interval with
    low := interval.low * tenTo power
    middle := interval.middle * tenTo power
    high := interval.high * tenTo power }

/-- Whether a numerator stands for a number of the interval. -/
def contains (interval : Interval) (numerator : Nat) : Bool :=
  if interval.closed then interval.low ≤ numerator && numerator ≤ interval.high
  else interval.low < numerator && numerator < interval.high

/-- The better of the two multiples of `unit` next to the middle, if one of them is
in the interval. -/
def nearest? (interval : Interval) (unit : Nat) : Option Nat :=
  let lower := interval.middle / unit
  let fitsBelow := interval.contains (lower * unit)
  let fitsAbove := interval.contains ((lower + 1) * unit)
  let nearerBelow := interval.middle - lower * unit < (lower + 1) * unit - interval.middle
  if fitsBelow && (nearerBelow || !fitsAbove) then some lower
  else if fitsAbove then some (lower + 1)
  else none

/-- The coefficient of a number of the interval on the grid of the multiples of
`10 ^ exponent`. -/
def onGrid? (interval : Interval) (exponent : Int) : Option Nat :=
  (interval.timesTen (-exponent).toNat).nearest? (interval.denominator * tenTo exponent.toNat)

/-- The first hit on a number of grids, each ten times as fine as the one before. -/
def search? (interval : Interval) : Nat → Int → Option Decimal
  | 0, _ => none
  | steps + 1, exponent =>
    match interval.onGrid? exponent with
    | some coefficient => some ⟨coefficient, exponent⟩
    | none => interval.search? steps (exponent - 1)

end Interval

/-- A power of ten above `significand * 2 ^ exponent`: a bit more than three tenths of
the number of binary places. -/
def orderAbove (significand : Nat) (exponent : Int) : Int :=
  (significand.log2 + exponent + 1) * 30103 / 100000 + 1

/-- The shortest decimal that reads back as `significand * 2 ^ exponent`. Seventeen digits
always suffice, and the first grid is at most three orders too coarse. -/
def shortest (significand : Nat) (exponent : Int) : Decimal :=
  if significand = 0 then ⟨0, 0⟩
  else ((Interval.around significand exponent).search? 20 (orderAbove significand exponent)).getD
    (ofBinary significand exponent)

end Scriptlet.Decimal
