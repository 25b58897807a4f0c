/-
This file names the powers of two and of ten, between which numbers are carried
when a double is written in decimal.
-/

namespace Scriptlet

/-- Two to the power of a number. -/
def twoTo (exponent : Nat) : Nat :=
  Nat.pow 2 exponent

/-- Ten to the power of a number. -/
def tenTo (exponent : Nat) : Nat :=
  Nat.pow 10 exponent

end Scriptlet
