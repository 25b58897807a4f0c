/-
This file writes doubles as text. A style says whether whole numbers are
written out to the last digit, whether they keep a zero behind the point, and
which orders of magnitude are written without an exponent.
-/

import Scriptlet.Decimal.Shortest

namespace Scriptlet

/-- The decisions of a way of writing doubles. -/
structure FloatStyle where
  /-- Whole numbers show their exact value instead of the shortest digits. -/
  exactWhole : Bool
  /-- Whole numbers end in a point and a zero. -/
  pointZero : Bool
  /-- The least and the greatest order written without an exponent; all when absent. -/
  positionalOrders : Option (Int × Int)
deriving DecidableEq

namespace FloatStyle

/-- Whether a decimal is written without an exponent. Zero always is. -/
def isPositional (style : FloatStyle) (number : Decimal) : Bool :=
  match style.positionalOrders with
  | none => true
  | some (least, greatest) =>
    number.coefficient == 0 || (least ≤ number.order && number.order ≤ greatest)

/-- The text of a finite double without its sign. -/
def magnitude (style : FloatStyle) (significand : Nat) (exponent : Int) : List Char :=
  let whole := Binary64.isWhole significand exponent
  let number :=
    if whole && style.exactWhole then
      ⟨significand * twoTo exponent.toNat / twoTo (-exponent).toNat, 0⟩
    else Decimal.shortest significand exponent
  if style.isPositional number then
    number.positional ++ (if whole && style.pointZero then ['.', '0'] else [])
  else number.scientific

/-- The text of a double. -/
def text (style : FloatStyle) (number : Float) : String :=
  match Binary64.ofFloat number with
  | .nan => "NaN"
  | .infinite false => "inf"
  | .infinite true => "-inf"
  | .finite negative significand exponent =>
    String.ofList ((if negative then ['-'] else []) ++ style.magnitude significand exponent)

end FloatStyle

end Scriptlet
