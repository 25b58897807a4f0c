/-
This file compares values. The language's equality looks through numbers: an
integer equals the double it is promoted to, and a NaN equals itself. Identity
of data, which a host program sees, does neither. Only numbers and texts have
an order.
-/

import Scriptlet.Text.Order
import Scriptlet.Value.Basic

namespace Scriptlet

namespace Value

mutual

/-- The language's equality. -/
def equal : Value → Value → Bool
  | .int left, .int right => left == right
  | .str left, .str right => left == right
  | .bool left, .bool right => left == right
  | .void, .void => true
  | .nil, .nil => true
  | .list left, .list right => equalLists left right
  | .function left, .function right => left.identity == right.identity
  | left, right =>
    match left.toFloat?, right.toFloat? with
    | some left, some right => Double.equalTotal left right
    | _, _ => false

/-- The language's equality, item by item. -/
def equalLists : List Value → List Value → Bool
  | [], [] => true
  | left :: lefts, right :: rights => left.equal right && equalLists lefts rights
  | _, _ => false

end

mutual

/-- Equality of data: integers and doubles differ, and so does a NaN from itself. -/
def same : Value → Value → Bool
  | .int left, .int right => left == right
  | .float left, .float right => Double.equalNumeric left right
  | .str left, .str right => left == right
  | .bool left, .bool right => left == right
  | .void, .void => true
  | .nil, .nil => true
  | .list left, .list right => sameLists left right
  | .function left, .function right => left.identity == right.identity
  | _, _ => false

/-- Equality of data, item by item. -/
def sameLists : List Value → List Value → Bool
  | [], [] => true
  | left :: lefts, right :: rights => left.same right && sameLists lefts rights
  | _, _ => false

end

/-- The order of two values, if they have one. -/
def order? : Value → Value → Option Ordering
  | .int left, .int right => some (compare left.toInt right.toInt)
  | .str left, .str right => some (Text.order left right)
  | left, right =>
    match left.toFloat?, right.toFloat? with
    | some left, some right => some (Double.compareTotal left right)
    | _, _ => none

end Value

/-- Whether two values in an order stand in a relation. -/
def Relation.holds : Relation → Ordering → Bool
  | .less, order => order.isLT
  | .greater, order => order.isGT
  | .lessOrEqual, order => order.isLE
  | .greaterOrEqual, order => order.isGE

/-- Whether two values stand in a relation. Values without an order stand in none. -/
def Relation.test (relation : Relation) (left right : Value) : Bool :=
  match left.order? right with
  | some order => relation.holds order
  | none => false

end Scriptlet
