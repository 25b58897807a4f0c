/-
This file writes the two constructs that have no node of their own. A loop over
a counter is a block with the initializer and a plain loop, whose body is the
written body followed by the update; the written body is shielded, so that asking
for the next round still runs the update. A compound assignment assigns the
result of an operation on the variable's present value.
-/

import Scriptlet.Tree.Basic

namespace Scriptlet.Statement

/-- The loop `for (initializer; condition; update) body`, reported at `position`. -/
def forLoop (initializer : Statement) (condition : Expr) (update : Statement)
    (body : List Statement) (position bodyPosition : Position) : Statement :=
  .block [initializer, .loop condition [.loopBody body bodyPosition, update] position] position

/-- The assignment `name operation= value`, whose operation is reported at `position`. -/
def compoundAssign (name : String) (operation : Arithmetic) (value : Expr)
    (namePosition position : Position) : Statement :=
  .assign name
    (.binary (.arithmetic operation) (.identifier name namePosition) value position)
    namePosition

/-- Whether a statement is nothing but an update of a variable. -/
def isUpdate : Statement → Bool
  | .evaluate (.unary (.update _ _) _ _) _ => true
  | _ => false

/-- Whether a statement may open a loop over a counter. -/
def canInitialize : Statement → Bool
  | .declare _ _ _ _ => true
  | .assign _ _ _ => true
  | statement => statement.isUpdate

/-- Whether a statement may close a round of a loop over a counter. -/
def canAdvance : Statement → Bool
  | .assign _ _ _ => true
  | statement => statement.isUpdate

end Scriptlet.Statement
