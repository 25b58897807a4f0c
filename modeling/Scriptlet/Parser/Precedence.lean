/-
This file says which symbols join two operands and how tightly. There are six
levels, all of them grouping from the left; division stands with addition and
subtraction, not with multiplication.
-/

import Scriptlet.Token.Basic
import Scriptlet.Tree.Basic

namespace Scriptlet

/-- An operator between two operands. -/
inductive Connective where
  | binary (op : BinaryOp)
  | logical (op : LogicalOp)
deriving DecidableEq

/-- The levels of binding. -/
inductive Level where
  | either
  | both
  | equality
  | relation
  | sum
  | product
deriving DecidableEq

/-- The level that binds the next tighter; the operands of the tightest one join nothing. -/
def Level.tighter? : Level → Option Level
  | .either => some .both
  | .both => some .equality
  | .equality => some .relation
  | .relation => some .sum
  | .sum => some .product
  | .product => none

namespace Connective

/-- How tightly an operator binds. -/
def level : Connective → Level
  | .logical .either => .either
  | .logical .both => .both
  | .binary .equal => .equality
  | .binary .notEqual => .equality
  | .binary (.relation _) => .relation
  | .binary (.arithmetic .add) => .sum
  | .binary (.arithmetic .subtract) => .sum
  | .binary (.arithmetic .divide) => .sum
  | .binary (.arithmetic .multiply) => .product
  | .binary (.arithmetic .remainder) => .product

/-- The expression of an operator and its operands. -/
def join (connective : Connective) (left right : Expr) (position : Position) : Expr :=
  match connective with
  | .binary op => .binary op left right position
  | .logical op => .logical op left right position

end Connective

namespace Symbol

/-- The operation a symbol stands for between two operands that are both evaluated. -/
def binary? : Symbol → Option BinaryOp
  | .plus => some (.arithmetic .add)
  | .minus => some (.arithmetic .subtract)
  | .times => some (.arithmetic .multiply)
  | .slash => some (.arithmetic .divide)
  | .remainder => some (.arithmetic .remainder)
  | .less => some (.relation .less)
  | .greater => some (.relation .greater)
  | .lessOrEqual => some (.relation .lessOrEqual)
  | .greaterOrEqual => some (.relation .greaterOrEqual)
  | .equal => some .equal
  | .notEqual => some .notEqual
  | _ => none

/-- The operator a symbol stands for between two operands. -/
def connective? : Symbol → Option Connective
  | .both => some (.logical .both)
  | .either => some (.logical .either)
  | mark => mark.binary?.map .binary

/-- The operation of a compound assignment. -/
def compound? : Symbol → Option Arithmetic
  | .plusAssign => some .add
  | .minusAssign => some .subtract
  | .timesAssign => some .multiply
  | .slashAssign => some .divide
  | .remainderAssign => some .remainder
  | _ => none

end Symbol

namespace Token

/-- The operation a token stands for between two operands that are both evaluated. -/
def binary? : Token → Option BinaryOp
  | .symbol mark => mark.binary?
  | _ => none

/-- The operation of the compound assignment a token stands for. -/
def compound? : Token → Option Arithmetic
  | .symbol mark => mark.compound?
  | _ => none

/-- The operator of a level that a token stands for. -/
def connectiveAt? (level : Level) : Token → Option Connective
  | .symbol mark => mark.connective?.filter fun connective => connective.level == level
  | _ => none

end Token

end Scriptlet
