/-
This file defines what a source text means before it is run: expressions,
statements, procedures and programs. Every node carries the place that messages
about it point at. Loops over a counter and compound assignments have no node
of their own; they are written with the nodes that are here.
-/

import Scriptlet.Position

namespace Scriptlet

/-! ### Operators -/

/-- The operations on numbers. The first one also joins texts and lists. -/
inductive Arithmetic where
  | add
  | subtract
  | multiply
  | divide
  | remainder
deriving DecidableEq

/-- The comparisons by order. -/
inductive Relation where
  | less
  | greater
  | lessOrEqual
  | greaterOrEqual
deriving DecidableEq

/-- The operators that evaluate both operands. -/
inductive BinaryOp where
  | arithmetic (operation : Arithmetic)
  | relation (comparison : Relation)
  | equal
  | notEqual
deriving DecidableEq

/-- The operators that may leave their right operand alone. -/
inductive LogicalOp where
  | both
  | either
deriving DecidableEq

/-- The direction of an update. -/
inductive Step where
  | increment
  | decrement
deriving DecidableEq

/-- Which value of its variable an update yields. -/
inductive Yield where
  | updated
  | previous
deriving DecidableEq

/-- The operators on one operand. -/
inductive UnaryOp where
  | not
  | negate
  | update (step : Step) (yield : Yield)
deriving DecidableEq

/-- The spelling of an operation on numbers. -/
def Arithmetic.spelling : Arithmetic → String
  | .add => "+"
  | .subtract => "-"
  | .multiply => "*"
  | .divide => "/"
  | .remainder => "%"

/-- The spelling of a comparison. -/
def Relation.spelling : Relation → String
  | .less => "<"
  | .greater => ">"
  | .lessOrEqual => "<="
  | .greaterOrEqual => ">="

/-- The spelling of an operator on two operands. -/
def BinaryOp.spelling : BinaryOp → String
  | .arithmetic operation => operation.spelling
  | .relation comparison => comparison.spelling
  | .equal => "=="
  | .notEqual => "!="

/-- The spelling of an update. -/
def Step.spelling : Step → String
  | .increment => "++"
  | .decrement => "--"

/-- The spelling of an operator on one operand. -/
def UnaryOp.spelling : UnaryOp → String
  | .not => "!"
  | .negate => "-"
  | .update step _ => step.spelling

/-! ### Nodes -/

/-- The values that can be written down. -/
inductive Literal where
  | int (value : Int64)
  | float (value : Float)
  | str (value : String)
  | bool (value : Bool)
  | nil
deriving DecidableEq

/-- Whether a variable may be given a new value. -/
inductive Mutability where
  | mutable
  | constant
deriving DecidableEq

mutual

/-- What can be evaluated. -/
inductive Expr where
  | literal (value : Literal) (position : Position)
  | identifier (name : String) (position : Position)
  | unary (op : UnaryOp) (operand : Expr) (position : Position)
  | binary (op : BinaryOp) (left right : Expr) (position : Position)
  | logical (op : LogicalOp) (left right : Expr) (position : Position)
  | call (callee : Expr) (arguments : List Expr) (position : Position)
  | lambda (procedure : Procedure) (position : Position)
  | index (target index : Expr) (position : Position)

/-- What can be executed. A `loopBody` runs as a block does and ends normally when its
statements ask for the next round of a loop. -/
inductive Statement where
  | declare (name : String) (value : Expr) (mutability : Mutability) (position : Position)
  | assign (name : String) (value : Expr) (position : Position)
  | leave (value : Option Expr) (position : Position)
  | branch (condition : Expr) (thenBranch : List Statement)
      (elseBranch : Option (List Statement)) (position : Position)
  | loop (condition : Expr) (body : List Statement) (position : Position)
  | block (statements : List Statement) (position : Position)
  | loopBody (statements : List Statement) (position : Position)
  | evaluate (expression : Expr) (position : Position)
  | breakLoop (position : Position)
  | continueLoop (position : Position)

/-- What can be called. -/
structure Procedure where
  name : String
  parameters : List String
  body : List Statement
  position : Position

end

/-- A list of procedures, in the order they were written. -/
structure Program where
  procedures : List Procedure

/-! ### Places -/

/-- The place that messages about an expression point at: the operator of an operation, the
opening bracket of a call or an index. -/
def Expr.position : Expr → Position
  | .literal _ position => position
  | .identifier _ position => position
  | .unary _ _ position => position
  | .binary _ _ _ position => position
  | .logical _ _ _ position => position
  | .call _ _ position => position
  | .lambda _ position => position
  | .index _ _ position => position

/-- The place that messages about a statement point at. -/
def Statement.position : Statement → Position
  | .declare _ _ _ position => position
  | .assign _ _ position => position
  | .leave _ position => position
  | .branch _ _ _ position => position
  | .loop _ _ position => position
  | .block _ position => position
  | .loopBody _ position => position
  | .evaluate _ position => position
  | .breakLoop position => position
  | .continueLoop position => position

/-! ### Look-up -/

/-- The name of every procedure that is written as an expression. -/
def Procedure.lambdaName : String := "<lambda>"

/-- The number of arguments a procedure takes. -/
def Procedure.arity (procedure : Procedure) : Nat :=
  procedure.parameters.length

/-- The first procedure of a program with a name. -/
def Program.procedure? (program : Program) (name : String) : Option Procedure :=
  program.procedures.find? fun procedure => procedure.name == name

end Scriptlet
