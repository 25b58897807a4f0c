/-
This file shows a tree as an indented outline: every node by name, every field on
a line of its own, four more spaces for each level. Lists are written between
brackets and values that wrap one other value between parentheses.
-/

import Scriptlet.Decimal.FloatStyle
import Scriptlet.Text.Quoted
import Scriptlet.Tree.Basic

namespace Scriptlet

/-- The shape of a shown value. -/
inductive Outline where
  | leaf (text : String)
  | wrapped (name : String) (content : Outline)
  | record (name : String) (fields : List (String × Outline))
  | list (items : List Outline)

namespace Outline

/-- The spaces in front of a line at a level. -/
def indent (level : Nat) : String :=
  String.ofList (List.replicate (4 * level) ' ')

mutual

/-- The text of a value whose first line is already indented to `level`. -/
def render (level : Nat) : Outline → String
  | .leaf text => text
  | .wrapped name content =>
    name ++ "(\n" ++ indent (level + 1) ++ content.render (level + 1) ++ ",\n" ++
      indent level ++ ")"
  | .record name fields =>
    name ++ " \x7b\n" ++ renderFields (level + 1) fields ++ indent level ++ "\x7d"
  | .list [] => "[]"
  | .list (item :: items) =>
    "[\n" ++ renderItems (level + 1) (item :: items) ++ indent level ++ "]"

/-- The lines of the fields of a record. -/
def renderFields (level : Nat) : List (String × Outline) → String
  | [] => ""
  | (name, value) :: fields =>
    indent level ++ name ++ ": " ++ value.render level ++ ",\n" ++ renderFields level fields

/-- The lines of the items of a list. -/
def renderItems (level : Nat) : List Outline → String
  | [] => ""
  | item :: items =>
    indent level ++ item.render level ++ ",\n" ++ renderItems level items

end

/-- The text of a value at the left margin. -/
def text (outline : Outline) : String :=
  outline.render 0

/-- A text between quotes. -/
def quoted (text : String) : Outline :=
  .leaf (Text.quoted text)

/-- An optional value. -/
def optional : Option Outline → Outline
  | none => .leaf "None"
  | some content => .wrapped "Some" content

/-- Doubles in an outline keep a zero behind the point, and have an exponent below a ten
thousandth and from ten to the sixteenth on. -/
def floatStyle : FloatStyle :=
  { exactWhole := false, pointZero := true, positionalOrders := some (-4, 15) }

end Outline

/-- The outline of a place. -/
def Position.outline (position : Position) : Outline :=
  .record "Position"
    [("row", .leaf (toString position.row)), ("col", .leaf (toString position.column))]

/-- The outline of a literal. -/
def Literal.outline : Literal → Outline
  | .int value => .wrapped "Int" (.leaf (toString value.toInt))
  | .float value => .wrapped "Float" (.leaf (Outline.floatStyle.text value))
  | .str value => .wrapped "Str" (.quoted value)
  | .bool value => .wrapped "Bool" (.leaf (if value then "true" else "false"))
  | .nil => .leaf "Nil"

/-- The outline of an operator on two operands. -/
def BinaryOp.outline : BinaryOp → Outline
  | .arithmetic .add => .leaf "Add"
  | .arithmetic .subtract => .leaf "Sub"
  | .arithmetic .multiply => .leaf "Mul"
  | .arithmetic .divide => .leaf "Div"
  | .arithmetic .remainder => .leaf "Mod"
  | .relation .less => .leaf "Less"
  | .relation .greater => .leaf "Greater"
  | .relation .lessOrEqual => .leaf "LessEqual"
  | .relation .greaterOrEqual => .leaf "GreaterEqual"
  | .equal => .leaf "Equal"
  | .notEqual => .leaf "NotEqual"

/-- The outline of a logical operator. -/
def LogicalOp.outline : LogicalOp → Outline
  | .both => .leaf "And"
  | .either => .leaf "Or"

/-- The outline of an operator on one operand. -/
def UnaryOp.outline : UnaryOp → Outline
  | .not => .leaf "Not"
  | .negate => .leaf "Negate"
  | .update .increment .updated => .leaf "PreIncrement"
  | .update .decrement .updated => .leaf "PreDecrement"
  | .update .increment .previous => .leaf "PostIncrement"
  | .update .decrement .previous => .leaf "PostDecrement"

/-- The outline of a mutability. -/
def Mutability.outline : Mutability → Outline
  | .mutable => .leaf "Mutable"
  | .constant => .leaf "Const"

mutual

/-- The outline of an expression. -/
def Expr.outline : Expr → Outline
  | .literal value position =>
    .record "Literal" [("value", value.outline), ("pos", position.outline)]
  | .identifier name position =>
    .record "Identifier" [("name", .quoted name), ("pos", position.outline)]
  | .unary op operand position =>
    .record "Unary"
      [("op", op.outline), ("operand", operand.outline), ("pos", position.outline)]
  | .binary op left right position =>
    .record "Binary"
      [("left", left.outline), ("op", op.outline), ("right", right.outline),
        ("pos", position.outline)]
  | .logical op left right position =>
    .record "Logical"
      [("left", left.outline), ("op", op.outline), ("right", right.outline),
        ("pos", position.outline)]
  | .call callee arguments position =>
    .record "Call"
      [("callee", callee.outline), ("arguments", .list (outlineExprs arguments)),
        ("pos", position.outline)]
  | .lambda procedure position =>
    .record "Lambda" [("def", procedure.outline), ("pos", position.outline)]
  | .index target index position =>
    .record "Index"
      [("target", target.outline), ("index", index.outline), ("pos", position.outline)]

/-- The outlines of expressions. -/
def outlineExprs : List Expr → List Outline
  | [] => []
  | expression :: rest => expression.outline :: outlineExprs rest

/-- The outline of a statement. -/
def Statement.outline : Statement → Outline
  | .declare name value mutability position =>
    .record "Let"
      [("name", .quoted name), ("value", value.outline), ("mutability", mutability.outline),
        ("pos", position.outline)]
  | .assign name value position =>
    .record "Assign"
      [("name", .quoted name), ("value", value.outline), ("pos", position.outline)]
  | .leave none position =>
    .record "Return" [("value", .optional none), ("pos", position.outline)]
  | .leave (some value) position =>
    .record "Return" [("value", .optional (some value.outline)), ("pos", position.outline)]
  | .branch condition thenBranch none position =>
    .record "If"
      [("condition", condition.outline), ("then_branch", .list (outlineStatements thenBranch)),
        ("else_branch", .optional none), ("pos", position.outline)]
  | .branch condition thenBranch (some elseBranch) position =>
    .record "If"
      [("condition", condition.outline), ("then_branch", .list (outlineStatements thenBranch)),
        ("else_branch", .optional (some (.list (outlineStatements elseBranch)))),
        ("pos", position.outline)]
  | .loop condition body position =>
    .record "While"
      [("condition", condition.outline), ("body", .list (outlineStatements body)),
        ("pos", position.outline)]
  | .block statements position =>
    .record "Block"
      [("statements", .list (outlineStatements statements)), ("pos", position.outline)]
  | .loopBody statements position =>
    .record "LoopBody"
      [("statements", .list (outlineStatements statements)), ("pos", position.outline)]
  | .evaluate expression position =>
    .record "Expression" [("expr", expression.outline), ("pos", position.outline)]
  | .breakLoop position => .record "Break" [("pos", position.outline)]
  | .continueLoop position => .record "Continue" [("pos", position.outline)]

/-- The outlines of statements. -/
def outlineStatements : List Statement → List Outline
  | [] => []
  | statement :: rest => statement.outline :: outlineStatements rest

/-- The outline of a procedure. -/
def Procedure.outline : Procedure → Outline
  | ⟨name, parameters, body, position⟩ =>
    .record "FunctionDef"
      [("name", .quoted name), ("params", .list (parameters.map .quoted)),
        ("body", .list (outlineStatements body)), ("pos", position.outline)]

end

/-- The outline of a program. -/
def Program.outline (program : Program) : Outline :=
  .record "Program" [("procedures", .list (program.procedures.map Procedure.outline))]

end Scriptlet
