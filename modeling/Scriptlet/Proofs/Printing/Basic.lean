/-
This file writes trees down as tokens. Every operand that is not a literal or a name stands
in parentheses, so that no operator takes a part of another one's operand. A block of the
shape that a loop over a counter stands for is written as such a loop, an alternative as a
block in braces, and an assignment with a plain sign.

Not every tree can be written: a lambda has no name of its own, only a variable can be
updated, names may have to differ, and the shielded body of a loop over a counter cannot
stand alone. The trees that can be written are those of the shape that sources have.
-/

import Scriptlet.Proofs.Grammar.Basic

namespace Scriptlet

open Grammar

/-! ### Operators -/

/-- The symbol of an update. -/
def Step.symbol : Step → Symbol
  | .increment => .increment
  | .decrement => .decrement

/-- The symbol of an operation on one operand. -/
def UnaryOp.symbol : UnaryOp → Symbol
  | .negate => .minus
  | .not => .bang
  | .update step _ => step.symbol

/-- The symbol of an operation on two operands. -/
def BinaryOp.symbol : BinaryOp → Symbol
  | .arithmetic .add => .plus
  | .arithmetic .subtract => .minus
  | .arithmetic .multiply => .times
  | .arithmetic .divide => .slash
  | .arithmetic .remainder => .remainder
  | .relation .less => .less
  | .relation .greater => .greater
  | .relation .lessOrEqual => .lessOrEqual
  | .relation .greaterOrEqual => .greaterOrEqual
  | .equal => .equal
  | .notEqual => .notEqual

/-- The symbol of a logical operation. -/
def LogicalOp.symbol : LogicalOp → Symbol
  | .both => .both
  | .either => .either

/-- The word that opens a declaration. -/
def Mutability.word : Mutability → Keyword
  | .mutable => .letWord
  | .constant => .constWord

/-! ### Brackets and lists -/

/-- Tokens in parentheses. -/
def parenthesized (tokens : List Token) : List Token :=
  .symbol .openParen :: tokens ++ [.symbol .closeParen]

/-- Tokens in braces. -/
def braced (tokens : List Token) : List Token :=
  .symbol .openBrace :: tokens ++ [.symbol .closeBrace]

/-- Items with a comma between each two. -/
def withCommas : List (List Token) → List Token
  | [] => []
  | [only] => only
  | first :: next :: rest => first ++ .symbol .comma :: withCommas (next :: rest)

/-- A parameter list. -/
def parameterTokens (names : List String) : List Token :=
  parenthesized (withCommas (names.map fun name => [.identifier name]))

/-- The tokens of an operand, in parentheses unless it is a literal or a name. -/
def asOperand : Expr → List Token → List Token
  | .literal _ _, tokens => tokens
  | .identifier _ _, tokens => tokens
  | _, tokens => parenthesized tokens

/-- An operand with its operator, which stands behind it if the update yields the value before. -/
def withOperator : UnaryOp → List Token → List Token
  | .update step .previous, operand => operand ++ [.symbol step.symbol]
  | op, operand => .symbol op.symbol :: operand

/-- Whether a semicolon ends a statement that can also stand without it. -/
def Statement.isSimple : Statement → Bool
  | .declare _ _ _ _ => true
  | .assign _ _ _ => true
  | .evaluate _ _ => true
  | _ => false

/-- The tokens of a statement with the semicolon it needs. -/
def terminated (statement : Statement) (tokens : List Token) : List Token :=
  if statement.isSimple then tokens ++ [.symbol .semicolon] else tokens

/-! ### Trees -/

mutual

/-- The tokens of an expression. -/
def Expr.tokens : Expr → List Token
  | .literal value _ => [literalToken value]
  | .identifier name _ => [.identifier name]
  | .unary op operand _ => withOperator op (asOperand operand operand.tokens)
  | .binary op left right _ =>
    asOperand left left.tokens ++ .symbol op.symbol :: asOperand right right.tokens
  | .logical op left right _ =>
    asOperand left left.tokens ++ .symbol op.symbol :: asOperand right right.tokens
  | .call callee arguments _ =>
    asOperand callee callee.tokens ++ parenthesized (withCommas (exprTokens arguments))
  | .lambda ⟨_, parameters, body, _⟩ _ =>
    .keyword .lamWord :: parameterTokens parameters ++
      .symbol .arrow :: braced (statementTokens body)
  | .index target index _ =>
    asOperand target target.tokens ++
      .symbol .openBracket :: index.tokens ++ [.symbol .closeBracket]

/-- The tokens of each of some expressions. -/
def exprTokens : List Expr → List (List Token)
  | [] => []
  | first :: rest => first.tokens :: exprTokens rest

/-- The tokens of a statement, without the semicolon of a simple one. -/
def Statement.core : Statement → List Token
  | .declare name value mutability _ =>
    .keyword mutability.word :: .identifier name :: .symbol .assign :: value.tokens
  | .assign name value _ => .identifier name :: .symbol .assign :: value.tokens
  | .leave none _ => [.keyword .returnWord, .symbol .semicolon]
  | .leave (some value) _ => .keyword .returnWord :: value.tokens ++ [.symbol .semicolon]
  | .branch condition thenBranch none _ =>
    .keyword .ifWord :: parenthesized condition.tokens ++ braced (statementTokens thenBranch)
  | .branch condition thenBranch (some elseBranch) _ =>
    .keyword .ifWord :: parenthesized condition.tokens ++ braced (statementTokens thenBranch) ++
      .keyword .elseWord :: braced (statementTokens elseBranch)
  | .loop condition body _ =>
    .keyword .whileWord :: parenthesized condition.tokens ++ braced (statementTokens body)
  | .block [initializer, .loop condition [.loopBody body _, update] _] _ =>
    .keyword .forWord ::
      parenthesized (initializer.core ++ .symbol .semicolon :: condition.tokens ++
        .symbol .semicolon :: update.core) ++
      braced (statementTokens body)
  | .block statements _ => braced (statementTokens statements)
  | .loopBody statements _ => braced (statementTokens statements)
  | .evaluate expression _ => expression.tokens
  | .breakLoop _ => [.keyword .breakWord, .symbol .semicolon]
  | .continueLoop _ => [.keyword .continueWord, .symbol .semicolon]

/-- The tokens of statements that follow each other. -/
def statementTokens : List Statement → List Token
  | [] => []
  | first :: rest => terminated first first.core ++ statementTokens rest

end

/-- The tokens of a statement. -/
def Statement.tokens (statement : Statement) : List Token :=
  terminated statement statement.core

/-- The tokens of a procedure. -/
def Procedure.tokens (procedure : Procedure) : List Token :=
  .keyword .procWord :: .identifier procedure.name :: parameterTokens procedure.parameters ++
    braced (statementTokens procedure.body)

/-- The tokens of a program. -/
def Program.tokens (program : Program) : List Token :=
  program.procedures.flatMap Procedure.tokens

theorem exprTokens_eq (expressions : List Expr) :
    exprTokens expressions = expressions.map Expr.tokens := by
  induction expressions with
  | nil => rfl
  | cons first rest inductionHypothesis =>
    rw [exprTokens, inductionHypothesis, List.map_cons]

theorem statementTokens_eq (statements : List Statement) :
    statementTokens statements = statements.flatMap Statement.tokens := by
  induction statements with
  | nil => rfl
  | cons first rest inductionHypothesis =>
    rw [statementTokens, inductionHypothesis, List.flatMap_cons]
    rfl

/-! ### Trees that can be written -/

/-- The kinds of trees that sources have. -/
inductive TreeKind where
  | expression
  | statement

/-- The trees of a kind. -/
abbrev TreeKind.Tree : TreeKind → Type
  | .expression => Expr
  | .statement => Statement

/-- The trees of the shape that sources have: only variables are updated, lambdas have the name of
all lambdas and no parameter twice, and the body of a loop over a counter stands nowhere else. -/
inductive SourceShaped : (kind : TreeKind) → kind.Tree → Prop where
  | literal (value : Literal) (position : Position) :
    SourceShaped .expression (.literal value position)
  | identifier (name : String) (position : Position) :
    SourceShaped .expression (.identifier name position)
  | negate {operand : Expr} (position : Position) : SourceShaped .expression operand →
    SourceShaped .expression (.unary .negate operand position)
  | not {operand : Expr} (position : Position) : SourceShaped .expression operand →
    SourceShaped .expression (.unary .not operand position)
  | update (step : Step) (yield : Yield) (name : String) (place position : Position) :
    SourceShaped .expression (.unary (.update step yield) (.identifier name place) position)
  | binary (op : BinaryOp) {left right : Expr} (position : Position) :
    SourceShaped .expression left → SourceShaped .expression right →
    SourceShaped .expression (.binary op left right position)
  | logical (op : LogicalOp) {left right : Expr} (position : Position) :
    SourceShaped .expression left → SourceShaped .expression right →
    SourceShaped .expression (.logical op left right position)
  | call {callee : Expr} {arguments : List Expr} (position : Position) :
    SourceShaped .expression callee →
    (∀ argument ∈ arguments, SourceShaped .expression argument) →
    SourceShaped .expression (.call callee arguments position)
  | lambda {parameters : List String} {body : List Statement} (place position : Position) :
    parameters.Nodup → (∀ statement ∈ body, SourceShaped .statement statement) →
    SourceShaped .expression
      (.lambda ⟨Procedure.lambdaName, parameters, body, place⟩ position)
  | index {target index : Expr} (position : Position) :
    SourceShaped .expression target → SourceShaped .expression index →
    SourceShaped .expression (.index target index position)
  | declare (name : String) {value : Expr} (mutability : Mutability) (position : Position) :
    SourceShaped .expression value →
    SourceShaped .statement (.declare name value mutability position)
  | assign (name : String) {value : Expr} (position : Position) :
    SourceShaped .expression value → SourceShaped .statement (.assign name value position)
  | leave (position : Position) : SourceShaped .statement (.leave none position)
  | leaveWith {value : Expr} (position : Position) : SourceShaped .expression value →
    SourceShaped .statement (.leave (some value) position)
  | branchAlone {condition : Expr} {thenBranch : List Statement} (position : Position) :
    SourceShaped .expression condition →
    (∀ statement ∈ thenBranch, SourceShaped .statement statement) →
    SourceShaped .statement (.branch condition thenBranch none position)
  | branchElse {condition : Expr} {thenBranch elseBranch : List Statement} (position : Position) :
    SourceShaped .expression condition →
    (∀ statement ∈ thenBranch, SourceShaped .statement statement) →
    (∀ statement ∈ elseBranch, SourceShaped .statement statement) →
    SourceShaped .statement (.branch condition thenBranch (some elseBranch) position)
  | loop {condition : Expr} {body : List Statement} (position : Position) :
    SourceShaped .expression condition →
    (∀ statement ∈ body, SourceShaped .statement statement) →
    SourceShaped .statement (.loop condition body position)
  | block {statements : List Statement} (position : Position) :
    (∀ statement ∈ statements, SourceShaped .statement statement) →
    SourceShaped .statement (.block statements position)
  | counterLoop {initializer update : Statement} {condition : Expr} {body : List Statement}
      (bodyPlace loopPlace position : Position) :
    SourceShaped .statement initializer → Initializes initializer →
    SourceShaped .expression condition →
    (∀ statement ∈ body, SourceShaped .statement statement) →
    SourceShaped .statement update → Advances update →
    SourceShaped .statement
      (.block [initializer, .loop condition [.loopBody body bodyPlace, update] loopPlace] position)
  | evaluate {expression : Expr} (position : Position) : SourceShaped .expression expression →
    SourceShaped .statement (.evaluate expression position)
  | breakLoop (position : Position) : SourceShaped .statement (.breakLoop position)
  | continueLoop (position : Position) : SourceShaped .statement (.continueLoop position)

/-- A procedure that a source can have. -/
structure Procedure.SourceShaped (procedure : Procedure) : Prop where
  parameters : procedure.parameters.Nodup
  body : ∀ statement ∈ procedure.body, Scriptlet.SourceShaped .statement statement

/-- A program that a source can have: no two procedures have one name. -/
structure Program.SourceShaped (program : Program) : Prop where
  names : (program.procedures.map Procedure.name).Nodup
  procedures : ∀ procedure ∈ program.procedures, procedure.SourceShaped

/-- A block of the shape of a loop over a counter is not a list of statements that can be written
one by one. -/
theorem core_block {statements : List Statement} (position : Position)
    (shaped : ∀ statement ∈ statements, SourceShaped .statement statement) :
    (Statement.block statements position).core = braced (statementTokens statements) := by
  rw [Statement.core]
  intro initializer condition body _ update _ same
  rw [same] at shaped
  cases shaped _ (List.mem_cons_of_mem _ List.mem_cons_self) with
  | loop _ _ inside => cases inside _ List.mem_cons_self

end Scriptlet
