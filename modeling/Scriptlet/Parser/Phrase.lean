/-
This file reads expressions and statements. One token of look-ahead decides which
phrase comes next. Expressions are read level by level, each level joining
operands of the next tighter one from the left; behind a primary expression any
number of calls and indices may follow, and an update at the end. Statements
nest in expressions through the bodies of lambdas, so all readers are defined
together, by recursion on a bound on their nesting.
-/

import Scriptlet.Parser.Basic
import Scriptlet.Parser.Precedence
import Scriptlet.Tree.Sugar

namespace Scriptlet.Parser

/-- A block: its statements and the place of its opening brace. -/
structure Block where
  statements : List Statement
  position : Position

/-- The operator a token stands for in front of its operand. -/
def leadingOp? : Token → Option UnaryOp
  | .symbol .minus => some .negate
  | .symbol .bang => some .not
  | .symbol .increment => some (.update .increment .updated)
  | .symbol .decrement => some (.update .decrement .updated)
  | _ => none

/-- The literal a token stands for. -/
def literal? : Token → Option Literal
  | .int value => some (.int value)
  | .float value => some (.float value)
  | .str value => some (.str value)
  | .bool value => some (.bool value)
  | .keyword .nilWord => some .nil
  | _ => none

/-- What an update may be applied to. -/
def isVariable : Expr → Bool
  | .identifier _ _ => true
  | _ => false

/-- An operator applied to the operand behind it. Only a variable can be updated. -/
def applyLeading (op : UnaryOp) (operand : Expr) (position : Position) : Parser Expr :=
  match op with
  | .update _ _ =>
    if isVariable operand then return .unary op operand position
    else fail .invalidUpdateTarget position
  | _ => return .unary op operand position

/-- Takes the update that stands behind a variable. -/
def trailingUpdate (step : Step) (operand : Expr) (position : Position) : Parser Expr := do
  if isVariable operand then
    skip
    return .unary (.update step .previous) operand position
  else fail .invalidUpdateTarget position

mutual

/-- Takes an expression. -/
def expression : Nat → Parser Expr
  | 0 => exhausted
  | bound + 1 => joined bound .either

/-- Takes operands joined at a level or tighter. -/
def joined : Nat → Level → Parser Expr
  | 0, _ => exhausted
  | bound + 1, level => do
    let left ← operand bound level
    joinedTail bound level left

/-- Takes the operators of a level that follow `left`, with their right operands. -/
def joinedTail : Nat → Level → Expr → Parser Expr
  | 0, _, _ => exhausted
  | bound + 1, level, left => do
    let found ← peek
    match found.token.connectiveAt? level with
    | none => return left
    | some connective =>
      skip
      let right ← operand bound level
      joinedTail bound level (connective.join left right found.position)

/-- Takes an operand of a level. -/
def operand : Nat → Level → Parser Expr
  | 0, _ => exhausted
  | bound + 1, level =>
    match level.tighter? with
    | some tighter => joined bound tighter
    | none => unary bound

/-- Takes an operand with the operators in front of it. -/
def unary : Nat → Parser Expr
  | 0 => exhausted
  | bound + 1 => do
    let found ← peek
    match leadingOp? found.token with
    | some op =>
      skip
      let operand ← unary bound
      applyLeading op operand found.position
    | none =>
      let first ← primary bound
      trailing bound first

/-- Takes a literal, a name, an expression in parentheses or a lambda. -/
def primary : Nat → Parser Expr
  | 0 => exhausted
  | bound + 1 => do
    let found ← peek
    match found.token with
    | .identifier name =>
      skip
      return .identifier name found.position
    | .symbol .openParen =>
      skip
      let inner ← expression bound
      let _ ← expectSymbol .closeParen
      return inner
    | .keyword .lamWord =>
      skip
      let parameters ← parameters bound
      let _ ← expectSymbol .arrow
      let body ← block bound
      return .lambda ⟨Procedure.lambdaName, parameters, body.statements, found.position⟩
        found.position
    | token =>
      match literal? token with
      | some literal =>
        skip
        return .literal literal found.position
      | none => unexpected found .expression

/-- Takes the calls, indices and the update that follow an expression. -/
def trailing : Nat → Expr → Parser Expr
  | 0, _ => exhausted
  | bound + 1, target => do
    let found ← peek
    match found.token with
    | .symbol .openParen =>
      skip
      let arguments ← commaSeparated (expression bound) bound
      trailing bound (.call target arguments found.position)
    | .symbol .openBracket =>
      skip
      let index ← expression bound
      let _ ← expectSymbol .closeBracket
      trailing bound (.index target index found.position)
    | .symbol .increment => trailingUpdate .increment target found.position
    | .symbol .decrement => trailingUpdate .decrement target found.position
    | _ => return target

/-- Takes statements between braces. -/
def block : Nat → Parser Block
  | 0 => exhausted
  | bound + 1 => do
    let found ← advance (.symbol .openBrace)
    match found.token with
    | .symbol .openBrace => return ⟨← blockTail bound, found.position⟩
    | token => fail (.expectedBlock token) found.position

/-- Takes statements up to the closing brace. -/
def blockTail : Nat → Parser (List Statement)
  | 0 => exhausted
  | bound + 1 => do
    let found ← peek
    match found.token with
    | .symbol .closeBrace =>
      skip
      return []
    | .endOfInput => fail (.unexpectedEnd (.symbol .closeBrace)) found.position
    | _ =>
      let first ← statement bound
      return first :: (← blockTail bound)

/-- Takes a statement. -/
def statement : Nat → Parser Statement
  | 0 => exhausted
  | bound + 1 => do
    let found ← peek
    match found.token with
    | .keyword .ifWord => branch bound
    | .keyword .whileWord => loop bound
    | .keyword .forWord => counterLoop bound
    | .symbol .openBrace =>
      let body ← block bound
      return .block body.statements body.position
    | .keyword .returnWord => leave bound
    | .keyword .breakWord =>
      skip
      let _ ← expectSymbol .semicolon
      return .breakLoop found.position
    | .keyword .continueWord =>
      skip
      let _ ← expectSymbol .semicolon
      return .continueLoop found.position
    | _ =>
      let simple ← simpleStatement bound
      let _ ← expectSymbol .semicolon
      return simple

/-- Takes a declaration, an assignment or an expression. -/
def simpleStatement : Nat → Parser Statement
  | 0 => exhausted
  | bound + 1 => do
    match (← peek).token with
    | .keyword .letWord => declaration bound .mutable
    | .keyword .constWord => declaration bound .constant
    | _ => assignment bound

/-- Takes a declaration, whose first word is next. -/
def declaration : Nat → Mutability → Parser Statement
  | 0, _ => exhausted
  | bound + 1, mutability => do
    skip
    let name ← identifier
    let _ ← expectSymbol .assign
    let value ← expression bound
    return .declare name.name value mutability name.position

/-- Takes an expression and, if an assignment sign follows it, what is assigned to it. -/
def assignment : Nat → Parser Statement
  | 0 => exhausted
  | bound + 1 => do
    let first ← peek
    let target ← expression bound
    let sign ← peek
    match sign.token with
    | .symbol .assign =>
      skip
      match target with
      | .identifier name position => return .assign name (← expression bound) position
      | _ => fail .invalidAssignmentTarget sign.position
    | token =>
      match token.compound? with
      | some operation =>
        skip
        match target with
        | .identifier name position =>
          return .compoundAssign name operation (← expression bound) position sign.position
        | _ => fail .invalidAssignmentTarget sign.position
      | none => return .evaluate target first.position

/-- Takes a return, with or without a value. -/
def leave : Nat → Parser Statement
  | 0 => exhausted
  | bound + 1 => do
    let position ← expectKeyword .returnWord
    match (← peek).token with
    | .symbol .semicolon =>
      skip
      return .leave none position
    | _ =>
      let value ← expression bound
      let _ ← expectSymbol .semicolon
      return .leave (some value) position

/-- Takes an expression in parentheses. -/
def condition : Nat → Parser Expr
  | 0 => exhausted
  | bound + 1 => do
    let _ ← expectSymbol .openParen
    let condition ← expression bound
    let _ ← expectSymbol .closeParen
    return condition

/-- Takes a loop with a condition. -/
def loop : Nat → Parser Statement
  | 0 => exhausted
  | bound + 1 => do
    let position ← expectKeyword .whileWord
    let condition ← condition bound
    let body ← block bound
    return .loop condition body.statements position

/-- Takes a loop over a counter. -/
def counterLoop : Nat → Parser Statement
  | 0 => exhausted
  | bound + 1 => do
    let position ← expectKeyword .forWord
    let _ ← expectSymbol .openParen
    let initializer ← simpleStatement bound
    if !initializer.canInitialize then fail .invalidForInitializer initializer.position
    let _ ← expectSymbol .semicolon
    let condition ← expression bound
    let _ ← expectSymbol .semicolon
    let update ← assignment bound
    if !update.canAdvance then fail .invalidForUpdate update.position
    let _ ← expectSymbol .closeParen
    let body ← block bound
    return .forLoop initializer condition update body.statements position body.position

/-- Takes a branch, with or without an alternative. -/
def branch : Nat → Parser Statement
  | 0 => exhausted
  | bound + 1 => do
    let position ← expectKeyword .ifWord
    let condition ← condition bound
    let body ← block bound
    match (← peek).token with
    | .keyword .elseWord =>
      skip
      return .branch condition body.statements (some (← alternative bound)) position
    | _ => return .branch condition body.statements none position

/-- Takes what stands behind an else: another branch or a block. -/
def alternative : Nat → Parser (List Statement)
  | 0 => exhausted
  | bound + 1 => do
    match (← peek).token with
    | .keyword .ifWord => return [← branch bound]
    | _ => return (← block bound).statements

end

/-- Takes statements up to the end of the tokens. -/
def statements : Nat → Parser (List Statement)
  | 0 => exhausted
  | bound + 1 => do
    match (← peek).token with
    | .endOfInput => return []
    | _ =>
      let first ← statement bound
      return first :: (← statements bound)

end Scriptlet.Parser
