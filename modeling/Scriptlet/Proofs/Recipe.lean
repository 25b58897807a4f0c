/-
This file takes readers apart. A goal is one activation of one of the readers of phrases.
What a reader does by itself, up to the goals it turns to, is its recipe: the recipe looks
at tokens and takes them, and names the goals it has read, and what it does behind such a
goal depends on the tree the goal came to. Following a recipe, with every goal it names read
with a bound, is what the reader does with one unit more.

Whatever is to be shown of every point of reading can then be shown of recipes, where all
readers are treated alike.
-/

import Scriptlet.Parser.Program
import Scriptlet.Proofs.Steps

namespace Scriptlet.Parser

/-! ### Goals -/

/-- An activation of one of the readers of phrases. -/
inductive Goal where
  | expression
  | joined (level : Level)
  | joinedTail (level : Level) (left : Expr)
  | operand (level : Level)
  | unary
  | primary
  | trailing (target : Expr)
  | block
  | blockTail
  | statement
  | simpleStatement
  | declaration (mutability : Mutability)
  | assignment
  | leave
  | condition
  | loop
  | counterLoop
  | branch
  | alternative
  | procedures (defined : List String)

/-- What a goal comes to. -/
abbrev Goal.Tree : Goal → Type
  | .block => Block
  | .blockTail => List Statement
  | .statement => Statement
  | .simpleStatement => Statement
  | .declaration _ => Statement
  | .assignment => Statement
  | .leave => Statement
  | .loop => Statement
  | .counterLoop => Statement
  | .branch => Statement
  | .alternative => List Statement
  | .procedures _ => List Procedure
  | _ => Expr

/-- Reads a goal with a bound. -/
def Goal.reader (bound : Nat) : (goal : Goal) → Parser goal.Tree
  | .expression => Parser.expression bound
  | .joined level => Parser.joined bound level
  | .joinedTail level left => Parser.joinedTail bound level left
  | .operand level => Parser.operand bound level
  | .unary => Parser.unary bound
  | .primary => Parser.primary bound
  | .trailing target => Parser.trailing bound target
  | .block => Parser.block bound
  | .blockTail => Parser.blockTail bound
  | .statement => Parser.statement bound
  | .simpleStatement => Parser.simpleStatement bound
  | .declaration mutability => Parser.declaration bound mutability
  | .assignment => Parser.assignment bound
  | .leave => Parser.leave bound
  | .condition => Parser.condition bound
  | .loop => Parser.loop bound
  | .counterLoop => Parser.counterLoop bound
  | .branch => Parser.branch bound
  | .alternative => Parser.alternative bound
  | .procedures defined => Parser.procedures bound defined

/-- A list with its closing parenthesis. Its items are read with a bound of their own, so it is
none of the goals. -/
inductive Listed where
  | parameters
  | arguments

/-- What a list comes to. -/
abbrev Listed.Items : Listed → Type
  | .parameters => List String
  | .arguments => List Expr

/-- Reads a list with a bound. -/
def Listed.reader (bound : Nat) : (listed : Listed) → Parser listed.Items
  | .parameters => Parser.parameters bound
  | .arguments => commaSeparated (Parser.expression bound) bound

/-! ### Recipes -/

/-- What is done with the tokens that are left. -/
inductive Recipe (α : Type) where
  | done (value : α)
  | fail (fault : ParseFault) (position : Position)
  | look (next : Placed → Recipe α)
  | take (next : Recipe α)
  | advance (expected : Expected) (next : Placed → Recipe α)
  | read (goal : Goal) (next : goal.Tree → Recipe α)
  | list (listed : Listed) (next : listed.Items → Recipe α)

namespace Recipe

variable {α : Type}

/-- Follows a recipe, with goals and lists read with a bound. -/
def run (bound : Nat) : Recipe α → Parser α
  | .done value => pure value
  | .fail fault position => Parser.fail fault position
  | .look next => peek >>= fun found => (next found).run bound
  | .take next => skip >>= fun _ => next.run bound
  | .advance expected next => Parser.advance expected >>= fun found => (next found).run bound
  | .read goal next => goal.reader bound >>= fun tree => (next tree).run bound
  | .list listed next => listed.reader bound >>= fun items => (next items).run bound

/-- Stops because `found` is not what was looked for. -/
def unexpected (found : Placed) (expected : Expected) : Recipe α :=
  match found.token with
  | .endOfInput => .fail (.unexpectedEnd expected) found.position
  | token => .fail (.unexpectedToken token expected) found.position

/-- Takes the next token, which must be `token`. -/
def expect (token : Token) (expected : Expected) (next : Position → Recipe α) : Recipe α :=
  .advance expected fun found =>
    if found.token = token then next found.position else unexpected found expected

/-- Takes a symbol. -/
def expectSymbol (mark : Symbol) (next : Position → Recipe α) : Recipe α :=
  expect (.symbol mark) (.symbol mark) next

/-- Takes a reserved word. -/
def expectKeyword (word : Keyword) (next : Position → Recipe α) : Recipe α :=
  expect (.keyword word) (.keyword word) next

/-- Takes a name. -/
def identifier (next : PlacedName → Recipe α) : Recipe α :=
  .advance .identifier fun found =>
    match found.token with
    | .identifier name => next ⟨name, found.position⟩
    | token =>
      match token.reserved? with
      | some word => .fail (.keywordAsIdentifier word) found.position
      | none => unexpected found .identifier

/-- Applies an operator to the operand behind it. -/
def applyLeading (op : UnaryOp) (operand : Expr) (position : Position) : Recipe Expr :=
  match op with
  | .update _ _ =>
    if isVariable operand then .done (.unary op operand position)
    else .fail .invalidUpdateTarget position
  | _ => .done (.unary op operand position)

/-- Takes the update that stands behind a variable. -/
def trailingUpdate (step : Step) (operand : Expr) (position : Position) : Recipe Expr :=
  if isVariable operand then .take (.done (.unary (.update step .previous) operand position))
  else .fail .invalidUpdateTarget position

/-- Takes what is assigned to a name. -/
def assigned (assigning : String → Position → Expr → Statement) (target : Expr)
    (position : Position) : Recipe Statement :=
  .take <|
    match target with
    | .identifier name place => .read .expression fun value => .done (assigning name place value)
    | _ => .fail .invalidAssignmentTarget position

/-- Takes the header of a loop over a counter, behind its opening parenthesis, and the body. -/
def header (position : Position) : Recipe Statement :=
  .read .simpleStatement fun initializer =>
    if !initializer.canInitialize then .fail .invalidForInitializer initializer.position
    else expectSymbol .semicolon fun _ => .read .expression fun condition =>
      expectSymbol .semicolon fun _ => .read .assignment fun update =>
        if !update.canAdvance then .fail .invalidForUpdate update.position
        else expectSymbol .closeParen fun _ => .read .block fun body =>
          .done (.forLoop initializer condition update body.statements position body.position)

/-- Takes a procedure, whose name must not be among those defined before. -/
def procedure (defined : List String) (next : Procedure → Recipe α) : Recipe α :=
  expectKeyword .procWord fun position => identifier fun name =>
    if name.name ∈ defined then .fail (.duplicateProcedure name.name) name.position
    else .list .parameters fun parameters => .read .block fun body =>
      next ⟨name.name, parameters, body.statements, position⟩

end Recipe

/-! ### What readers do -/

namespace Goal

/-- The recipe of a goal. -/
def recipe : (goal : Goal) → Recipe goal.Tree
  | .expression => .read (.joined .either) .done
  | .joined level => .read (.operand level) fun left => .read (.joinedTail level left) .done
  | .joinedTail level left => .look fun found =>
    match found.token.connectiveAt? level with
    | none => .done left
    | some connective => .take <| .read (.operand level) fun right =>
      .read (.joinedTail level (connective.join left right found.position)) .done
  | .operand level =>
    match level.tighter? with
    | some tighter => .read (.joined tighter) .done
    | none => .read .unary .done
  | .unary => .look fun found =>
    match leadingOp? found.token with
    | some op => .take <| .read .unary fun operand => .applyLeading op operand found.position
    | none => .read .primary fun first => .read (.trailing first) .done
  | .primary => .look fun found =>
    match found.token with
    | .identifier name => .take <| .done (.identifier name found.position)
    | .symbol .openParen => .take <| .read .expression fun inner =>
      .expectSymbol .closeParen fun _ => .done inner
    | .keyword .lamWord => .take <| .list .parameters fun parameters =>
      .expectSymbol .arrow fun _ => .read .block fun body =>
        .done (.lambda ⟨Procedure.lambdaName, parameters, body.statements, found.position⟩
          found.position)
    | token =>
      match literal? token with
      | some literal => .take <| .done (.literal literal found.position)
      | none => .unexpected found .expression
  | .trailing target => .look fun found =>
    match found.token with
    | .symbol .openParen => .take <| .list .arguments fun arguments =>
      .read (.trailing (.call target arguments found.position)) .done
    | .symbol .openBracket => .take <| .read .expression fun index =>
      .expectSymbol .closeBracket fun _ =>
        .read (.trailing (.index target index found.position)) .done
    | .symbol .increment => .trailingUpdate .increment target found.position
    | .symbol .decrement => .trailingUpdate .decrement target found.position
    | _ => .done target
  | .block => .advance (.symbol .openBrace) fun found =>
    match found.token with
    | .symbol .openBrace => .read .blockTail fun statements => .done ⟨statements, found.position⟩
    | token => .fail (.expectedBlock token) found.position
  | .blockTail => .look fun found =>
    match found.token with
    | .symbol .closeBrace => .take <| .done []
    | .endOfInput => .fail (.unexpectedEnd (.symbol .closeBrace)) found.position
    | _ => .read .statement fun first => .read .blockTail fun rest => .done (first :: rest)
  | .statement => .look fun found =>
    match found.token with
    | .keyword .ifWord => .read .branch .done
    | .keyword .whileWord => .read .loop .done
    | .keyword .forWord => .read .counterLoop .done
    | .symbol .openBrace => .read .block fun body => .done (.block body.statements body.position)
    | .keyword .returnWord => .read .leave .done
    | .keyword .breakWord => .take <| .expectSymbol .semicolon fun _ =>
      .done (.breakLoop found.position)
    | .keyword .continueWord => .take <| .expectSymbol .semicolon fun _ =>
      .done (.continueLoop found.position)
    | _ => .read .simpleStatement fun simple => .expectSymbol .semicolon fun _ => .done simple
  | .simpleStatement => .look fun found =>
    match found.token with
    | .keyword .letWord => .read (.declaration .mutable) .done
    | .keyword .constWord => .read (.declaration .constant) .done
    | _ => .read .assignment .done
  | .declaration mutability => .take <| .identifier fun name => .expectSymbol .assign fun _ =>
    .read .expression fun value => .done (.declare name.name value mutability name.position)
  | .assignment => .look fun first => .read .expression fun target => .look fun sign =>
    match sign.token with
    | .symbol .assign =>
      .assigned (fun name position value => .assign name value position) target sign.position
    | token =>
      match token.compound? with
      | some operation =>
        .assigned (fun name position value =>
          .compoundAssign name operation value position sign.position) target sign.position
      | none => .done (.evaluate target first.position)
  | .leave => .expectKeyword .returnWord fun position => .look fun found =>
    match found.token with
    | .symbol .semicolon => .take <| .done (.leave none position)
    | _ => .read .expression fun value => .expectSymbol .semicolon fun _ =>
      .done (.leave (some value) position)
  | .condition => .expectSymbol .openParen fun _ => .read .expression fun condition =>
    .expectSymbol .closeParen fun _ => .done condition
  | .loop => .expectKeyword .whileWord fun position => .read .condition fun condition =>
    .read .block fun body => .done (.loop condition body.statements position)
  | .counterLoop => .expectKeyword .forWord fun position => .expectSymbol .openParen fun _ =>
    .header position
  | .branch => .expectKeyword .ifWord fun position => .read .condition fun condition =>
    .read .block fun body => .look fun found =>
      match found.token with
      | .keyword .elseWord => .take <| .read .alternative fun other =>
        .done (.branch condition body.statements (some other) position)
      | _ => .done (.branch condition body.statements none position)
  | .alternative => .look fun found =>
    match found.token with
    | .keyword .ifWord => .read .branch fun branch => .done [branch]
    | _ => .read .block fun body => .done body.statements
  | .procedures defined => .look fun found =>
    match found.token with
    | .endOfInput => .done []
    | .keyword .procWord => .procedure defined fun first =>
      .read (.procedures (first.name :: defined)) fun rest => .done (first :: rest)
    | _ => .unexpected found (.keyword .procWord)

end Goal

/-! ### Following a recipe -/

namespace Recipe

variable {α β : Type} (bound : Nat)

@[simp] theorem run_done (value : α) : (done value).run bound = pure value := rfl

@[simp] theorem run_fail (fault : ParseFault) (position : Position) :
    (fail fault position : Recipe α).run bound = Parser.fail fault position := rfl

@[simp] theorem run_look (next : Placed → Recipe α) :
    (look next).run bound = peek >>= fun found => (next found).run bound := rfl

@[simp] theorem run_take (next : Recipe α) :
    (take next).run bound = skip >>= fun _ => next.run bound := rfl

@[simp] theorem run_advance (expected : Expected) (next : Placed → Recipe α) :
    (advance expected next).run bound =
      Parser.advance expected >>= fun found => (next found).run bound := rfl

@[simp] theorem run_read (goal : Goal) (next : goal.Tree → Recipe α) :
    (read goal next).run bound = goal.reader bound >>= fun tree => (next tree).run bound := rfl

@[simp] theorem run_list (listed : Listed) (next : listed.Items → Recipe α) :
    (list listed next).run bound =
      listed.reader bound >>= fun items => (next items).run bound := rfl

/-- A choice is made before the recipe is followed. -/
@[simp] theorem run_ite {condition : Prop} [Decidable condition] (first second : Recipe α) :
    (if condition then first else second).run bound =
      if condition then first.run bound else second.run bound := by
  split <;> rfl

/-- Nothing is done behind a fault. -/
@[simp] theorem fail_bind (fault : ParseFault) (position : Position) (next : α → Parser β) :
    (Parser.fail fault position >>= next) = Parser.fail fault position := rfl

/-- Nothing is done behind a token that is not looked for. -/
@[simp] theorem unexpected_bind (found : Placed) (expected : Expected) (next : α → Parser β) :
    (Parser.unexpected found expected >>= next) = Parser.unexpected found expected := by
  unfold Parser.unexpected
  split <;> rfl

@[simp] theorem run_unexpected (found : Placed) (expected : Expected) :
    (unexpected found expected : Recipe α).run bound = Parser.unexpected found expected := by
  unfold unexpected Parser.unexpected
  split <;> simp only [run_fail, *]

/-- Taking a token that must be there is what the reader of single tokens does. -/
theorem run_expect (token : Token) (expected : Expected) (next : Position → Recipe α) :
    (expect token expected next).run bound =
      Parser.expect token expected >>= fun position => (next position).run bound := by
  rw [Parser.expect, bind_assoc]
  refine bind_congr fun found => ?_
  rw [run_ite, run_unexpected]
  split
  · rw [pure_bind]
  · rw [unexpected_bind]

@[simp] theorem run_expectSymbol (mark : Symbol) (next : Position → Recipe α) :
    (expectSymbol mark next).run bound =
      Parser.expectSymbol mark >>= fun position => (next position).run bound :=
  run_expect bound _ _ next

@[simp] theorem run_expectKeyword (word : Keyword) (next : Position → Recipe α) :
    (expectKeyword word next).run bound =
      Parser.expectKeyword word >>= fun position => (next position).run bound :=
  run_expect bound _ _ next

/-- A name is taken as the reader of names takes it. -/
@[simp] theorem run_identifier (next : PlacedName → Recipe α) :
    (identifier next).run bound = Parser.identifier >>= fun name => (next name).run bound := by
  rw [Parser.identifier, bind_assoc]
  refine bind_congr fun found => ?_
  split
  · simp only [pure_bind, *]
  · split <;> simp only [run_fail, run_unexpected, fail_bind, unexpected_bind, *]

@[simp] theorem run_applyLeading (op : UnaryOp) (operand : Expr) (position : Position) :
    (applyLeading op operand position).run bound = Parser.applyLeading op operand position := by
  cases op <;> simp [applyLeading, Parser.applyLeading]

@[simp] theorem run_trailingUpdate (step : Step) (operand : Expr) (position : Position) :
    (trailingUpdate step operand position).run bound =
      Parser.trailingUpdate step operand position := by
  simp [trailingUpdate, Parser.trailingUpdate]

/-- A procedure is taken as the reader of procedures takes it. -/
@[simp] theorem run_procedure (defined : List String) (next : Procedure → Recipe α) :
    (procedure defined next).run bound =
      Parser.procedure bound defined >>= fun tree => (next tree).run bound := by
  simp only [procedure, Parser.procedure, run_expectKeyword, run_identifier, run_ite, run_fail,
    run_list, run_read, bind_assoc]
  refine bind_congr fun position => bind_congr fun name => ?_
  split
  · rfl
  · simp [Listed.reader, Goal.reader]

end Recipe

/-- A goal that is read with no bound left stops at the bound. -/
theorem Goal.reader_zero (goal : Goal) : goal.reader 0 = exhausted := by
  cases goal <;> simp only [reader, Parser.expression, Parser.joined, Parser.joinedTail,
    Parser.operand, Parser.unary, Parser.primary, Parser.trailing, Parser.block, Parser.blockTail,
    Parser.statement, Parser.simpleStatement, Parser.declaration, Parser.assignment, Parser.leave,
    Parser.condition, Parser.loop, Parser.counterLoop, Parser.branch, Parser.alternative,
    Parser.procedures]

/-- To read a goal with one unit more is to follow its recipe. -/
theorem Goal.reader_succ (goal : Goal) (bound : Nat) :
    goal.reader (bound + 1) = goal.recipe.run bound := by
  cases goal with
  | expression => simp [reader, recipe, Parser.expression]
  | joined level => simp [reader, recipe, Parser.joined]
  | joinedTail level left =>
    rw [reader, Parser.joinedTail]
    refine bind_congr fun found => ?_
    split <;> simp [reader, *]
  | operand level =>
    rw [reader, Parser.operand, recipe]
    split <;> simp [reader, *]
  | unary =>
    rw [reader, Parser.unary]
    refine bind_congr fun found => ?_
    split <;> simp [reader, *]
  | primary =>
    rw [reader, Parser.primary]
    refine bind_congr fun found => ?_
    split
    · simp [*]
    · simp [reader, *]
    · simp [reader, Listed.reader, *]
    · split <;> simp [*]
  | trailing target =>
    rw [reader, Parser.trailing]
    refine bind_congr fun found => ?_
    split <;> simp [reader, Listed.reader, *]
  | block =>
    rw [reader, Parser.block]
    refine bind_congr fun found => ?_
    split <;> simp [reader, *]
  | blockTail =>
    rw [reader, Parser.blockTail]
    refine bind_congr fun found => ?_
    split <;> simp [reader, *]
  | statement =>
    rw [reader, Parser.statement]
    refine bind_congr fun found => ?_
    split <;> simp [reader, *]
  | simpleStatement =>
    rw [reader, Parser.simpleStatement]
    refine bind_congr fun found => ?_
    split <;> simp [reader, *]
  | declaration mutability => simp [reader, recipe, Parser.declaration]
  | assignment =>
    rw [reader, Parser.assignment]
    refine bind_congr fun first => bind_congr fun target => bind_congr fun sign => ?_
    split
    · cases target <;> simp [Recipe.assigned, reader, *]
    · split
      · cases target <;> simp [Recipe.assigned, reader, *]
      · simp [*]
  | leave =>
    simp only [reader, recipe, Parser.leave, Recipe.run_expectKeyword, Recipe.run_look]
    refine bind_congr fun position => bind_congr fun found => ?_
    split <;> simp [reader, *]
  | condition => simp [reader, recipe, Parser.condition]
  | loop => simp [reader, recipe, Parser.loop]
  | counterLoop =>
    simp [reader, recipe, Parser.counterLoop, Recipe.header]
  | branch =>
    simp only [reader, recipe, Parser.branch, Recipe.run_expectKeyword, Recipe.run_look,
      Recipe.run_read]
    refine bind_congr fun position => bind_congr fun test => bind_congr fun body =>
      bind_congr fun found => ?_
    split <;> simp [reader, *]
  | alternative =>
    rw [reader, Parser.alternative]
    refine bind_congr fun found => ?_
    split <;> simp [reader, *]
  | procedures defined =>
    rw [reader, Parser.procedures]
    refine bind_congr fun found => ?_
    split <;> simp [reader, *]

end Scriptlet.Parser
