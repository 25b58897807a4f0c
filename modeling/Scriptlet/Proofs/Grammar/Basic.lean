/-
This file states the grammar of the language, apart from any reader. A phrase of
some kind is derived from a list of placed tokens together with the tree it stands
for, and every place in the tree is that of a token of the phrase. There are six
levels of operators between two operands, all of them grouping from the left, with
division among the sums; operators in front of an operand bind tighter, and calls,
indices and updates behind it the tightest. Loops over a counter, chains of
alternatives and compound assignments stand for the trees they are short for.

As the grammar is written down, a call or an index may follow anything that stands
behind a primary expression, an update included. Readers take an update to be the
end of its operand. Whether an update may be followed in this way is therefore a
parameter of the grammar.
-/

import Scriptlet.Parser.Phrase

namespace Scriptlet.Grammar

/-! ### Tokens -/

/-- A symbol at a place. -/
def mark (symbol : Symbol) (position : Position) : Placed := ⟨.symbol symbol, position⟩

/-- A reserved word at a place. -/
def word (keyword : Keyword) (position : Position) : Placed := ⟨.keyword keyword, position⟩

/-- A name at a place. -/
def named (name : String) (position : Position) : Placed := ⟨.identifier name, position⟩

/-- The token of a literal. -/
def literalToken : Literal → Token
  | .int value => .int value
  | .float value => .float value
  | .str value => .str value
  | .bool value => .bool value
  | .nil => .keyword .nilWord

/-- The operators of a level. -/
def operators : Level → List (Symbol × Connective)
  | .either => [(.either, .logical .either)]
  | .both => [(.both, .logical .both)]
  | .equality => [(.equal, .binary .equal), (.notEqual, .binary .notEqual)]
  | .relation =>
    [(.less, .binary (.relation .less)), (.greater, .binary (.relation .greater)),
      (.lessOrEqual, .binary (.relation .lessOrEqual)),
      (.greaterOrEqual, .binary (.relation .greaterOrEqual))]
  | .sum =>
    [(.plus, .binary (.arithmetic .add)), (.minus, .binary (.arithmetic .subtract)),
      (.slash, .binary (.arithmetic .divide))]
  | .product =>
    [(.times, .binary (.arithmetic .multiply)), (.remainder, .binary (.arithmetic .remainder))]

/-- Each level but the tightest, and the level of its operands. -/
def nextLevels : List (Level × Level) :=
  [(.either, .both), (.both, .equality), (.equality, .relation), (.relation, .sum),
    (.sum, .product)]

/-- The operators in front of an operand. -/
def leadingOperators : List (Symbol × UnaryOp) :=
  [(.minus, .negate), (.bang, .not), (.increment, .update .increment .updated),
    (.decrement, .update .decrement .updated)]

/-- The updates behind a variable. -/
def updates : List (Symbol × Step) :=
  [(.increment, .increment), (.decrement, .decrement)]

/-- The signs of compound assignments. -/
def compoundSigns : List (Symbol × Arithmetic) :=
  [(.plusAssign, .add), (.minusAssign, .subtract), (.timesAssign, .multiply),
    (.slashAssign, .divide), (.remainderAssign, .remainder)]

/-- The words that open a declaration. -/
def declarators : List (Keyword × Mutability) :=
  [(.letWord, .mutable), (.constWord, .constant)]

/-! ### Side conditions -/

/-- A variable, which alone can be updated. -/
inductive Variable : Expr → Prop where
  | intro (name : String) (position : Position) : Variable (.identifier name position)

/-- A statement that may close a round of a loop over a counter. -/
inductive Advances : Statement → Prop where
  | assign (name : String) (value : Expr) (position : Position) :
    Advances (.assign name value position)
  | update (step : Step) (yield : Yield) (operand : Expr) (place position : Position) :
    Advances (.evaluate (.unary (.update step yield) operand place) position)

/-- A statement that may open a loop over a counter. -/
inductive Initializes : Statement → Prop where
  | declare (name : String) (value : Expr) (mutability : Mutability) (position : Position) :
    Initializes (.declare name value mutability position)
  | advances {statement : Statement} : Advances statement → Initializes statement

/-! ### Lists -/

/-- A part of a phrase: its tokens and its tree. -/
structure Piece (α : Type) where
  tokens : List Placed
  tree : α

/-- The tokens of pieces that follow each other. -/
def joinTokens {α : Type} (pieces : List (Piece α)) : List Placed :=
  pieces.flatMap Piece.tokens

/-- The trees of pieces. -/
def trees {α : Type} (pieces : List (Piece α)) : List α :=
  pieces.map Piece.tree

/-- Pieces with a comma between each two, and none behind the last. -/
inductive Separated {α : Type} : List (Piece α) → List Placed → Prop where
  | none : Separated [] []
  | one (piece : Piece α) : Separated [piece] piece.tokens
  | more (piece : Piece α) {next : Piece α} {rest : List (Piece α)} {tokens : List Placed}
      (comma : Position) : Separated (next :: rest) tokens →
    Separated (piece :: next :: rest) (piece.tokens ++ mark .comma comma :: tokens)

/-- There are no more pieces than tokens, as every piece has one. -/
theorem Separated.length_le {α : Type} {pieces : List (Piece α)} {tokens : List Placed}
    (separated : Separated pieces tokens) (filled : ∀ piece ∈ pieces, piece.tokens ≠ []) :
    pieces.length ≤ tokens.length := by
  induction separated with
  | none => exact Nat.le_refl 0
  | one piece => exact List.length_pos_iff.mpr (filled piece List.mem_cons_self)
  | more piece comma _ inductionHypothesis =>
    have rest := inductionHypothesis fun other member => filled other (List.mem_cons_of_mem _ member)
    simp only [List.length_append, List.length_cons] at rest ⊢
    omega

/-- No piece has more tokens than all of them together. -/
theorem Separated.piece_length_le {α : Type} {pieces : List (Piece α)} {tokens : List Placed}
    (separated : Separated pieces tokens) {piece : Piece α} (member : piece ∈ pieces) :
    piece.tokens.length ≤ tokens.length := by
  induction separated with
  | none => cases member
  | one only => exact Nat.le_of_eq (by rw [List.mem_singleton.mp member])
  | more first comma _ inductionHypothesis =>
    simp only [List.length_append, List.length_cons]
    rcases List.mem_cons.mp member with same | inRest
    · rw [same]
      omega
    · have short := inductionHypothesis inRest
      omega

/-- The piece of a name. -/
def Piece.ofName (name : Parser.PlacedName) : Piece Parser.PlacedName :=
  ⟨[named name.name name.position], name⟩

/-- A parameter list with its parentheses. No name stands in it twice. -/
inductive Parameters : List Placed → List String → Prop where
  | intro (names : List Parser.PlacedName) {inner : List Placed} (opened closed : Position) :
    (names.map Parser.PlacedName.name).Nodup → Separated (names.map Piece.ofName) inner →
    Parameters (mark .openParen opened :: inner ++ [mark .closeParen closed])
      (names.map Parser.PlacedName.name)

/-! ### Phrases -/

/-- The kinds of phrases. -/
inductive Phrase where
  | joined (level : Level)
  | operand (level : Level)
  | unary
  | updated
  | applied
  | primary
  | block
  | statement
  | simple
  | assignment
  | branch
  | alternative

/-- What a phrase stands for. -/
abbrev Phrase.Tree : Phrase → Type
  | .block => Parser.Block
  | .statement => Statement
  | .simple => Statement
  | .assignment => Statement
  | .branch => Statement
  | .alternative => List Statement
  | _ => Expr

/-- An expression is made of operands joined at the loosest level. -/
abbrev Phrase.expression : Phrase := .joined .either

/-- The phrases of the language, each with its tokens and its tree. -/
inductive Derives (extending : Bool) : (phrase : Phrase) → List Placed → phrase.Tree → Prop where
  | single {level : Level} {tokens : List Placed} {tree : Expr} :
    Derives extending (.operand level) tokens tree → Derives extending (.joined level) tokens tree
  | join {level : Level} {front back : List Placed} {left right : Expr} {symbol : Symbol}
      {connective : Connective} (position : Position) :
    Derives extending (.joined level) front left → (symbol, connective) ∈ operators level →
    Derives extending (.operand level) back right →
    Derives extending (.joined level) (front ++ mark symbol position :: back)
      (connective.join left right position)
  | tighter {level next : Level} {tokens : List Placed} {tree : Expr} :
    (level, next) ∈ nextLevels → Derives extending (.joined next) tokens tree →
    Derives extending (.operand level) tokens tree
  | tightest {tokens : List Placed} {tree : Expr} :
    Derives extending .unary tokens tree → Derives extending (.operand .product) tokens tree
  | leading {symbol : Symbol} {op : UnaryOp} {tokens : List Placed} {operand : Expr}
      (position : Position) :
    (symbol, op) ∈ leadingOperators → Derives extending .unary tokens operand →
    (∀ step yield, op = .update step yield → Variable operand) →
    Derives extending .unary (mark symbol position :: tokens) (.unary op operand position)
  | unled {tokens : List Placed} {tree : Expr} :
    Derives extending .updated tokens tree → Derives extending .unary tokens tree
  | update {symbol : Symbol} {step : Step} {tokens : List Placed} {operand : Expr}
      (position : Position) :
    Derives extending .applied tokens operand → (symbol, step) ∈ updates → Variable operand →
    Derives extending .updated (tokens ++ [mark symbol position])
      (.unary (.update step .previous) operand position)
  | notUpdated {tokens : List Placed} {tree : Expr} :
    Derives extending .applied tokens tree → Derives extending .updated tokens tree
  | extended {tokens : List Placed} {tree : Expr} :
    extending = true → Derives extending .updated tokens tree →
    Derives extending .applied tokens tree
  | call {front inner : List Placed} {callee : Expr} (arguments : List (Piece Expr))
      (position closed : Position) :
    Derives extending .applied front callee →
    (∀ argument ∈ arguments, Derives extending .expression argument.tokens argument.tree) →
    Separated arguments inner →
    Derives extending .applied
      (front ++ mark .openParen position :: inner ++ [mark .closeParen closed])
      (.call callee (trees arguments) position)
  | index {front inner : List Placed} {target index : Expr} (position closed : Position) :
    Derives extending .applied front target → Derives extending .expression inner index →
    Derives extending .applied
      (front ++ mark .openBracket position :: inner ++ [mark .closeBracket closed])
      (.index target index position)
  | notApplied {tokens : List Placed} {tree : Expr} :
    Derives extending .primary tokens tree → Derives extending .applied tokens tree
  | literal (literal : Literal) (position : Position) :
    Derives extending .primary [⟨literalToken literal, position⟩] (.literal literal position)
  | name (name : String) (position : Position) :
    Derives extending .primary [named name position] (.identifier name position)
  | parenthesized {inner : List Placed} {tree : Expr} (opened closed : Position) :
    Derives extending .expression inner tree →
    Derives extending .primary (mark .openParen opened :: inner ++ [mark .closeParen closed]) tree
  | lambda {parameters body : List Placed} {names : List String} {block : Parser.Block}
      (position arrow : Position) :
    Parameters parameters names → Derives extending .block body block →
    Derives extending .primary
      (word .lamWord position :: parameters ++ mark .arrow arrow :: body)
      (.lambda ⟨Procedure.lambdaName, names, block.statements, position⟩ position)
  | block (statements : List (Piece Statement)) (position closed : Position) :
    (∀ statement ∈ statements, Derives extending .statement statement.tokens statement.tree) →
    Derives extending .block
      (mark .openBrace position :: joinTokens statements ++ [mark .closeBrace closed])
      ⟨trees statements, position⟩
  | evaluate {first : Placed} {rest : List Placed} {tree : Expr} :
    Derives extending .expression (first :: rest) tree →
    Derives extending .assignment (first :: rest) (.evaluate tree first.position)
  | assign {front back : List Placed} {name : String} {value : Expr} (position sign : Position) :
    Derives extending .expression front (.identifier name position) →
    Derives extending .expression back value →
    Derives extending .assignment (front ++ mark .assign sign :: back)
      (.assign name value position)
  | compoundAssign {symbol : Symbol} {operation : Arithmetic} {front back : List Placed}
      {name : String} {value : Expr} (position sign : Position) :
    (symbol, operation) ∈ compoundSigns →
    Derives extending .expression front (.identifier name position) →
    Derives extending .expression back value →
    Derives extending .assignment (front ++ mark symbol sign :: back)
      (.assign name
        (.binary (.arithmetic operation) (.identifier name position) value sign) position)
  | declare {keyword : Keyword} {mutability : Mutability} {name : String} {tokens : List Placed}
      {value : Expr} (start position sign : Position) :
    (keyword, mutability) ∈ declarators → Derives extending .expression tokens value →
    Derives extending .simple
      (word keyword start :: named name position :: mark .assign sign :: tokens)
      (.declare name value mutability position)
  | undeclared {tokens : List Placed} {tree : Statement} :
    Derives extending .assignment tokens tree → Derives extending .simple tokens tree
  | simple {tokens : List Placed} {tree : Statement} (semicolon : Position) :
    Derives extending .simple tokens tree →
    Derives extending .statement (tokens ++ [mark .semicolon semicolon]) tree
  | nested {tokens : List Placed} {block : Parser.Block} :
    Derives extending .block tokens block →
    Derives extending .statement tokens (.block block.statements block.position)
  | leave (position semicolon : Position) :
    Derives extending .statement [word .returnWord position, mark .semicolon semicolon]
      (.leave none position)
  | leaveWith {tokens : List Placed} {value : Expr} (position semicolon : Position) :
    Derives extending .expression tokens value →
    Derives extending .statement
      (word .returnWord position :: tokens ++ [mark .semicolon semicolon])
      (.leave (some value) position)
  | breakLoop (position semicolon : Position) :
    Derives extending .statement [word .breakWord position, mark .semicolon semicolon]
      (.breakLoop position)
  | continueLoop (position semicolon : Position) :
    Derives extending .statement [word .continueWord position, mark .semicolon semicolon]
      (.continueLoop position)
  | loop {condition body : List Placed} {test : Expr} {block : Parser.Block}
      (position opened closed : Position) :
    Derives extending .expression condition test → Derives extending .block body block →
    Derives extending .statement
      (word .whileWord position :: mark .openParen opened :: condition ++
        mark .closeParen closed :: body)
      (.loop test block.statements position)
  | counterLoop {start condition step body : List Placed} {initializer update : Statement}
      {test : Expr} {block : Parser.Block} (position opened first second closed : Position) :
    Derives extending .simple start initializer → Initializes initializer →
    Derives extending .expression condition test →
    Derives extending .assignment step update → Advances update →
    Derives extending .block body block →
    Derives extending .statement
      (word .forWord position :: mark .openParen opened :: start ++
        mark .semicolon first :: condition ++ mark .semicolon second :: step ++
        mark .closeParen closed :: body)
      (.block [initializer,
        .loop test [.loopBody block.statements block.position, update] position] position)
  | branch {tokens : List Placed} {tree : Statement} :
    Derives extending .branch tokens tree → Derives extending .statement tokens tree
  | branchAlone {condition body : List Placed} {test : Expr} {block : Parser.Block}
      (position opened closed : Position) :
    Derives extending .expression condition test → Derives extending .block body block →
    Derives extending .branch
      (word .ifWord position :: mark .openParen opened :: condition ++
        mark .closeParen closed :: body)
      (.branch test block.statements none position)
  | branchElse {condition body other : List Placed} {test : Expr} {block : Parser.Block}
      {alternative : List Statement} (position opened closed otherwise : Position) :
    Derives extending .expression condition test → Derives extending .block body block →
    Derives extending .alternative other alternative →
    Derives extending .branch
      (word .ifWord position :: mark .openParen opened :: condition ++
        mark .closeParen closed :: body ++ word .elseWord otherwise :: other)
      (.branch test block.statements (some alternative) position)
  | chained {tokens : List Placed} {tree : Statement} :
    Derives extending .branch tokens tree → Derives extending .alternative tokens [tree]
  | unchained {tokens : List Placed} {block : Parser.Block} :
    Derives extending .block tokens block →
    Derives extending .alternative tokens block.statements

/-- A procedure. -/
inductive DerivesProcedure (extending : Bool) : List Placed → Procedure → Prop where
  | intro {parameters body : List Placed} {name : String} {names : List String}
      {block : Parser.Block} (position place : Position) :
    Parameters parameters names → Derives extending .block body block →
    DerivesProcedure extending
      (word .procWord position :: named name place :: parameters ++ body)
      ⟨name, names, block.statements, position⟩

/-- A program: procedures one after the other, no two of one name. -/
inductive DerivesProgram (extending : Bool) : List Placed → Program → Prop where
  | intro (procedures : List (Piece Procedure)) :
    (∀ procedure ∈ procedures,
      DerivesProcedure extending procedure.tokens procedure.tree) →
    ((trees procedures).map Procedure.name).Nodup →
    DerivesProgram extending (joinTokens procedures) ⟨trees procedures⟩

end Scriptlet.Grammar
