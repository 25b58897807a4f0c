/-
This file defines readers of token lists and the few steps they are made of. A
reader takes tokens off the front of a list and yields a value, or stops; either
way the tokens it has not taken are kept. A list that runs dry reads as if an end
mark stood behind it. Readers of nested phrases have a bound on how deep they
may go, and stopping at that bound is told apart from finding a fault.
-/

import Scriptlet.ParseError

namespace Scriptlet

/-- Why a reader stopped. -/
inductive Stop where
  | fault (error : ParseError)
  | exhausted
deriving DecidableEq

/-- The fault a reader stopped with. A reader whose bound fits its token list never stops at the
bound, which reads here as an end that came too soon. -/
def Stop.error : Stop → ParseError
  | .fault error => error
  | .exhausted => ⟨.unexpectedEnd .expression, .nowhere⟩

/-- A reader of a value from the front of a token list. -/
abbrev Parser := EStateM Stop (List Placed)

namespace Parser

/-! ### Steps -/

/-- Stops with a fault at a place. -/
def fail {α : Type} (fault : ParseFault) (position : Position) : Parser α :=
  throw (.fault ⟨fault, position⟩)

/-- Stops at the bound on nesting. -/
def exhausted {α : Type} : Parser α :=
  throw .exhausted

/-- The token at the front of a list. -/
def front : List Placed → Placed
  | [] => ⟨.endOfInput, .nowhere⟩
  | placed :: _ => placed

/-- The next token, which is not taken. -/
def peek : Parser Placed := do
  return front (← get)

/-- Takes the next token, whatever it is. -/
def skip : Parser Unit :=
  modify List.tail

/-- Stops because `found` is not what was looked for. -/
def unexpected {α : Type} (found : Placed) (expected : Expected) : Parser α :=
  match found.token with
  | .endOfInput => fail (.unexpectedEnd expected) found.position
  | token => fail (.unexpectedToken token expected) found.position

/-- Takes the next token, which must not be the end. -/
def advance (expected : Expected) : Parser Placed := do
  let found ← peek
  skip
  match found.token with
  | .endOfInput => fail (.unexpectedEnd expected) found.position
  | _ => return found

/-- Takes the next token, which must be `token`, and yields its place. -/
def expect (token : Token) (expected : Expected) : Parser Position := do
  let found ← advance expected
  if found.token = token then return found.position
  else unexpected found expected

/-- Takes a symbol. -/
def expectSymbol (mark : Symbol) : Parser Position :=
  expect (.symbol mark) (.symbol mark)

/-- Takes a reserved word. -/
def expectKeyword (word : Keyword) : Parser Position :=
  expect (.keyword word) (.keyword word)

@[simp] theorem peek_apply (tokens : List Placed) :
    peek tokens = .ok (front tokens) tokens := rfl

@[simp] theorem skip_apply (tokens : List Placed) :
    skip tokens = .ok () tokens.tail := rfl

@[simp] theorem fail_apply {α : Type} (fault : ParseFault) (position : Position)
    (tokens : List Placed) :
    (fail fault position : Parser α) tokens = .error (.fault ⟨fault, position⟩) tokens := rfl

/-! ### Names and lists -/

/-- A name and its place. -/
structure PlacedName where
  name : String
  position : Position
deriving DecidableEq

/-- Takes a name. A reserved word in its place has a fault of its own. -/
def identifier : Parser PlacedName := do
  let found ← advance .identifier
  match found.token with
  | .identifier name => return ⟨name, found.position⟩
  | token =>
    match token.reserved? with
    | some word => fail (.keywordAsIdentifier word) found.position
    | none => unexpected found .identifier

/-- Takes the items of a list, up to the closing parenthesis. There is at least one. -/
def itemsToClose {α : Type} (item : Parser α) : Nat → Parser (List α)
  | 0 => exhausted
  | bound + 1 => do
    let first ← item
    let found ← advance .commaOrClose
    match found.token with
    | .symbol .closeParen => return [first]
    | .symbol .comma =>
      match (← peek).token with
      | .symbol .closeParen => fail .trailingComma found.position
      | _ => return first :: (← itemsToClose item bound)
    | _ => unexpected found .commaOrClose

/-- Takes a list that may be empty, up to the closing parenthesis. The opening one has been
taken. -/
def commaSeparated {α : Type} (item : Parser α) (bound : Nat) : Parser (List α) := do
  match (← peek).token with
  | .symbol .closeParen =>
    skip
    return []
  | _ => itemsToClose item bound

/-- The first name of a list that stands in it before. -/
def firstRepeated? (seen : List String) : List PlacedName → Option PlacedName
  | [] => none
  | placed :: rest =>
    if placed.name ∈ seen then some placed else firstRepeated? (placed.name :: seen) rest

/-- Takes a parameter list with its parentheses. -/
def parameters (bound : Nat) : Parser (List String) := do
  let _ ← expectSymbol .openParen
  let names ← commaSeparated identifier bound
  match firstRepeated? [] names with
  | some repeated => fail (.duplicateParameter repeated.name) repeated.position
  | none => return names.map PlacedName.name

/-! ### Results -/

/-- What came of reading a token list: a value or a fault, and the tokens not taken. -/
structure Reading (α : Type) where
  outcome : Except ParseError α
  rest : List Placed

/-- A bound that fits a token list. No phrase nests as many as twenty-four readers without
taking a token. -/
def boundFor (tokens : List Placed) : Nat :=
  24 * (tokens.length + 1)

/-- Reads a token list with a bound that fits it. -/
def read {α : Type} (reader : Nat → Parser α) (tokens : List Placed) : Reading α :=
  match (reader (boundFor tokens)).run tokens with
  | .ok value rest => ⟨.ok value, rest⟩
  | .error stop rest => ⟨.error stop.error, rest⟩

end Parser

end Scriptlet
