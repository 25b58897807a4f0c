/-
This file reads whole programs: procedures, one after the other, up to the end
of the tokens. No two procedures of a program have the same name.
-/

import Scriptlet.Parser.Phrase
import Scriptlet.Token.Lexer

namespace Scriptlet

namespace Parser

/-- Takes a procedure, whose name must not be among those defined before. -/
def procedure (bound : Nat) (defined : List String) : Parser Procedure := do
  let position ← expectKeyword .procWord
  let name ← identifier
  if name.name ∈ defined then fail (.duplicateProcedure name.name) name.position
  let parameters ← parameters bound
  let body ← block bound
  return ⟨name.name, parameters, body.statements, position⟩

/-- Takes procedures up to the end of the tokens. -/
def procedures : Nat → List String → Parser (List Procedure)
  | 0, _ => exhausted
  | bound + 1, defined => do
    let found ← peek
    match found.token with
    | .endOfInput => return []
    | .keyword .procWord =>
      let first ← procedure bound defined
      return first :: (← procedures bound (first.name :: defined))
    | _ => unexpected found (.keyword .procWord)

/-- Takes a program. -/
def program (bound : Nat) : Parser Program := do
  return ⟨← procedures bound []⟩

end Parser

/-- The program a token list stands for, or the first fault. -/
def Program.ofTokens (tokens : List Placed) : Except ParseError Program :=
  (Parser.read Parser.program tokens).outcome

/-- The program a text stands for, or the first fault. -/
def Program.ofText (source : String) : Except ParseError Program := do
  Program.ofTokens (← Token.scan source)

end Scriptlet
