/-
This file defines what can be wrong with a source text or a token list. An
error is a cause and the place it is reported at. The wording of every cause
stands in one function.
-/

import Scriptlet.Token.Description

namespace Scriptlet

/-- What a reader was looking for when it met something else. -/
inductive Expected where
  | symbol (mark : Symbol)
  | keyword (word : Keyword)
  | identifier
  | expression
  | commaOrClose
deriving DecidableEq

/-- The name of what was looked for. -/
def Expected.description : Expected → String
  | .symbol mark => (Token.symbol mark).description
  | .keyword word => (Token.keyword word).description
  | .identifier => "identifier"
  | .expression => "expression"
  | .commaOrClose => "',' or ')'"

/-- Why a text is not a program. -/
inductive ParseFault where
  | invalidCharacter (character : Char)
  | unterminatedString
  | invalidEscape (escape : Char)
  | literalTooLarge
  | unexpectedToken (found : Token) (expected : Expected)
  | unexpectedEnd (expected : Expected)
  | keywordAsIdentifier (word : String)
  | duplicateProcedure (name : String)
  | duplicateParameter (name : String)
  | trailingComma
  | expectedBlock (found : Token)
  | invalidAssignmentTarget
  | invalidUpdateTarget
  | invalidForInitializer
  | invalidForUpdate
deriving DecidableEq

/-- The wording of a fault. -/
def ParseFault.message : ParseFault → String
  | .invalidCharacter character => "Unrecognised input '" ++ character.toString ++ "'."
  | .unterminatedString => "String literal is missing its closing quote."
  | .invalidEscape escape => "Unknown escape sequence '\\" ++ escape.toString ++ "'."
  | .literalTooLarge => "Integer literal is too large."
  | .unexpectedToken found expected =>
    "Unexpected token " ++ found.description ++ ", expected " ++ expected.description ++ "."
  | .unexpectedEnd expected =>
    "Unexpected end of input, expected " ++ expected.description ++ "."
  | .keywordAsIdentifier word => "Keyword '" ++ word ++ "' cannot be used as an identifier."
  | .duplicateProcedure name => "Procedure '" ++ name ++ "' is already defined."
  | .duplicateParameter name => "Parameter '" ++ name ++ "' appears more than once."
  | .trailingComma => "Trailing comma before ')'."
  | .expectedBlock found => "Expected a '\x7b' block, found " ++ found.description ++ "."
  | .invalidAssignmentTarget => "Only a variable name can be assigned to."
  | .invalidUpdateTarget => "Only a variable name can be incremented or decremented."
  | .invalidForInitializer =>
    "A for loop initializer must be a declaration, an assignment or an increment."
  | .invalidForUpdate => "A for loop update must be an assignment or an increment."

/-- A fault and the place it is reported at. -/
structure ParseError where
  fault : ParseFault
  position : Position
deriving DecidableEq

namespace ParseError

/-- The wording of the error's fault. -/
def message (error : ParseError) : String :=
  error.fault.message

/-- The line shown to the user. -/
def display (error : ParseError) : String :=
  "Parse error at " ++ error.position.text ++ ": " ++ error.message

end ParseError

end Scriptlet
