/-
This file defines the tokens of the language: literals, reserved words, names
and symbols. Comments, blanks and line breaks have tokens of their own, which
reading a text never yields but a token list put together by hand may hold. Every
reserved word and symbol has one spelling.
-/

import Scriptlet.Position

namespace Scriptlet

/-! ### Reserved words -/

/-- The words that open a construct or name the empty value. -/
inductive Keyword where
  | procWord
  | letWord
  | constWord
  | ifWord
  | elseWord
  | whileWord
  | forWord
  | breakWord
  | continueWord
  | returnWord
  | lamWord
  | nilWord
deriving DecidableEq

namespace Keyword

/-- Every reserved word. -/
def all : List Keyword :=
  [procWord, letWord, constWord, ifWord, elseWord, whileWord, forWord, breakWord, continueWord,
    returnWord, lamWord, nilWord]

/-- How a reserved word is written. -/
def spelling : Keyword → String
  | procWord => "proc"
  | letWord => "let"
  | constWord => "const"
  | ifWord => "if"
  | elseWord => "else"
  | whileWord => "while"
  | forWord => "for"
  | breakWord => "break"
  | continueWord => "continue"
  | returnWord => "return"
  | lamWord => "lam"
  | nilWord => "nil"

/-- The reserved word with a spelling. -/
def ofSpelling? (word : String) : Option Keyword :=
  all.find? fun keyword => keyword.spelling == word

theorem mem_all (keyword : Keyword) : keyword ∈ all := by
  cases keyword <;> decide

end Keyword

/-! ### Symbols -/

/-- Operators and punctuation. -/
inductive Symbol where
  | arrow
  | increment
  | decrement
  | plusAssign
  | minusAssign
  | timesAssign
  | slashAssign
  | remainderAssign
  | equal
  | notEqual
  | lessOrEqual
  | greaterOrEqual
  | both
  | either
  | plus
  | minus
  | times
  | slash
  | remainder
  | openParen
  | closeParen
  | openBracket
  | closeBracket
  | openBrace
  | closeBrace
  | comma
  | semicolon
  | assign
  | less
  | greater
  | bang
deriving DecidableEq

namespace Symbol

/-- Every symbol, those of two characters first. -/
def all : List Symbol :=
  [arrow, increment, decrement, plusAssign, minusAssign, timesAssign, slashAssign, remainderAssign,
    equal, notEqual, lessOrEqual, greaterOrEqual, both, either, plus, minus, times, slash, remainder,
    openParen, closeParen, openBracket, closeBracket, openBrace, closeBrace, comma, semicolon,
    assign, less, greater, bang]

/-- How a symbol is written. -/
def spelling : Symbol → List Char
  | arrow => ['-', '>']
  | increment => ['+', '+']
  | decrement => ['-', '-']
  | plusAssign => ['+', '=']
  | minusAssign => ['-', '=']
  | timesAssign => ['*', '=']
  | slashAssign => ['/', '=']
  | remainderAssign => ['%', '=']
  | equal => ['=', '=']
  | notEqual => ['!', '=']
  | lessOrEqual => ['<', '=']
  | greaterOrEqual => ['>', '=']
  | both => ['&', '&']
  | either => ['|', '|']
  | plus => ['+']
  | minus => ['-']
  | times => ['*']
  | slash => ['/']
  | remainder => ['%']
  | openParen => ['(']
  | closeParen => [')']
  | openBracket => ['[']
  | closeBracket => [']']
  | openBrace => ['\x7b']
  | closeBrace => ['\x7d']
  | comma => [',']
  | semicolon => [';']
  | assign => ['=']
  | less => ['<']
  | greater => ['>']
  | bang => ['!']

/-- The symbol at the front of a text. As the longer spellings are tried first, it is the
longest one that fits. -/
def atFront? (text : List Char) : Option Symbol :=
  all.find? fun symbol => symbol.spelling.isPrefixOf text

theorem mem_all (symbol : Symbol) : symbol ∈ all := by
  cases symbol <;> decide

theorem spelling_ne_nil (symbol : Symbol) : symbol.spelling ≠ [] := by
  cases symbol <;> decide

end Symbol

/-! ### Tokens -/

/-- What separates tokens. -/
inductive Layout where
  | newLine
  | lineComment
  | blockComment
  | blanks
deriving DecidableEq

/-- A unit of source text. -/
inductive Token where
  | int (value : Int64)
  | float (value : Float)
  | str (value : String)
  | bool (value : Bool)
  | keyword (word : Keyword)
  | identifier (name : String)
  | symbol (mark : Symbol)
  | layout (kind : Layout)
  | endOfInput
deriving DecidableEq

/-- The spelling of a token that is a reserved word; the two truth values are reserved too. -/
def Token.reserved? : Token → Option String
  | .keyword word => some word.spelling
  | .bool true => some "true"
  | .bool false => some "false"
  | _ => none

/-- A token and the place of its first character. -/
structure Placed where
  token : Token
  position : Position
deriving DecidableEq

/-- The token list without places. -/
def Placed.tokens (placed : List Placed) : List Token :=
  placed.map Placed.token

end Scriptlet
