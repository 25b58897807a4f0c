/-
This file splits a source text into tokens. At each point the longest piece that
belongs to a token class is taken; comments, blanks and line breaks are pieces
that yield no token. A word is reserved only when it is exactly a reserved
spelling, a comment between slash-stars must be closed to be one, and a
character that starts no piece ends the reading. The list of tokens is closed
by an end mark at the end of the text.
-/

import Scriptlet.Token.StringBody

namespace Scriptlet.Token

/-! ### Characters -/

/-- Whether a character can start a name. -/
def startsName (character : Char) : Bool :=
  character.isAlpha || character == '_'

/-- Whether a character can stand in a name. -/
def continuesName (character : Char) : Bool :=
  character.isAlphanum || character == '_'

/-- Whether a character is a blank that does not end the line. -/
def isBlank (character : Char) : Bool :=
  character == ' ' || character == '\t' || character == '\r' || character == '\x0c'

/-- The number of characters at the front of a text that have a property. -/
def runLength (property : Char → Bool) (text : List Char) : Nat :=
  (text.takeWhile property).length

/-- The number of characters up to and including the first `*/`, if there is one. -/
def commentTail? : List Char → Option Nat
  | [] => none
  | '*' :: '/' :: _ => some 2
  | _ :: rest => (commentTail? rest).map (· + 1)

/-! ### Literals and words -/

/-- The number written by a run of digits. -/
def digitsValue (digits : List Char) : Nat :=
  digits.foldl (fun value digit => 10 * value + (digit.toNat - '0'.toNat)) 0

/-- The token of a whole number, if it is one of 64 bits. -/
def ofDigits (digits : List Char) : Except ParseFault Token :=
  if digitsValue digits ≤ 9223372036854775807 then
    .ok (.int (Int64.ofNat (digitsValue digits)))
  else .error .literalTooLarge

/-- The token of a number with a point: the double nearest to it. -/
def ofDecimal (whole fraction : List Char) : Token :=
  .float (Float.ofScientific (digitsValue (whole ++ fraction)) true fraction.length)

/-- The token of a word: a truth value, a reserved word or a name. -/
def ofWord (word : String) : Token :=
  if word == "true" then .bool true
  else if word == "false" then .bool false
  else match Keyword.ofSpelling? word with
    | some reserved => .keyword reserved
    | none => .identifier word

/-! ### Pieces -/

/-- What stands at the front of a text: a token or a separator, each with the number of its
characters. -/
inductive Piece where
  | token (token : Token) (length : Nat)
  | layout (kind : Layout) (length : Nat)
deriving DecidableEq

/-- The number of characters of a piece. -/
def Piece.length : Piece → Nat
  | .token _ length => length
  | .layout _ length => length

/-- The number at the front of a text that starts with a digit. Only a point with digits on
both sides belongs to it. -/
def numberAtFront (text : List Char) : Except ParseFault Piece :=
  let whole := text.takeWhile Char.isDigit
  match text.dropWhile Char.isDigit with
  | '.' :: rest =>
    let fraction := rest.takeWhile Char.isDigit
    if fraction.isEmpty then (ofDigits whole).map (Piece.token · whole.length)
    else .ok (.token (ofDecimal whole fraction) (whole.length + 1 + fraction.length))
  | _ => (ofDigits whole).map (Piece.token · whole.length)

/-- The symbol at the front of a text that starts with `character`. -/
def symbolAtFront (character : Char) (text : List Char) : Except ParseFault Piece :=
  match Symbol.atFront? text with
  | some mark => .ok (.token (.symbol mark) mark.spelling.length)
  | none => .error (.invalidCharacter character)

/-- The piece at the front of the text `character :: rest`. -/
def atFront (character : Char) (rest : List Char) : Except ParseFault Piece :=
  if startsName character then
    let word := character :: rest.takeWhile continuesName
    .ok (.token (ofWord (String.ofList word)) word.length)
  else if character.isDigit then numberAtFront (character :: rest)
  else if character == '"' then
    (StringBody.decode rest).map fun decoded =>
      .token (.str (String.ofList decoded.value)) (decoded.length + 1)
  else if character == '\n' then .ok (.layout .newLine 1)
  else if isBlank character then .ok (.layout .blanks (runLength isBlank rest + 1))
  else match character, rest with
    | '/', '/' :: comment =>
      .ok (.layout .lineComment (runLength (· != '\n') comment + 2))
    | '/', '*' :: comment =>
      match commentTail? comment with
      | some length => .ok (.layout .blockComment (length + 2))
      | none => symbolAtFront character (character :: rest)
    | _, _ => symbolAtFront character (character :: rest)

theorem length_symbolAtFront (character : Char) (text : List Char) (piece : Piece)
    (found : symbolAtFront character text = .ok piece) : 0 < piece.length := by
  unfold symbolAtFront at found
  split at found
  · rename_i mark _
    injection found with equal
    rw [← equal]
    exact List.length_pos_iff.mpr mark.spelling_ne_nil
  · cases found

theorem length_numberAtFront (character : Char) (rest : List Char) (piece : Piece)
    (digit : character.isDigit = true)
    (found : numberAtFront (character :: rest) = .ok piece) : 0 < piece.length := by
  have whole (token : Except ParseFault Token) (length : Nat)
      (read : token.map (Piece.token · (length + 1)) = .ok piece) : 0 < piece.length := by
    cases token with
    | error fault => cases read
    | ok token =>
      injection read with equal
      rw [← equal]
      exact Nat.succ_pos length
  unfold numberAtFront at found
  rw [List.takeWhile_cons_of_pos digit] at found
  simp only [List.length_cons] at found
  split at found
  · split at found
    · exact whole _ _ found
    · injection found with equal
      rw [← equal]
      exact Nat.lt_of_lt_of_le (Nat.succ_pos _) (Nat.le_add_right _ _)
  · exact whole _ _ found

/-- Every piece has at least one character, so reading goes on behind it. -/
theorem length_atFront (character : Char) (rest : List Char) (piece : Piece)
    (found : atFront character rest = .ok piece) : 0 < piece.length := by
  unfold atFront at found
  split at found
  · injection found with equal
    rw [← equal]
    exact Nat.succ_pos _
  split at found
  · rename_i digit
    exact length_numberAtFront character rest piece digit found
  split at found
  · cases read : StringBody.decode rest with
    | error fault =>
      rw [read] at found
      cases found
    | ok decoded =>
      rw [read] at found
      injection found with equal
      rw [← equal]
      exact Nat.succ_pos _
  split at found
  · injection found with equal
    rw [← equal]
    exact Nat.one_pos
  split at found
  · injection found with equal
    rw [← equal]
    exact Nat.succ_pos _
  split at found
  · injection found with equal
    rw [← equal]
    exact Nat.succ_pos _
  · split at found
    · injection found with equal
      rw [← equal]
      exact Nat.succ_pos _
    · exact length_symbolAtFront _ _ piece found
  · exact length_symbolAtFront _ _ piece found

/-! ### The token list -/

/-- Reads a text from a place on. The first `pending` characters belong to a piece that has been
read already; `read` holds the tokens so far, the last one first. -/
def scanFrom (pending : Nat) (position : Position) (read : List Placed) :
    List Char → Except ParseError (List Placed)
  | [] => .ok (⟨.endOfInput, position⟩ :: read).reverse
  | character :: rest =>
    match pending with
    | pending + 1 => scanFrom pending (position.next character) read rest
    | 0 =>
      match atFront character rest with
      | .error fault => .error ⟨fault, position⟩
      | .ok (.token token length) =>
        scanFrom (length - 1) (position.next character) (⟨token, position⟩ :: read) rest
      | .ok (.layout _ length) => scanFrom (length - 1) (position.next character) read rest

/-- The tokens of a text, closed by an end mark, or the first fault. -/
def scan (source : String) : Except ParseError (List Placed) :=
  scanFrom 0 .start [] source.toList

end Scriptlet.Token
