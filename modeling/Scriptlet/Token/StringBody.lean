/-
This file reads the body of a string literal: everything behind its opening
quote. Six escapes stand for a character each, a closing quote ends the body,
and a line break or the end of the text before it leaves the literal open.
-/

import Scriptlet.ParseError

namespace Scriptlet.StringBody

/-- The character an escape stands for, by the character behind the backslash. -/
def unescape? : Char → Option Char
  | 'n' => some '\n'
  | 't' => some '\t'
  | 'r' => some '\r'
  | '0' => some '\x00'
  | '\\' => some '\\'
  | '"' => some '"'
  | _ => none

/-- A string value and the number of characters it took up, closing quote included. -/
structure Decoded where
  value : List Char
  length : Nat
deriving DecidableEq

/-- The body with one more decoded character in front, written with `width` characters. -/
def Decoded.push (decoded : Decoded) (character : Char) (width : Nat) : Decoded :=
  ⟨character :: decoded.value, decoded.length + width⟩

/-- What reading a string at the front of a text comes to, and the number of bytes that this takes
up. -/
structure Scanned where
  outcome : Except ParseFault Decoded
  bytes : Nat

/-- The reading with one more decoded character in front, written with `width` characters in
`bytes` bytes. -/
def Scanned.push (scanned : Scanned) (character : Char) (width bytes : Nat) : Scanned :=
  ⟨scanned.outcome.map fun decoded => decoded.push character width, bytes + scanned.bytes⟩

/-- Reads the string at the front of a text, up to its closing quote. -/
def scanBody : List Char → Scanned
  | [] => ⟨.error .unterminatedString, 0⟩
  | '"' :: _ => ⟨.ok ⟨[], 1⟩, 1⟩
  | '\n' :: _ => ⟨.error .unterminatedString, 0⟩
  | '\\' :: [] => ⟨.error .unterminatedString, 1⟩
  | '\\' :: escape :: rest =>
    match unescape? escape with
    | none => ⟨.error (.invalidEscape escape), 1 + escape.utf8Size⟩
    | some character => (scanBody rest).push character 2 (1 + escape.utf8Size)
  | character :: rest => (scanBody rest).push character 1 character.utf8Size

/-- The string at the front of a text, up to its closing quote. -/
def decode (body : List Char) : Except ParseFault Decoded :=
  (scanBody body).outcome

/-- The number of bytes that reading the string at the front of a text takes up, whatever it comes
to. A closing quote and an unknown escape are among them, a line break is not. -/
def consumed (body : List Char) : Nat :=
  (scanBody body).bytes

/-- A character that stands for itself. -/
theorem scanBody_raw {character : Char}
    (plain : character ≠ '"' ∧ character ≠ '\\' ∧ character ≠ '\n') (rest : List Char) :
    scanBody (character :: rest) = (scanBody rest).push character 1 character.utf8Size := by
  rw [scanBody]
  · exact plain.1
  · exact plain.2.2
  · exact fun isSlash => absurd isSlash plain.2.1
  · exact fun _ _ isSlash => absurd isSlash plain.2.1

/-- An escape that stands for a character. -/
theorem scanBody_escaped {escape character : Char} (stands : unescape? escape = some character)
    (rest : List Char) :
    scanBody ('\\' :: escape :: rest) =
      (scanBody rest).push character 2 (1 + escape.utf8Size) := by
  rw [scanBody, stands]

/-- An escape that stands for nothing. -/
theorem scanBody_unknown {escape : Char} (unknown : unescape? escape = none) (rest : List Char) :
    scanBody ('\\' :: escape :: rest) =
      ⟨.error (.invalidEscape escape), 1 + escape.utf8Size⟩ := by
  rw [scanBody, unknown]

end Scriptlet.StringBody
