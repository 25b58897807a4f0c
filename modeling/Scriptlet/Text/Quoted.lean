/-
This file writes text between double quotes so that every character can be
seen. Quotes and backslashes are escaped, the common control characters have
short escapes, and a character that is invisible or would join the one before
it is written by its code point.
-/

import Scriptlet.Text.GraphemeExtend
import Scriptlet.Text.Unprintable

namespace Scriptlet.Text

/-- Whether a character of a quoted text is written by its code point. Visible
characters of the basic range are told apart without the tables. -/
def isHidden (character : Char) : Bool :=
  if ' ' ≤ character && character ≤ '~' then false
  else extendsGrapheme character || isUnprintable character

/-- The written form of a character in a quoted text. -/
def escaped (character : Char) : List Char :=
  match character with
  | '\x00' => ['\\', '0']
  | '\t' => ['\\', 't']
  | '\r' => ['\\', 'r']
  | '\n' => ['\\', 'n']
  | '\\' => ['\\', '\\']
  | '"' => ['\\', '"']
  | _ =>
    if isHidden character then
      '\\' :: 'u' :: '\x7b' :: Nat.toDigits 16 character.toNat ++ ['\x7d']
    else [character]

/-- A text between double quotes. -/
def quoted (text : String) : String :=
  String.ofList ('"' :: text.toList.flatMap escaped ++ ['"'])

end Scriptlet.Text
