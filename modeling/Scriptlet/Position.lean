/-
This file defines places in a source text. A position is a row and a column,
both counted from one; the column counts characters since the last line break.
Reading a text moves a position character by character, so the place of any
piece is the start position moved over everything that stands before it.
-/

namespace Scriptlet

/-- A place in a text, by row and column. -/
structure Position where
  row : Nat
  column : Nat
deriving DecidableEq

namespace Position

/-- The place of the first character of a text. -/
def start : Position := ⟨1, 1⟩

/-- The place that stands for no token at all: an exhausted token list ends there. -/
def nowhere : Position := ⟨0, 0⟩

/-- The place after a character. A line break opens the next row. -/
def next (position : Position) (character : Char) : Position :=
  if character = '\n' then ⟨position.row + 1, 1⟩ else ⟨position.row, position.column + 1⟩

/-- The place after a run of characters. -/
def after (position : Position) (text : List Char) : Position :=
  text.foldl next position

/-- The written form, `row:column`. -/
def text (position : Position) : String :=
  toString position.row ++ ":" ++ toString position.column

@[simp] theorem next_newline (position : Position) :
    position.next '\n' = ⟨position.row + 1, 1⟩ := rfl

theorem next_of_ne (position : Position) (character : Char) (other : character ≠ '\n') :
    position.next character = ⟨position.row, position.column + 1⟩ := by
  simp [next, other]

@[simp] theorem after_nil (position : Position) : position.after [] = position := rfl

@[simp] theorem after_cons (position : Position) (character : Char) (rest : List Char) :
    position.after (character :: rest) = (position.next character).after rest := rfl

@[simp] theorem after_append (position : Position) (front back : List Char) :
    position.after (front ++ back) = (position.after front).after back := by
  simp [after, List.foldl_append]

end Position

end Scriptlet
