/-
This file says what a piece of a text is. A pattern wins at a point if one of its texts
stands there and no pattern has a longer one; a reserved word wins over the name that is
written like it. A string literal is no pattern: it is what decoding behind its opening quote
takes up. The first character of a piece tells which patterns it can belong to, and no token
but a string literal has a blank or a line break in it.
-/

import Scriptlet.Proofs.Lexing.Patterns

namespace Scriptlet.Lexing

open Token

/-! ### What a piece is -/

/-- What a piece stands for: a token, or a separator that is skipped. -/
inductive Content where
  | token (token : Token)
  | layout (kind : Layout)
deriving DecidableEq

/-- The token of a piece that is not skipped. -/
def Content.token? : Content → Option Token
  | .token found => some found
  | .layout _ => none

/-- A piece of a text and what it stands for. -/
structure Lexeme where
  text : List Char
  content : Content
deriving DecidableEq

/-- What a piece that was read stands for, without its length. -/
def contentOf : Piece → Content
  | .token found _ => .token found
  | .layout kind _ => .layout kind

namespace Pattern

/-- The token of a reserved word, by its pattern. -/
def reserved? : Pattern → Option Token
  | truth value => some (.bool value)
  | keyword word => some (.keyword word)
  | _ => none

/-- A pattern has a text at a point, none has a longer one there, and only the name below a
reserved word has the same. -/
structure Wins (pattern : Pattern) (text rest : List Char) : Prop where
  belongs : text ∈ pattern.texts
  longest : ∀ (other : Pattern) (front : List Char), front ∈ other.texts → front <+: text ++ rest →
    front.length ≤ text.length
  preferred : ∀ other : Pattern, text ∈ other.texts →
    other = pattern ∨ (other = identifier ∧ pattern.reserved?.isSome)

/-- What comes of a text of a pattern: its content, or a fault. -/
def Yields : Pattern → List Char → Except ParseFault Content → Prop
  | truth value, _, result => result = .ok (.token (.bool value))
  | keyword word, _, result => result = .ok (.token (.keyword word))
  | symbol mark, _, result => result = .ok (.token (.symbol mark))
  | identifier, text, result => result = .ok (.token (.identifier (String.ofList text)))
  | integer, text, result =>
    (∃ number : Int64, number.toInt = Nat.ofDigitChars 10 text 0 ∧
      result = .ok (.token (.int number))) ∨
    (2 ^ 63 - 1 < Nat.ofDigitChars 10 text 0 ∧ result = .error .literalTooLarge)
  | decimal, text, result => ∃ whole ∈ integer.texts, ∃ fraction,
    text = whole ++ '.' :: fraction ∧ result = .ok (.token (ofDecimal whole fraction))
  | lineComment, _, result => result = .ok (.layout .lineComment)
  | blockComment, _, result => result = .ok (.layout .blockComment)
  | blanks, _, result => result = .ok (.layout .blanks)
  | newLine, _, result => result = .ok (.layout .newLine)

end Pattern

/-- What is read off the front of a text: a piece, or why there is none. -/
inductive Munch : List Char → Except ParseFault Lexeme → Prop where
  | unmatched {character : Char} {rest : List Char} (unquoted : character ≠ '"')
      (none : ∀ (pattern : Pattern) (front : List Char), front ∈ pattern.texts →
        ¬ front <+: character :: rest) :
      Munch (character :: rest) (.error (.invalidCharacter character))
  | pattern {text rest : List Char} {result : Except ParseFault Content} {pattern : Pattern}
      (unquoted : (text ++ rest).head? ≠ some '"') (wins : pattern.Wins text rest)
      (yields : pattern.Yields text result) : Munch (text ++ rest) (result.map (Lexeme.mk text))
  | string {rest : List Char} : Munch ('"' :: rest) ((StringBody.decode rest).map fun decoded =>
      ⟨'"' :: rest.take decoded.length, .token (.str (String.ofList decoded.value))⟩)

/-! ### The first character -/

/-- What kind of piece a character opens. -/
inductive Kind where
  | word
  | number
  | lineBreak
  | blank
  | mark
deriving DecidableEq

/-- The kind of piece a character opens, quotes apart. -/
def Kind.of (character : Char) : Kind :=
  if startsName character then word
  else if character.isDigit then number
  else if character = '\n' then lineBreak
  else if isBlank character then blank
  else mark

/-- The blanks and the line break. -/
def gaps : List Char :=
  [' ', '\t', '\r', '\x0c', '\n']

/-- Among characters with a property that no gap has there is none. -/
theorem gap_notMem_of_property {gap : Char} (isGap : gap ∈ gaps) {property : Char → Bool}
    {text : List Char} (each : ∀ character ∈ text, property character = true)
    (apart : gaps.all (fun other => !property other) = true) : gap ∉ text := by
  intro member
  have lacks := List.all_eq_true.mp apart gap isGap
  rw [each gap member] at lacks
  cases lacks

namespace Pattern

/-- The kind of the texts of a pattern. -/
def kind : Pattern → Kind
  | truth _ | keyword _ | identifier => .word
  | integer | decimal => .number
  | newLine => .lineBreak
  | blanks => .blank
  | symbol _ | lineComment | blockComment => .mark

theorem eq_identifier_or_reserved {pattern : Pattern} (isWord : pattern.kind = .word) :
    pattern = identifier ∨ ∃ token, pattern.reserved? = some token := by
  match pattern with
  | identifier => exact Or.inl rfl
  | truth value => exact Or.inr ⟨_, rfl⟩
  | keyword word => exact Or.inr ⟨_, rfl⟩

theorem eq_integer_or_decimal {pattern : Pattern} (isNumber : pattern.kind = .number) :
    pattern = integer ∨ pattern = decimal := by
  match pattern with
  | integer => exact Or.inl rfl
  | decimal => exact Or.inr rfl

theorem eq_newLine {pattern : Pattern} (isBreak : pattern.kind = .lineBreak) :
    pattern = newLine := by
  match pattern with
  | newLine => rfl

theorem eq_blanks {pattern : Pattern} (isBlanks : pattern.kind = .blank) : pattern = blanks := by
  match pattern with
  | blanks => rfl

theorem eq_symbol_or_comment {pattern : Pattern} (isMark : pattern.kind = .mark) :
    (∃ mark, pattern = symbol mark) ∨ pattern = lineComment ∨ pattern = blockComment := by
  match pattern with
  | symbol mark => exact Or.inl ⟨mark, rfl⟩
  | lineComment => exact Or.inr (Or.inl rfl)
  | blockComment => exact Or.inr (Or.inr rfl)

theorem reserved?_cases {pattern : Pattern} {token : Token}
    (same : pattern.reserved? = some token) :
    (∃ value, pattern = truth value ∧ token = .bool value) ∨
      ∃ word, pattern = keyword word ∧ token = .keyword word := by
  match pattern with
  | truth value => exact Or.inl ⟨value, rfl, (Option.some.inj same).symm⟩
  | keyword word => exact Or.inr ⟨word, rfl, (Option.some.inj same).symm⟩

theorem mem_reserved_iff {pattern : Pattern} {token : Token} {text : List Char}
    (same : pattern.reserved? = some token) :
    text ∈ pattern.texts ↔ token.reserved? = some (String.ofList text) := by
  have spelled : ∀ spelling : String,
      text ∈ ({spelling.toList} : Language Char) ↔ some spelling = some (String.ofList text) := by
    intro spelling
    rw [Option.some.injEq, ← String.toList_inj, String.toList_ofList]
    exact eq_comm
  match pattern with
  | truth true => cases same; exact spelled "true"
  | truth false => cases same; exact spelled "false"
  | keyword word => cases same; exact spelled word.spelling

/-- Reserved words are written like names. -/
theorem mem_identifier_of_reserved {pattern : Pattern} {text : List Char}
    (reserved : pattern.reserved?.isSome) (belongs : text ∈ pattern.texts) :
    text ∈ identifier.texts := by
  have shaped : ∀ spelling : List Char, text ∈ ({spelling} : Language Char) →
      (spelling.head?.any startsName && spelling.tail.all continuesName) = true →
      text ∈ identifier.texts := by
    rintro _ rfl shape
    rw [Bool.and_eq_true, Option.any_eq_true, List.all_eq_true] at shape
    obtain ⟨⟨character, first, starts⟩, continues⟩ := shape
    obtain ⟨rest, rfl⟩ := List.head?_eq_some_iff.mp first
    exact mem_identifier.mpr ⟨character, rest, rfl, starts, continues⟩
  match pattern with
  | truth true => exact shaped _ belongs (by decide)
  | truth false => exact shaped _ belongs (by decide)
  | keyword word => exact shaped _ belongs (by cases word <;> decide)

theorem ne_nil_of_mem {pattern : Pattern} {text : List Char} (belongs : text ∈ pattern.texts) :
    text ≠ [] := by
  rintro rfl
  match pattern with
  | truth true | truth false | newLine => cases belongs
  | keyword word => cases word <;> cases belongs
  | symbol mark => exact mark.spelling_ne_nil belongs.symm
  | identifier =>
    obtain ⟨_, _, impossible, _⟩ := mem_identifier.mp belongs
    cases impossible
  | integer => exact (mem_integer.mp belongs).1 rfl
  | decimal =>
    obtain ⟨whole, _, fraction, _, impossible⟩ := mem_decimal.mp belongs
    simp at impossible
  | lineComment =>
    obtain ⟨_, impossible, _⟩ := mem_lineComment.mp belongs
    cases impossible
  | blockComment =>
    obtain ⟨_, impossible, _⟩ := mem_blockComment.mp belongs
    cases impossible
  | blanks => exact (mem_blanks.mp belongs).1 rfl

theorem startsName_of_isDigit {character : Char} (digit : character.isDigit = true) :
    startsName character = false := by
  rw [← Bool.not_eq_true, startsName_iff]
  obtain ⟨-, atMost⟩ := (isDigit_iff character).mp digit
  rintro (⟨atLeast, -⟩ | ⟨atLeast, -⟩ | rfl)
  · exact absurd (Char.le_trans atLeast atMost) (by decide)
  · exact absurd (Char.le_trans atLeast atMost) (by decide)
  · exact absurd atMost (by decide)

/-- A first character tells the kind of a piece. -/
theorem kind_of_mem {pattern : Pattern} {character : Char} {rest : List Char}
    (belongs : character :: rest ∈ pattern.texts) : Kind.of character = pattern.kind := by
  have word (named : character :: rest ∈ identifier.texts) : Kind.of character = .word := by
    obtain ⟨_, _, same, starts, _⟩ := mem_identifier.mp named
    cases same
    exact if_pos starts
  have number (digit : character.isDigit = true) : Kind.of character = .number := by
    simp [Kind.of, startsName_of_isDigit digit, digit]
  match pattern with
  | truth value => exact word (mem_identifier_of_reserved rfl belongs)
  | keyword spelled => exact word (mem_identifier_of_reserved rfl belongs)
  | identifier => exact word belongs
  | integer => exact number ((mem_integer.mp belongs).2 character List.mem_cons_self)
  | decimal =>
    obtain ⟨whole, isWhole, fraction, -, same⟩ := mem_decimal.mp belongs
    obtain ⟨filled, digits⟩ := mem_integer.mp isWhole
    obtain ⟨first, more, rfl⟩ := List.exists_cons_of_ne_nil filled
    cases same
    exact number (digits _ List.mem_cons_self)
  | symbol mark =>
    have first : mark.spelling.head? = some character := by
      rw [← show character :: rest = mark.spelling from belongs]
      rfl
    cases mark <;> cases first <;> decide
  | lineComment =>
    obtain ⟨_, same, _⟩ := mem_lineComment.mp belongs
    cases same
    decide
  | blockComment =>
    obtain ⟨_, same, _⟩ := mem_blockComment.mp belongs
    cases same
    decide
  | blanks =>
    have space := (isBlank_iff character).mp ((mem_blanks.mp belongs).2 _ List.mem_cons_self)
    rcases space with rfl | rfl | rfl | rfl <;> decide
  | newLine =>
    cases belongs
    decide

theorem kind_of_isPrefix {pattern : Pattern} {character : Char} {front rest : List Char}
    (belongs : front ∈ pattern.texts) (within : front <+: character :: rest) :
    pattern.kind = Kind.of character := by
  obtain ⟨first, more, rfl⟩ := List.exists_cons_of_ne_nil (ne_nil_of_mem belongs)
  obtain ⟨rfl, -⟩ := List.cons_prefix_cons.mp within
  exact (kind_of_mem belongs).symm

/-- Whether a pattern is one of tokens. -/
def isToken : Pattern → Bool
  | lineComment | blockComment | blanks | newLine => false
  | _ => true

theorem eq_layout {pattern : Pattern} (separates : pattern.isToken = false) :
    pattern = lineComment ∨ pattern = blockComment ∨ pattern = blanks ∨ pattern = newLine := by
  match pattern with
  | lineComment | blockComment | blanks | newLine => simp

theorem gap_notMem {pattern : Pattern} {text : List Char} {gap : Char} (isGap : gap ∈ gaps)
    (belongs : text ∈ pattern.texts) (isToken : pattern.isToken = true) : gap ∉ text := by
  have word (named : text ∈ identifier.texts) : gap ∉ text := by
    obtain ⟨character, rest, rfl, starts, continues⟩ := mem_identifier.mp named
    have first : continuesName character = true :=
      (continuesName_iff character).mpr (Or.inl ((startsName_iff character).mp starts))
    exact gap_notMem_of_property isGap (List.forall_mem_cons.mpr ⟨first, continues⟩) (by decide)
  have number {digits : List Char} (isNumber : digits ∈ integer.texts) : gap ∉ digits :=
    gap_notMem_of_property isGap (mem_integer.mp isNumber).2 (by decide)
  match pattern with
  | truth _ | keyword _ => exact word (mem_identifier_of_reserved rfl belongs)
  | identifier => exact word belongs
  | symbol mark =>
    have table : ∀ mark ∈ Symbol.all, mark.spelling.all (!gaps.contains ·) = true := by decide
    rw [show text = mark.spelling from belongs]
    intro member
    have apart := List.all_eq_true.mp (table mark mark.mem_all) gap member
    simp [isGap] at apart
  | integer => exact number belongs
  | decimal =>
    obtain ⟨whole, isWhole, fraction, isFraction, rfl⟩ := mem_decimal.mp belongs
    have noPoint : gap ≠ '.' := by
      rintro rfl
      exact absurd isGap (by decide)
    simp [number isWhole, number isFraction, noPoint]

/-- No text of a pattern starts with a quote. -/
theorem head_ne_quote {pattern : Pattern} {rest : List Char} : '"' :: rest ∉ pattern.texts := by
  intro belongs
  rcases eq_symbol_or_comment (kind_of_mem belongs).symm with ⟨mark, rfl⟩ | rfl | rfl
  · have table : ∀ mark ∈ Symbol.all, mark.spelling.head? ≠ some '"' := by decide
    refine table mark mark.mem_all ?_
    rw [← show '"' :: rest = mark.spelling from belongs]
    rfl
  · obtain ⟨_, impossible, _⟩ := mem_lineComment.mp belongs
    cases impossible
  · obtain ⟨_, impossible, _⟩ := mem_blockComment.mp belongs
    cases impossible

theorem Wins.unquoted {pattern : Pattern} {text rest : List Char} (wins : pattern.Wins text rest) :
    (text ++ rest).head? ≠ some '"' := by
  obtain ⟨first, more, rfl⟩ := List.exists_cons_of_ne_nil (ne_nil_of_mem wins.belongs)
  intro quoted
  cases quoted
  exact head_ne_quote wins.belongs

end Pattern

end Scriptlet.Lexing
