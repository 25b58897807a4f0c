/-
This file writes the pieces of a source text down as formal languages. A piece is a reserved
word, a symbol, a name, a number, a comment, a run of blanks or a line break, and each kind
has its pattern. What belongs to a pattern is then said in the terms the reader works with:
runs of characters of one class, and for a comment between slash-stars the first closing
mark behind its opening.
-/

import Mathlib.Computability.Language
import Scriptlet.Token.Lexer

namespace Scriptlet.Lexing

open Computability Token

/-! ### Classes of characters -/

/-- A text of one character that has a property. -/
def one (property : Char → Prop) : Language Char :=
  {text | ∃ character, property character ∧ text = [character]}

/-- A text of one character or more, all of them with a property. -/
def oneOrMore (property : Char → Prop) : Language Char :=
  one property * (one property)∗

def IsLetter (character : Char) : Prop :=
  ('a' ≤ character ∧ character ≤ 'z') ∨ ('A' ≤ character ∧ character ≤ 'Z') ∨ character = '_'

def IsFigure (character : Char) : Prop :=
  '0' ≤ character ∧ character ≤ '9'

def IsSpace (character : Char) : Prop :=
  character = ' ' ∨ character = '\t' ∨ character = '\r' ∨ character = '\x0c'

theorem startsName_iff (character : Char) : startsName character = true ↔ IsLetter character := by
  unfold startsName IsLetter Char.isAlpha Char.isUpper Char.isLower
  simp only [Char.le_def]
  grind

theorem isDigit_iff (character : Char) : character.isDigit = true ↔ IsFigure character := by
  unfold Char.isDigit IsFigure
  simp only [Char.le_def]
  grind

theorem continuesName_iff (character : Char) :
    continuesName character = true ↔ IsLetter character ∨ IsFigure character := by
  rw [← startsName_iff, ← isDigit_iff]
  unfold continuesName startsName Char.isAlphanum
  grind

theorem isBlank_iff (character : Char) : isBlank character = true ↔ IsSpace character := by
  unfold isBlank IsSpace
  grind

/-! ### Patterns -/

/-- The kinds of pieces a text is made of, string literals apart. -/
inductive Pattern where
  | truth (value : Bool)
  | keyword (word : Keyword)
  | symbol (mark : Symbol)
  | identifier
  | integer
  | decimal
  | lineComment
  | blockComment
  | blanks
  | newLine
deriving DecidableEq

namespace Pattern

/-- What can stand between the opening of a comment and its closing, bit by bit: no star, or a
run of stars with a character behind it that does not close the comment. -/
def commentUnit : Language Char :=
  one (· ≠ '*') + oneOrMore (· = '*') * one fun character => character ≠ '*' ∧ character ≠ '/'

/-- Everything behind the opening of a comment. -/
def commentBody : Language Char :=
  commentUnit∗ * (oneOrMore (· = '*') * {['/']})

/-- The texts of a pattern. -/
def texts : Pattern → Language Char
  | truth true => {"true".toList}
  | truth false => {"false".toList}
  | keyword word => {word.spelling.toList}
  | symbol mark => {mark.spelling}
  | identifier => one IsLetter * (one fun character => IsLetter character ∨ IsFigure character)∗
  | integer => oneOrMore IsFigure
  | decimal => oneOrMore IsFigure * ({['.']} * oneOrMore IsFigure)
  | lineComment => {['/', '/']} * (one (· ≠ '\n'))∗
  | blockComment => {['/', '*']} * commentBody
  | blanks => oneOrMore IsSpace
  | newLine => {['\n']}

/-! ### Runs of characters -/

theorem mem_one_mul {property : Char → Prop} {more : Language Char} {text : List Char} :
    text ∈ one property * more ↔
      ∃ character rest, text = character :: rest ∧ property character ∧ rest ∈ more := by
  rw [Language.mem_mul]
  constructor
  · rintro ⟨_, ⟨character, holds, rfl⟩, rest, belongs, rfl⟩
    exact ⟨character, rest, rfl, holds, belongs⟩
  · rintro ⟨character, rest, rfl, holds, belongs⟩
    exact ⟨[character], ⟨character, holds, rfl⟩, rest, belongs, rfl⟩

theorem mem_kstar_one {property : Char → Prop} {text : List Char} :
    text ∈ (one property)∗ ↔ ∀ character ∈ text, property character := by
  rw [Language.mem_kstar]
  constructor
  · rintro ⟨units, rfl, each⟩ character member
    obtain ⟨unit, within, inside⟩ := List.mem_flatten.mp member
    obtain ⟨single, holds, rfl⟩ := each unit within
    rwa [List.mem_singleton.mp inside]
  · intro each
    refine ⟨text.map fun character => [character], ?_, ?_⟩
    · rw [← List.flatMap_def, List.flatMap_singleton']
    · intro unit member
      obtain ⟨character, inside, rfl⟩ := List.mem_map.mp member
      exact ⟨character, each character inside, rfl⟩

theorem mem_oneOrMore {property : Char → Prop} {text : List Char} :
    text ∈ oneOrMore property ↔ text ≠ [] ∧ ∀ character ∈ text, property character := by
  unfold oneOrMore
  rw [mem_one_mul]
  constructor
  · rintro ⟨character, rest, rfl, holds, belongs⟩
    exact ⟨List.cons_ne_nil _ _, List.forall_mem_cons.mpr ⟨holds, mem_kstar_one.mp belongs⟩⟩
  · rintro ⟨filled, each⟩
    obtain ⟨character, rest, rfl⟩ := List.exists_cons_of_ne_nil filled
    obtain ⟨holds, others⟩ := List.forall_mem_cons.mp each
    exact ⟨character, rest, rfl, holds, mem_kstar_one.mpr others⟩

theorem mem_singleton_mul {front : List Char} {more : Language Char} {text : List Char} :
    text ∈ ({front} : Language Char) * more ↔ ∃ rest, text = front ++ rest ∧ rest ∈ more := by
  rw [Language.mem_mul]
  constructor
  · rintro ⟨_, rfl, rest, belongs, rfl⟩
    exact ⟨rest, rfl, belongs⟩
  · rintro ⟨rest, rfl, belongs⟩
    exact ⟨front, rfl, rest, belongs, rfl⟩

theorem mem_identifier {text : List Char} :
    text ∈ identifier.texts ↔ ∃ character rest, text = character :: rest ∧
      startsName character = true ∧ ∀ other ∈ rest, continuesName other = true := by
  simp only [texts, mem_one_mul, mem_kstar_one, startsName_iff, continuesName_iff]

theorem mem_integer {text : List Char} :
    text ∈ integer.texts ↔ text ≠ [] ∧ ∀ character ∈ text, character.isDigit = true := by
  simp only [texts, mem_oneOrMore, isDigit_iff]

theorem mem_decimal {text : List Char} :
    text ∈ decimal.texts ↔ ∃ whole ∈ integer.texts, ∃ fraction ∈ integer.texts,
      text = whole ++ '.' :: fraction := by
  show text ∈ integer.texts * _ ↔ _
  rw [Language.mem_mul]
  constructor
  · rintro ⟨whole, isWhole, _, pointed, rfl⟩
    obtain ⟨fraction, rfl, isFraction⟩ := mem_singleton_mul.mp pointed
    exact ⟨whole, isWhole, fraction, isFraction, rfl⟩
  · rintro ⟨whole, isWhole, fraction, isFraction, rfl⟩
    exact ⟨whole, isWhole, _, mem_singleton_mul.mpr ⟨fraction, rfl, isFraction⟩, rfl⟩

theorem mem_lineComment {text : List Char} :
    text ∈ lineComment.texts ↔ ∃ comment, text = '/' :: '/' :: comment ∧
      ∀ character ∈ comment, (character != '\n') = true := by
  simp only [texts, mem_singleton_mul, mem_kstar_one, bne_iff_ne, List.cons_append, List.nil_append]

theorem mem_blanks {text : List Char} :
    text ∈ blanks.texts ↔ text ≠ [] ∧ ∀ character ∈ text, isBlank character = true := by
  simp only [texts, mem_oneOrMore, isBlank_iff]

/-! ### Comments between slash-stars -/

/-- A character that is not the star of a closing mark is passed on the way to one. -/
theorem commentTail?_cons {character : Char} {rest : List Char}
    (passed : character = '*' → rest.head? ≠ some '/') :
    commentTail? (character :: rest) = (commentTail? rest).map (· + 1) := by
  rw [commentTail?.eq_def]
  split
  · rename_i impossible
    cases impossible
  · rename_i closing
    cases closing
    exact absurd rfl (passed rfl)
  · rename_i same
    cases same
    rfl

theorem commentTail?_stars {stars rest : List Char} (each : ∀ star ∈ stars, star = '*')
    (onward : rest.head? ≠ some '/') :
    commentTail? (stars ++ rest) = (commentTail? rest).map (· + stars.length) := by
  induction stars with
  | nil => simp
  | cons star stars inductionHypothesis =>
    obtain ⟨rfl, others⟩ := List.forall_mem_cons.mp each
    have follows : (stars ++ rest).head? ≠ some '/' := by
      match stars, others with
      | [], _ => exact onward
      | other :: _, others =>
        rw [(List.forall_mem_cons.mp others).1]
        simp
    rw [List.cons_append, commentTail?_cons fun _ => follows, inductionHypothesis others,
      Option.map_map]
    rfl

/-- The stars of a closing mark end a comment together with the slash behind them. -/
theorem commentTail?_closing {stars : List Char} (isStars : stars ∈ oneOrMore (· = '*')) :
    commentTail? (stars ++ ['/']) = some (stars.length + 1) := by
  obtain ⟨filled, each⟩ := mem_oneOrMore.mp isStars
  obtain ⟨others, last, rfl⟩ := (List.eq_nil_or_concat' stars).resolve_left filled
  obtain ⟨allOthers, isLast⟩ := List.forall_mem_append.mp each
  rw [List.forall_mem_singleton.mp isLast, List.append_assoc,
    commentTail?_stars allOthers (by simp), List.length_append]
  exact congrArg some (Nat.add_comm 2 others.length)

theorem commentTail?_unit {unit rest : List Char} (belongs : unit ∈ commentUnit) :
    commentTail? (unit ++ rest) = (commentTail? rest).map (· + unit.length) := by
  rcases (Language.mem_add _ _ _).mp belongs with ⟨character, other, rfl⟩ | starred
  · exact commentTail?_cons fun isStar => absurd isStar other
  · obtain ⟨stars, isStars, _, ⟨character, ⟨noStar, noSlash⟩, rfl⟩, rfl⟩ :=
      Language.mem_mul.mp starred
    rw [List.append_assoc, commentTail?_stars (mem_oneOrMore.mp isStars).2 (by simpa using noSlash),
      List.singleton_append, commentTail?_cons fun isStar => absurd isStar noStar, Option.map_map,
      List.length_append]
    congr 1
    funext length
    simp
    omega

theorem commentTail?_of_mem {body : List Char} (belongs : body ∈ commentBody) :
    commentTail? body = some body.length := by
  obtain ⟨_, ⟨units, rfl, each⟩, tail, closing, rfl⟩ := Language.mem_mul.mp belongs
  induction units with
  | nil =>
    obtain ⟨stars, isStars, _, rfl, rfl⟩ := Language.mem_mul.mp closing
    rw [List.flatten_nil, List.nil_append, commentTail?_closing isStars]
    simp
  | cons unit units inductionHypothesis =>
    obtain ⟨isUnit, others⟩ := List.forall_mem_cons.mp each
    have later := inductionHypothesis others ⟨_, ⟨units, rfl, others⟩, tail, closing, rfl⟩
    rw [List.flatten_cons, List.append_assoc, commentTail?_unit isUnit, later]
    simp [Nat.add_comm]

theorem append_mem_commentBody {unit rest : List Char} (isUnit : unit ∈ commentUnit)
    (belongs : rest ∈ commentBody) : unit ++ rest ∈ commentBody := by
  obtain ⟨_, ⟨units, rfl, each⟩, tail, closing, rfl⟩ := Language.mem_mul.mp belongs
  refine Language.mem_mul.mpr ⟨(unit :: units).flatten, ⟨_, rfl, ?_⟩, tail, closing, ?_⟩
  · exact List.forall_mem_cons.mpr ⟨isUnit, each⟩
  · rw [List.flatten_cons, List.append_assoc]

theorem star_cons_mem_commentUnit {unit : List Char} (isUnit : unit ∈ commentUnit)
    (onward : unit.head? ≠ some '/') : '*' :: unit ∈ commentUnit := by
  refine Or.inr (Language.mem_mul.mpr ?_)
  rcases (Language.mem_add _ _ _).mp isUnit with ⟨character, other, rfl⟩ | starred
  · refine ⟨['*'], mem_oneOrMore.mpr (by simp), [character], ⟨character, ⟨other, ?_⟩, rfl⟩, rfl⟩
    simpa using onward
  · obtain ⟨stars, isStars, last, isLast, rfl⟩ := Language.mem_mul.mp starred
    obtain ⟨-, each⟩ := mem_oneOrMore.mp isStars
    refine ⟨'*' :: stars, mem_oneOrMore.mpr ⟨List.cons_ne_nil _ _, ?_⟩, last, isLast, rfl⟩
    exact List.forall_mem_cons.mpr ⟨rfl, each⟩

theorem commentUnit_ne_nil {unit : List Char} (isUnit : unit ∈ commentUnit) : unit ≠ [] := by
  rcases (Language.mem_add _ _ _).mp isUnit with ⟨character, -, rfl⟩ | starred
  · exact List.cons_ne_nil _ _
  · obtain ⟨stars, isStars, last, -, rfl⟩ := Language.mem_mul.mp starred
    exact List.append_ne_nil_of_left_ne_nil (mem_oneOrMore.mp isStars).1 _

theorem star_cons_mem_commentBody {rest : List Char} (belongs : rest ∈ commentBody)
    (onward : rest.head? ≠ some '/') : '*' :: rest ∈ commentBody := by
  obtain ⟨_, ⟨units, rfl, each⟩, tail, closing, rfl⟩ := Language.mem_mul.mp belongs
  -- The star joins the run of stars that comes next, or starts one.
  cases units with
  | nil =>
    obtain ⟨stars, isStars, slash, isSlash, rfl⟩ := Language.mem_mul.mp closing
    obtain ⟨-, allStars⟩ := mem_oneOrMore.mp isStars
    have longer : '*' :: stars ∈ oneOrMore (· = '*') :=
      mem_oneOrMore.mpr ⟨List.cons_ne_nil _ _, List.forall_mem_cons.mpr ⟨rfl, allStars⟩⟩
    exact Language.mem_mul.mpr ⟨[], Language.nil_mem_kstar _, '*' :: (stars ++ slash),
      Language.append_mem_mul longer isSlash, rfl⟩
  | cons unit units =>
    obtain ⟨isUnit, others⟩ := List.forall_mem_cons.mp each
    obtain ⟨first, more, rfl⟩ := List.exists_cons_of_ne_nil (commentUnit_ne_nil isUnit)
    have later : units.flatten ++ tail ∈ commentBody :=
      Language.append_mem_mul (Language.join_mem_kstar others) closing
    rw [List.flatten_cons, List.append_assoc, ← List.cons_append]
    exact append_mem_commentBody (star_cons_mem_commentUnit isUnit onward) later

/-- The body of a comment ends with the first closing mark in it. -/
theorem mem_commentBody_iff {body : List Char} :
    body ∈ commentBody ↔ commentTail? body = some body.length := by
  refine ⟨commentTail?_of_mem, fun closed => ?_⟩
  induction body with
  | nil => cases closed
  | cons character rest inductionHypothesis =>
    by_cases closes : character = '*' ∧ rest.head? = some '/'
    · obtain ⟨rfl, slash⟩ := closes
      obtain ⟨more, rfl⟩ := List.head?_eq_some_iff.mp slash
      have nothing : more = [] := by simpa [commentTail?] using closed
      rw [nothing]
      have star : ['*'] ∈ oneOrMore (· = '*') := mem_oneOrMore.mpr (by simp)
      exact Language.mem_mul.mpr ⟨[], Language.nil_mem_kstar _, ['*', '/'],
        Language.append_mem_mul star rfl, rfl⟩
    · rw [commentTail?_cons fun isStar slash => closes ⟨isStar, slash⟩] at closed
      have belongs := inductionHypothesis (by simpa using closed)
      by_cases isStar : character = '*'
      · rw [isStar]
        exact star_cons_mem_commentBody belongs fun slash => closes ⟨isStar, slash⟩
      · have isUnit : [character] ∈ commentUnit := Or.inl ⟨character, isStar, rfl⟩
        exact append_mem_commentBody isUnit belongs

theorem mem_blockComment {text : List Char} :
    text ∈ blockComment.texts ↔
      ∃ body, text = '/' :: '*' :: body ∧ commentTail? body = some body.length := by
  simp only [texts, mem_singleton_mul, mem_commentBody_iff, List.cons_append, List.nil_append]

/-- A closing mark at the very front, or none there. -/
theorem closing_isPrefix_iff {character : Char} {rest : List Char} :
    ['*', '/'] <+: character :: rest ↔ character = '*' ∧ rest.head? = some '/' := by
  cases rest <;> simp [List.cons_prefix_cons, eq_comm]

/-- The end of a comment is found behind the first closing mark. -/
theorem commentTail?_eq_some_iff {text : List Char} {length : Nat} :
    commentTail? text = some length ↔ ∃ inner back, text = inner ++ '*' :: '/' :: back ∧
      length = inner.length + 2 ∧ ¬ ['*', '/'] <:+: inner ++ ['*'] := by
  constructor
  · intro closed
    induction text generalizing length with
    | nil => cases closed
    | cons character rest inductionHypothesis =>
      by_cases closes : character = '*' ∧ rest.head? = some '/'
      · obtain ⟨rfl, slash⟩ := closes
        obtain ⟨back, rfl⟩ := List.head?_eq_some_iff.mp slash
        cases closed
        exact ⟨[], back, rfl, rfl, by decide⟩
      · rw [commentTail?_cons fun isStar slash => closes ⟨isStar, slash⟩] at closed
        obtain ⟨shorter, found, rfl⟩ := Option.map_eq_some_iff.mp closed
        obtain ⟨inner, back, rfl, rfl, first⟩ := inductionHypothesis found
        refine ⟨character :: inner, back, rfl, rfl, ?_⟩
        rw [List.cons_append, List.infix_cons_iff, closing_isPrefix_iff]
        rintro (⟨isStar, slash⟩ | earlier)
        · refine closes ⟨isStar, ?_⟩
          cases inner <;> simp_all
        · exact first earlier
  · rintro ⟨inner, back, rfl, rfl, first⟩
    induction inner with
    | nil => rfl
    | cons character inner inductionHypothesis =>
      rw [List.cons_append, List.infix_cons_iff, closing_isPrefix_iff, not_or] at first
      have passed : character = '*' → (inner ++ '*' :: '/' :: back).head? ≠ some '/' := by
        intro isStar slash
        refine first.1 ⟨isStar, ?_⟩
        cases inner <;> simp_all
      rw [List.cons_append, commentTail?_cons passed, inductionHypothesis first.2]
      rfl

theorem exists_commentTail?_iff {text : List Char} :
    (∃ length, commentTail? text = some length) ↔ ['*', '/'] <:+: text := by
  induction text with
  | nil => simp [commentTail?]
  | cons character rest inductionHypothesis =>
    rw [List.infix_cons_iff, closing_isPrefix_iff]
    by_cases closes : character = '*' ∧ rest.head? = some '/'
    · refine iff_of_true ?_ (Or.inl closes)
      obtain ⟨rfl, slash⟩ := closes
      obtain ⟨back, rfl⟩ := List.head?_eq_some_iff.mp slash
      exact ⟨2, rfl⟩
    · rw [commentTail?_cons fun isStar slash => closes ⟨isStar, slash⟩, ← inductionHypothesis]
      simp [closes]

/-- What is left behind a comment has no part in finding its end. -/
theorem commentTail?_append {body : List Char} {length : Nat} (rest : List Char)
    (closed : commentTail? body = some length) : commentTail? (body ++ rest) = some length := by
  obtain ⟨inner, back, rfl, rfl, first⟩ := commentTail?_eq_some_iff.mp closed
  refine commentTail?_eq_some_iff.mpr ⟨inner, back ++ rest, ?_, rfl, first⟩
  simp

end Pattern

end Scriptlet.Lexing
