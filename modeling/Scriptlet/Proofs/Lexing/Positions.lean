/-
This file says what the places of tokens are. The text before a point consists of the lines
that are over and the line the point is on; its row is one more than the number of line
breaks before it and its column is one more than the number of characters on its line. A
token stands where its piece starts, the end mark behind the last piece, and a fault where
the piece that cannot be read would start. As no piece is empty, places only go forward.
-/

import Mathlib.Data.List.DropRight
import Scriptlet.Proofs.Diagnostics.Scanning
import Scriptlet.Proofs.Lexing.Tokenization

namespace Scriptlet.Lexing

open Token

/-! ### Lines -/

/-- The lines of a text that are over, their line breaks included. -/
def pastLines (text : List Char) : List Char :=
  text.rdropWhile (· != '\n')

/-- The line a text ends on. -/
def lastLine (text : List Char) : List Char :=
  text.rtakeWhile (· != '\n')

theorem pastLines_append_lastLine (text : List Char) : pastLines text ++ lastLine text = text :=
  List.rdropWhile_append_rtakeWhile

@[simp] theorem pastLines_concat_newline (text : List Char) :
    pastLines (text ++ ['\n']) = text ++ ['\n'] :=
  List.rdropWhile_concat_neg _ _ _ (by decide)

@[simp] theorem lastLine_concat_newline (text : List Char) : lastLine (text ++ ['\n']) = [] :=
  List.rtakeWhile_concat_neg _ _ _ (by decide)

/-- Characters other than line breaks stay on the line. -/
theorem pastLines_append_inline {line : List Char} (text : List Char) (inline : '\n' ∉ line) :
    pastLines (text ++ line) = pastLines text := by
  induction line using List.reverseRecOn with
  | nil => rw [List.append_nil]
  | append_singleton line character inductionHypothesis =>
    rw [List.mem_append, not_or, List.mem_singleton] at inline
    rw [← List.append_assoc, ← inductionHypothesis inline.1]
    exact List.rdropWhile_concat_pos _ _ _ (by simpa using Ne.symm inline.2)

theorem lastLine_concat {text : List Char} {character : Char} (inline : character ≠ '\n') :
    lastLine (text ++ [character]) = lastLine text ++ [character] :=
  List.rtakeWhile_concat_pos _ _ _ (by simpa using inline)

/-! ### Places by counting -/

/-- The place behind a text: its row counts the line breaks, its column the characters of the
last line. -/
def placeBehind (text : List Char) : Position :=
  ⟨1 + text.count '\n', 1 + (lastLine text).length⟩

/-- Moving over a text from the start leads to the place behind it. -/
theorem start_after (text : List Char) : Position.start.after text = placeBehind text := by
  induction text using List.reverseRecOn with
  | nil => rfl
  | append_singleton text character inductionHypothesis =>
    rw [Position.after_append, inductionHypothesis]
    by_cases isBreak : character = '\n'
    · subst isBreak
      simp [placeBehind, Nat.add_assoc]
    · simp [placeBehind, Position.next_of_ne _ _ isBreak, lastLine_concat isBreak, isBreak,
        Nat.add_assoc]

theorem placeBehind_after (before text : List Char) :
    (placeBehind before).after text = placeBehind (before ++ text) := by
  rw [← start_after, ← start_after, Position.after_append]

namespace Lexeme

/-- The tokens of pieces, each at the place behind the text before its piece. -/
def located (before : List Char) : List Lexeme → List Placed
  | [] => []
  | piece :: pieces =>
    (piece.content.token?.map (Placed.mk · (placeBehind before))).toList ++
      located (before ++ piece.text) pieces

theorem placed_eq_located (before : List Char) (pieces : List Lexeme) :
    placed (placeBehind before) pieces = located before pieces := by
  induction pieces generalizing before with
  | nil => rfl
  | cons piece pieces inductionHypothesis =>
    rw [placed, located, ← inductionHypothesis, placeBehind_after]

end Lexeme

/-! ### The order of places -/

theorem precedes_after {text : List Char} (position : Position) (filled : text ≠ []) :
    position.Precedes (position.after text) := by
  induction text generalizing position with
  | nil => exact absurd rfl filled
  | cons character rest inductionHypothesis =>
    have forward := position.precedes_next character
    rcases List.eq_nil_or_concat' rest with rfl | ⟨_, _, rfl⟩
    · exact forward
    · exact forward.trans (inductionHypothesis _ (by simp))

/-- Tokens stand one behind the other, none of them before a place. -/
structure AscendsFrom (position : Position) (tokens : List Placed) : Prop where
  notBefore : ∀ placed ∈ tokens, position = placed.position ∨ position.Precedes placed.position
  ascends : tokens.Pairwise fun first second => first.position.Precedes second.position

namespace AscendsFrom

variable {first second : Position} {tokens : List Placed}

theorem singleton (token : Token) : AscendsFrom first [⟨token, first⟩] where
  notBefore := List.forall_mem_singleton.mpr (Or.inl rfl)
  ascends := List.pairwise_singleton _ _

theorem precedes (ascending : AscendsFrom second tokens) (forward : first.Precedes second) :
    ∀ placed ∈ tokens, first.Precedes placed.position := by
  intro placed member
  rcases ascending.notBefore placed member with same | later
  · rwa [← same]
  · exact forward.trans later

/-- A token at a place before all others may stand in front of them, or none. -/
theorem append (token? : Option Token) (ascending : AscendsFrom second tokens)
    (forward : first.Precedes second) :
    AscendsFrom first ((token?.map (Placed.mk · first)).toList ++ tokens) := by
  have later := ascending.precedes forward
  match token? with
  | none => exact ⟨fun placed member => Or.inr (later placed member), ascending.ascends⟩
  | some token =>
    refine ⟨List.forall_mem_cons.mpr ⟨Or.inl rfl, fun placed member => Or.inr (later placed member)⟩,
      List.pairwise_cons.mpr ⟨later, ascending.ascends⟩⟩

end AscendsFrom

/-- The tokens of pieces that are not empty stand one behind the other, with the end mark behind
them. -/
theorem placed_ascending {pieces : List Lexeme} (position : Position)
    (filled : ∀ piece ∈ pieces, piece.text ≠ []) :
    AscendsFrom position (Lexeme.placed position pieces ++
      [⟨.endOfInput, position.after (Lexeme.joined pieces)⟩]) := by
  induction pieces generalizing position with
  | nil => exact .singleton _
  | cons piece pieces inductionHypothesis =>
    obtain ⟨filledFirst, filledOthers⟩ := List.forall_mem_cons.mp filled
    rw [Lexeme.placed, Lexeme.joined_cons, Position.after_append, List.append_assoc]
    exact (inductionHypothesis _ filledOthers).append _ (precedes_after position filledFirst)

/-! ### Places of a text -/

theorem scan_located (source : String) :
    ∃ pieces left, Cut source.toList pieces left ∧
      ((left = [] ∧ scan source = .ok (Lexeme.located [] pieces ++
        [⟨.endOfInput, placeBehind source.toList⟩])) ∨
      ∃ fault, Munch left (.error fault) ∧
        scan source = .error ⟨fault, placeBehind (Lexeme.joined pieces)⟩) := by
  obtain ⟨pieces, left, cut, ended⟩ := scanFrom_cuts .start [] source.toList
  refine ⟨pieces, left, cut, ?_⟩
  rw [start_after, start_after] at ended
  rw [← Lexeme.placed_eq_located]
  exact ended

theorem scan_ascending {source : String} {tokens : List Placed} (scanned : scan source = .ok tokens) :
    tokens.Pairwise fun first second => first.position.Precedes second.position := by
  obtain ⟨pieces, left, cut, ⟨rfl, same⟩ | ⟨_, -, same⟩⟩ := scanFrom_cuts .start [] source.toList
  · have ascending := placed_ascending .start cut.text_ne_nil
    rw [← List.append_nil (Lexeme.joined pieces), ← cut.whole] at ascending
    cases scanned.symm.trans same
    exact ascending.ascends
  · cases scanned.symm.trans same

end Scriptlet.Lexing
