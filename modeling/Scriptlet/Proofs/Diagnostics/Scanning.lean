/-
This file says where the tokens of a text stand. Reading goes forward, so every place it
comes to is behind all places before it; a token is placed before its first character is
passed, and the end mark when all characters have been. The end mark therefore stands
behind every other token, and it is the only one of its kind.
-/

import Scriptlet.Proofs.Grammar.Opening
import Scriptlet.Token.Lexer

namespace Scriptlet

/-! ### The order of places -/

/-- A place stands before another one in a text. -/
def Position.Precedes (first second : Position) : Prop :=
  first.row < second.row ∨ (first.row = second.row ∧ first.column < second.column)

namespace Position

theorem Precedes.trans {first second third : Position} (earlier : first.Precedes second)
    (later : second.Precedes third) : first.Precedes third := by
  unfold Precedes at *
  omega

theorem Precedes.ne {first second : Position} (precedes : first.Precedes second) :
    first ≠ second := by
  rintro rfl
  unfold Precedes at precedes
  omega

theorem Precedes.row_le {first second : Position} (precedes : first.Precedes second) :
    first.row ≤ second.row := by
  unfold Precedes at precedes
  omega

theorem precedes_next (position : Position) (character : Char) :
    position.Precedes (position.next character) := by
  unfold next
  split
  · exact Or.inl (Nat.lt_succ_self _)
  · exact Or.inr ⟨rfl, Nat.lt_succ_self _⟩

end Position

namespace Token

open Grammar

/-! ### Pieces -/

theorem ofWord_inside (word : String) : ofWord word ≠ .endOfInput := by
  unfold ofWord
  split
  · exact nofun
  split
  · exact nofun
  split
  · exact nofun
  · exact nofun

theorem numberAtFront_inside {text : List Char} {token : Token} {length : Nat}
    (found : numberAtFront text = .ok (.token token length)) : token ≠ .endOfInput := by
  have whole (digits : List Char)
      (read : (ofDigits digits).map (Piece.token · digits.length) = .ok (.token token length)) :
      token ≠ .endOfInput := by
    unfold ofDigits at read
    split at read
    · cases read
      exact nofun
    · cases read
  unfold numberAtFront at found
  dsimp only at found
  split at found
  · split at found
    · exact whole _ found
    · cases found
      exact nofun
  · exact whole _ found

theorem symbolAtFront_inside {character : Char} {text : List Char} {token : Token} {length : Nat}
    (found : symbolAtFront character text = .ok (.token token length)) : token ≠ .endOfInput := by
  unfold symbolAtFront at found
  split at found
  · cases found
    exact nofun
  · cases found

/-- No piece of a text is the end mark. -/
theorem atFront_inside {character : Char} {rest : List Char} {token : Token} {length : Nat}
    (found : atFront character rest = .ok (.token token length)) : token ≠ .endOfInput := by
  unfold atFront at found
  split at found
  · cases found
    exact ofWord_inside _
  split at found
  · exact numberAtFront_inside found
  split at found
  · cases read : StringBody.decode rest with
    | error fault =>
      rw [read] at found
      cases found
    | ok decoded =>
      rw [read] at found
      cases found
      exact nofun
  split at found
  · cases found
  split at found
  · cases found
  split at found
  · cases found
  · split at found
    · cases found
    · exact symbolAtFront_inside found
  · exact symbolAtFront_inside found

/-! ### Tokens of a text -/

/-- Tokens with no end mark among them, none of them above a place and all of them before
another one. -/
structure Between (first last : Position) (tokens : List Placed) : Prop where
  inside : Endless tokens
  row : ∀ placed ∈ tokens, first.row ≤ placed.position.row
  before : ∀ placed ∈ tokens, placed.position.Precedes last

namespace Between

variable {first second last : Position} {tokens : List Placed}

theorem nil : Between first last [] :=
  ⟨Endless.nil, nofun, nofun⟩

/-- Tokens behind a place are behind every place before it. -/
theorem earlier (between : Between second last tokens) (precedes : first.Precedes second) :
    Between first last tokens where
  inside := between.inside
  row placed member := Nat.le_trans precedes.row_le (between.row placed member)
  before := between.before

theorem cons {token : Token} (between : Between first last tokens) (inside : token ≠ .endOfInput)
    (precedes : first.Precedes last) : Between first last (⟨token, first⟩ :: tokens) where
  inside := between.inside.cons inside
  row := List.forall_mem_cons.mpr ⟨Nat.le_refl _, between.row⟩
  before := List.forall_mem_cons.mpr ⟨precedes, between.before⟩

end Between

/-- Tokens that are closed by an end mark and have stood between a place and this mark. -/
def ClosedFrom (first : Position) (tokens : List Placed) : Prop :=
  ∃ front last, tokens = front ++ [⟨.endOfInput, last⟩] ∧
    (first = last ∨ first.Precedes last) ∧ Between first last front

/-- Reading from a place on adds tokens from there up to the end mark. -/
theorem scanFrom_ok {pending : Nat} {position : Position} {read tokens : List Placed}
    {text : List Char} (scanned : scanFrom pending position read text = .ok tokens) :
    ∃ more, tokens = read.reverse ++ more ∧ ClosedFrom position more := by
  induction text generalizing pending position read with
  | nil =>
    rw [scanFrom] at scanned
    cases scanned
    refine ⟨[⟨.endOfInput, position⟩], List.reverse_cons, [], position, rfl, Or.inl rfl, .nil⟩
  | cons character rest inductionHypothesis =>
    have forward := position.precedes_next character
    have onward : ∀ {last : Position}, position.next character = last ∨
        (position.next character).Precedes last → position.Precedes last := by
      rintro last (rfl | later)
      · exact forward
      · exact forward.trans later
    -- Whatever the next character belongs to, the reading behind it starts one place further on.
    have layout : ∀ {pending : Nat},
        scanFrom pending (position.next character) read rest = .ok tokens →
        ∃ more, tokens = read.reverse ++ more ∧ ClosedFrom position more := by
      intro pending scanned
      obtain ⟨more, rejoined, front, last, closed, reached, between⟩ := inductionHypothesis scanned
      exact ⟨more, rejoined, front, last, closed, Or.inr (onward reached), between.earlier forward⟩
    rw [scanFrom.eq_def] at scanned
    dsimp only at scanned
    split at scanned
    · exact layout scanned
    split at scanned
    · cases scanned
    · rename_i token length found
      obtain ⟨more, rejoined, front, last, closed, reached, between⟩ := inductionHypothesis scanned
      refine ⟨⟨token, position⟩ :: more, ?_, ⟨token, position⟩ :: front, last, ?_,
        Or.inr (onward reached), ?_⟩
      · rw [rejoined, List.reverse_cons, List.append_assoc]
        rfl
      · rw [closed]
        rfl
      · exact (between.earlier forward).cons (atFront_inside found) (onward reached)
    · exact layout scanned

/-- The tokens of a text are closed by their only end mark, which stands behind all others. -/
theorem scan_ok {source : String} {tokens : List Placed} (scanned : scan source = .ok tokens) :
    ClosedFrom .start tokens := by
  obtain ⟨more, rejoined, closed⟩ := scanFrom_ok scanned
  rw [rejoined]
  exact closed

/-- No token of a text stands nowhere. -/
theorem ClosedFrom.ne_nowhere {tokens : List Placed} (closed : ClosedFrom .start tokens) :
    ∀ placed ∈ tokens, placed.position ≠ .nowhere := by
  obtain ⟨front, last, rfl, reached, between⟩ := closed
  have low : ∀ {position : Position}, Position.start.row ≤ position.row → position ≠ .nowhere := by
    rintro position row rfl
    cases row
  refine List.forall_mem_append.mpr ⟨fun placed member => low (between.row placed member), ?_⟩
  refine List.forall_mem_singleton.mpr (low ?_)
  rcases reached with rfl | later
  · exact Nat.le_refl _
  · exact later.row_le

/-- A token of a text is the end mark if it stands where the end mark stands. -/
theorem ClosedFrom.end_of_position {first : Position} {tokens : List Placed}
    (closed : ClosedFrom first tokens) {placed mark : Placed} (member : placed ∈ tokens)
    (marked : mark ∈ tokens) (ended : mark.token = .endOfInput)
    (same : placed.position = mark.position) : placed.token = .endOfInput := by
  obtain ⟨front, last, rfl, -, between⟩ := closed
  have atLast : mark.position = last := by
    rcases List.mem_append.mp marked with inFront | isLast
    · exact absurd ended (between.inside mark inFront)
    · rw [List.mem_singleton.mp isLast]
  rcases List.mem_append.mp member with inFront | isLast
  · exact absurd (same.trans atLast) (between.before placed inFront).ne
  · rw [List.mem_singleton.mp isLast]

end Token

end Scriptlet
