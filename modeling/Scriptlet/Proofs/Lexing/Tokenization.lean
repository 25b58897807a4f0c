/-
This file proves that a text is cut into pieces without loss. Each piece is the one that is
read off the rest of the text at its point, and the pieces put together are the text again,
up to the point where no piece can be read. There is only one way to cut a text like this,
so the tokens of a text are those of its pieces and its fault is that of the point where
cutting stops.
-/

import Scriptlet.Proofs.Layout.Ignored
import Scriptlet.Proofs.Lexing.Munching

namespace Scriptlet.Lexing

open Token

/-! ### One way to read a piece -/

theorem Pattern.Wins.unique {first second : Pattern} {text rest otherText otherRest : List Char}
    (firstWins : first.Wins text rest) (secondWins : second.Wins otherText otherRest)
    (same : text ++ rest = otherText ++ otherRest) : first = second ∧ text = otherText := by
  have longer := firstWins.longest second otherText secondWins.belongs
    (same ▸ List.prefix_append _ _)
  have shorter := secondWins.longest first text firstWins.belongs
    (same ▸ List.prefix_append _ _)
  obtain ⟨sameText, -⟩ := List.append_inj same (Nat.le_antisymm shorter longer)
  refine ⟨?_, sameText⟩
  rcases firstWins.preferred second (sameText ▸ secondWins.belongs) with isFirst | ⟨rfl, reserved⟩
  · exact isFirst.symm
  · rcases secondWins.preferred first (sameText ▸ firstWins.belongs) with isSecond | ⟨-, impossible⟩
    · exact isSecond
    · cases impossible

theorem Pattern.Yields.unique {pattern : Pattern} {text : List Char}
    {first second : Except ParseFault Content} (isFirst : pattern.Yields text first)
    (isSecond : pattern.Yields text second) : first = second := by
  match pattern with
  | truth _ | keyword _ | symbol _ | identifier | lineComment | blockComment | blanks | newLine =>
    exact isFirst.trans isSecond.symm
  | integer =>
    have small {number : Int64} (value : number.toInt = Nat.ofDigitChars 10 text 0) :
        ¬ 2 ^ 63 - 1 < Nat.ofDigitChars 10 text 0 := by
      have bound := number.toInt_lt
      omega
    rcases isFirst with ⟨number, value, rfl⟩ | ⟨large, rfl⟩
    · rcases isSecond with ⟨other, otherValue, rfl⟩ | ⟨large, -⟩
      · rw [Int64.toInt_inj.mp (value.trans otherValue.symm)]
      · exact absurd large (small value)
    · rcases isSecond with ⟨other, otherValue, -⟩ | ⟨-, rfl⟩
      · exact absurd large (small otherValue)
      · rfl
  | decimal =>
    obtain ⟨whole, isWhole, fraction, split, rfl⟩ := isFirst
    obtain ⟨otherWhole, isOther, otherFraction, otherSplit, rfl⟩ := isSecond
    have within : whole ++ '.' :: fraction <+: text := ⟨[], by rw [List.append_nil, split]⟩
    have otherWithin : otherWhole ++ '.' :: otherFraction <+: text :=
      ⟨[], by rw [List.append_nil, otherSplit]⟩
    -- Both have the digits before the point as their whole part.
    have digits := (pointed_isPrefix (mem_integer.mp isWhole).2 within).1
    have otherDigits := (pointed_isPrefix (mem_integer.mp isOther).2 otherWithin).1
    cases digits.symm.trans otherDigits
    cases List.append_cancel_left (split.symm.trans otherSplit)
    rfl

/-- Only one thing can be read off the front of a text. -/
theorem Munch.unique {text : List Char} {first second : Except ParseFault Lexeme}
    (isFirst : Munch text first) (isSecond : Munch text second) : first = second := by
  generalize same : text = otherText at isSecond
  cases isFirst with
  | unmatched unquoted none =>
    cases isSecond with
    | unmatched => cases same; rfl
    | pattern _ wins _ => exact absurd ⟨_, same.symm⟩ (none _ _ wins.belongs)
    | string => cases same; exact absurd rfl unquoted
  | pattern unquoted wins yields =>
    cases isSecond with
    | unmatched _ none => exact absurd ⟨_, same⟩ (none _ _ wins.belongs)
    | pattern _ otherWins otherYields =>
      obtain ⟨rfl, rfl⟩ := wins.unique otherWins same
      rw [yields.unique otherYields]
    | string =>
      rw [same] at unquoted
      exact absurd rfl unquoted
  | string =>
    cases isSecond with
    | unmatched unquoted _ => cases same; exact absurd rfl unquoted
    | pattern unquoted _ _ =>
      rw [← same] at unquoted
      exact absurd rfl unquoted
    | string => cases same; rfl

theorem not_munch_nil {result : Except ParseFault Lexeme} : ¬ Munch [] result := by
  intro munch
  generalize empty : ([] : List Char) = text at munch
  cases munch with
  | unmatched => cases empty
  | pattern _ wins _ =>
    exact Pattern.ne_nil_of_mem wins.belongs (List.append_eq_nil_iff.mp empty.symm).1
  | string => cases empty

theorem Munch.text_ne_nil {text : List Char} {piece : Lexeme} (munch : Munch text (.ok piece)) :
    piece.text ≠ [] := by
  generalize found : Except.ok piece = result at munch
  cases munch with
  | unmatched => cases found
  | @pattern _ _ yielded _ _ wins _ =>
    cases yielded with
    | ok token => cases found; exact Pattern.ne_nil_of_mem wins.belongs
    | error fault => cases found
  | @string rest =>
    cases read : StringBody.decode rest with
    | ok decoded =>
      rw [read] at found
      cases found
      exact List.cons_ne_nil _ _
    | error fault =>
      rw [read] at found
      cases found

/-! ### Cutting a text -/

namespace Lexeme

/-- The text that pieces make up together. -/
def joined (pieces : List Lexeme) : List Char :=
  pieces.flatMap Lexeme.text

/-- The tokens of pieces. -/
def tokens (pieces : List Lexeme) : List Token :=
  pieces.filterMap fun piece => piece.content.token?

/-- The tokens of pieces, each at the place where its piece starts. -/
def placed (position : Position) : List Lexeme → List Placed
  | [] => []
  | piece :: pieces =>
    (piece.content.token?.map (Placed.mk · position)).toList ++ placed (position.after piece.text) pieces

@[simp] theorem joined_nil : joined [] = [] := rfl

@[simp] theorem joined_cons (piece : Lexeme) (pieces : List Lexeme) :
    joined (piece :: pieces) = piece.text ++ joined pieces := List.flatMap_cons

@[simp] theorem tokens_cons (piece : Lexeme) (pieces : List Lexeme) :
    tokens (piece :: pieces) = piece.content.token?.toList ++ tokens pieces := by
  unfold tokens
  rw [List.filterMap_cons]
  cases piece.content.token? <;> rfl

theorem tokens_placed (position : Position) (pieces : List Lexeme) :
    Placed.tokens (placed position pieces) = tokens pieces := by
  induction pieces generalizing position with
  | nil => rfl
  | cons piece pieces inductionHypothesis =>
    rw [tokens_cons, ← inductionHypothesis (position.after piece.text), placed]
    cases piece.content.token? <;> rfl

end Lexeme

/-- Each piece is read off what stands from its point on: the pieces behind it and what is left
at last. -/
def Munches : List Lexeme → List Char → Prop
  | [], _ => True
  | piece :: pieces, left =>
    Munch (piece.text ++ (Lexeme.joined pieces ++ left)) (.ok piece) ∧ Munches pieces left

/-- Pieces are cut off a text one by one, up to what is left of it. -/
structure Cut (text : List Char) (pieces : List Lexeme) (left : List Char) : Prop where
  whole : text = Lexeme.joined pieces ++ left
  munches : Munches pieces left

namespace Cut

variable {text left : List Char} {pieces : List Lexeme}

theorem nil : Cut text [] text :=
  ⟨rfl, trivial⟩

theorem cons {piece : Lexeme} {rest : List Char} (munch : Munch text (.ok piece))
    (split : text = piece.text ++ rest) (cut : Cut rest pieces left) :
    Cut text (piece :: pieces) left where
  whole := by rw [split, cut.whole, Lexeme.joined_cons, List.append_assoc]
  munches := ⟨by rwa [← cut.whole, ← split], cut.munches⟩

theorem text_ne_nil (cut : Cut text pieces left) : ∀ piece ∈ pieces, piece.text ≠ [] := by
  have munches := cut.munches
  clear cut
  induction pieces with
  | nil => exact nofun
  | cons piece pieces inductionHypothesis =>
    exact List.forall_mem_cons.mpr ⟨munches.1.text_ne_nil, inductionHypothesis munches.2⟩

/-- Two ways to cut a text are the same if both go on as long as there is a piece to be read. -/
theorem unique {otherPieces : List Lexeme} {otherLeft : List Char} (first : Cut text pieces left)
    (second : Cut text otherPieces otherLeft) (ended : ∀ piece, ¬ Munch left (.ok piece))
    (otherEnded : ∀ piece, ¬ Munch otherLeft (.ok piece)) :
    pieces = otherPieces ∧ left = otherLeft := by
  induction pieces generalizing text otherPieces with
  | nil =>
    match otherPieces with
    | [] => exact ⟨rfl, first.whole.symm.trans second.whole⟩
    | piece :: others =>
      have same := first.whole.symm.trans second.whole
      rw [Lexeme.joined_nil, List.nil_append, Lexeme.joined_cons, List.append_assoc] at same
      exact absurd (same ▸ second.munches.1) (ended piece)
  | cons piece pieces inductionHypothesis =>
    have same := first.whole.symm.trans second.whole
    rw [Lexeme.joined_cons, List.append_assoc] at same
    match otherPieces with
    | [] =>
      rw [Lexeme.joined_nil, List.nil_append] at same
      exact absurd (same ▸ first.munches.1) (otherEnded piece)
    | other :: others =>
      rw [Lexeme.joined_cons, List.append_assoc] at same
      have munch := first.munches.1
      rw [same] at munch
      cases munch.unique second.munches.1
      have behind := List.append_cancel_left same
      obtain ⟨rfl, rfl⟩ := inductionHypothesis ⟨rfl, first.munches.2⟩ ⟨behind, second.munches.2⟩
      exact ⟨rfl, rfl⟩

end Cut

/-! ### Scanning cuts -/

/-- A text is read piece by piece, up to its end or to a point where no piece can be read. -/
@[elab_as_elim]
theorem piece_induction {motive : List Char → Prop} (text : List Char) (empty : motive [])
    (stopped : ∀ character rest fault, atFront character rest = .error fault →
      motive (character :: rest))
    (onward : ∀ character rest piece, atFront character rest = .ok piece →
      motive ((character :: rest).drop piece.length) → motive (character :: rest)) :
    motive text := by
  match text with
  | [] => exact empty
  | character :: rest =>
    cases found : atFront character rest with
    | error fault => exact stopped character rest fault found
    | ok piece =>
      have filled := length_atFront character rest piece found
      exact onward character rest piece found (piece_induction _ empty stopped onward)
termination_by text.length
decreasing_by
  rw [List.length_drop, List.length_cons]
  omega

/-- Characters of a piece that has been read are passed. -/
theorem scanFrom_pending (pending : Nat) (position : Position) (read : List Placed)
    (text : List Char) :
    scanFrom pending position read text =
      scanFrom 0 (position.after (text.take pending)) read (text.drop pending) := by
  induction text generalizing pending position with
  | nil =>
    rw [List.take_nil, List.drop_nil]
    rfl
  | cons character rest inductionHypothesis =>
    cases pending with
    | zero => rfl
    | succ pending =>
      rw [scanFrom, inductionHypothesis]
      rfl

theorem scanFrom_error {character : Char} {rest : List Char} {fault : ParseFault}
    (position : Position) (read : List Placed) (found : atFront character rest = .error fault) :
    scanFrom 0 position read (character :: rest) = .error ⟨fault, position⟩ := by
  rw [scanFrom, found]

/-- One piece is read: its token is added at the place reached, and reading goes on behind it. -/
theorem scanFrom_piece {character : Char} {rest : List Char} {piece : Piece}
    (position : Position) (read : List Placed) (found : atFront character rest = .ok piece) :
    scanFrom 0 position read (character :: rest) =
      scanFrom 0 (position.after ((character :: rest).take piece.length))
        (((contentOf piece).token?.map (Placed.mk · position)).toList ++ read)
        ((character :: rest).drop piece.length) := by
  obtain ⟨length, width⟩ := Nat.exists_eq_succ_of_ne_zero
    (Nat.pos_iff_ne_zero.mp (length_atFront character rest piece found))
  rw [width, List.take_succ_cons, List.drop_succ_cons, Position.after_cons, ← scanFrom_pending]
  rw [scanFrom, found]
  cases piece with
  | token token pieceLength => cases width; rfl
  | layout kind pieceLength => cases width; rfl

/-- Scanning a text cuts it. The tokens read are those of the pieces, each at its place; at the
end of the text an end mark closes them, and where no piece can be read the fault is placed. -/
theorem scanFrom_cuts (position : Position) (read : List Placed) (text : List Char) :
    ∃ pieces left, Cut text pieces left ∧
      ((left = [] ∧ scanFrom 0 position read text = .ok (read.reverse ++
        (Lexeme.placed position pieces ++ [⟨.endOfInput, position.after text⟩]))) ∨
      ∃ fault, Munch left (.error fault) ∧
        scanFrom 0 position read text = .error ⟨fault, position.after (Lexeme.joined pieces)⟩) := by
  induction text using piece_induction generalizing position read with
  | empty => exact ⟨[], [], .nil, Or.inl ⟨rfl, by simp [scanFrom, Lexeme.placed]⟩⟩
  | stopped character rest fault found =>
    have munch := atFront_justified character rest
    rw [found] at munch
    exact ⟨[], _, .nil, Or.inr ⟨fault, munch, scanFrom_error position read found⟩⟩
  | onward character rest piece found inductionHypothesis =>
    have munch := atFront_justified character rest
    rw [found] at munch
    change Munch _ (.ok ⟨(character :: rest).take piece.length, contentOf piece⟩) at munch
    have split := List.take_append_drop piece.length (character :: rest)
    rw [scanFrom_piece position read found]
    generalize (character :: rest).take piece.length = front at *
    generalize (character :: rest).drop piece.length = back at *
    obtain ⟨pieces, left, cut, ended⟩ := inductionHypothesis (position.after front)
      (((contentOf piece).token?.map (Placed.mk · position)).toList ++ read)
    refine ⟨⟨front, contentOf piece⟩ :: pieces, left, cut.cons munch split.symm, ?_⟩
    have token : ((contentOf piece).token?.map (Placed.mk · position)).toList.reverse =
        ((contentOf piece).token?.map (Placed.mk · position)).toList := by
      cases (contentOf piece).token? <;> rfl
    rcases ended with ⟨done, scanned⟩ | ⟨fault, refused, scanned⟩
    · refine Or.inl ⟨done, ?_⟩
      rw [scanned, List.reverse_append, token, Lexeme.placed, ← split, Position.after_append]
      simp only [List.append_assoc]
    · refine Or.inr ⟨fault, refused, ?_⟩
      rw [scanned, Lexeme.joined_cons, Position.after_append]

/-! ### The whole text -/

theorem stream_cuts (source : String) :
    ∃ pieces left, Cut source.toList pieces left ∧
      ((left = [] ∧ Token.stream source = .ok (Lexeme.tokens pieces ++ [.endOfInput])) ∨
      ∃ fault, Munch left (.error fault) ∧ Token.stream source = .error fault) := by
  obtain ⟨pieces, left, cut, ended⟩ := scanFrom_cuts .start [] source.toList
  refine ⟨pieces, left, cut, ?_⟩
  unfold Token.stream Token.scan
  rcases ended with ⟨done, scanned⟩ | ⟨fault, refused, scanned⟩
  · refine Or.inl ⟨done, ?_⟩
    rw [scanned, ← Lexeme.tokens_placed .start pieces]
    simp [Placed.tokens]
  · refine Or.inr ⟨fault, refused, ?_⟩
    rw [scanned]

theorem Munch.ended {text : List Char} {fault : ParseFault} (munch : Munch text (.error fault)) :
    ∀ piece, ¬ Munch text (.ok piece) := by
  intro piece other
  cases munch.unique other

theorem mem_blockComment_iff_first {text : List Char} : text ∈ Pattern.blockComment.texts ↔
    ∃ inner, text = '/' :: '*' :: (inner ++ ['*', '/']) ∧ ¬ ['*', '/'] <:+: inner ++ ['*'] := by
  rw [Pattern.mem_blockComment]
  constructor
  · rintro ⟨body, rfl, closed⟩
    obtain ⟨inner, back, rfl, width, first⟩ := Pattern.commentTail?_eq_some_iff.mp closed
    have nothing : back = [] := by simpa using width
    rw [nothing]
    exact ⟨inner, rfl, first⟩
  · rintro ⟨inner, rfl, first⟩
    exact ⟨_, rfl, Pattern.commentTail?_eq_some_iff.mpr ⟨inner, [], rfl, by simp, first⟩⟩

/-- Tokens and faults of a text are those of its pieces. A text has one cut that goes on as long
as there is a piece to be read. Where it takes up the whole text, its tokens are those of the
text; where it stops before the end, there is the fault of the point it stops at. -/
theorem maximal_munch (source : String) :
    (∀ tokens, Token.stream source = .ok tokens ↔ ∃ pieces, Cut source.toList pieces [] ∧
      tokens = Lexeme.tokens pieces ++ [.endOfInput]) ∧
    (∀ fault, Token.stream source = .error fault ↔ ∃ pieces left, Cut source.toList pieces left ∧
      Munch left (.error fault)) ∧
    (∀ pieces left, Cut source.toList pieces left → ∀ piece ∈ pieces, piece.text ≠ []) ∧
    (∀ text, text ∈ Pattern.blockComment.texts ↔ ∃ inner,
      text = '/' :: '*' :: (inner ++ ['*', '/']) ∧ ¬ ['*', '/'] <:+: inner ++ ['*']) ∧
    (∀ rest, ¬ ['*', '/'] <:+: rest →
      ∀ comment ∈ Pattern.blockComment.texts, ¬ comment <+: '/' :: '*' :: rest) := by
  refine ⟨fun tokens => ⟨fun read => ?_, ?_⟩, fun fault => ⟨fun read => ?_, ?_⟩,
    fun pieces left cut => cut.text_ne_nil, ?_, ?_⟩
  · obtain ⟨pieces, left, cut, ⟨rfl, same⟩ | ⟨fault, -, same⟩⟩ := stream_cuts source
    · rw [same] at read
      cases read
      exact ⟨pieces, cut, rfl⟩
    · rw [same] at read
      cases read
  · rintro ⟨pieces, cut, rfl⟩
    obtain ⟨others, left, otherCut, ended⟩ := stream_cuts source
    rcases ended with ⟨rfl, same⟩ | ⟨fault, refused, -⟩
    · obtain ⟨rfl, -⟩ := cut.unique otherCut (fun _ => not_munch_nil) fun _ => not_munch_nil
      exact same
    · obtain ⟨-, rfl⟩ := cut.unique otherCut (fun _ => not_munch_nil) refused.ended
      exact absurd refused not_munch_nil
  · obtain ⟨pieces, left, cut, ⟨rfl, same⟩ | ⟨found, refused, same⟩⟩ := stream_cuts source
    · rw [same] at read
      cases read
    · rw [same] at read
      cases read
      exact ⟨pieces, left, cut, refused⟩
  · rintro ⟨pieces, left, cut, refused⟩
    obtain ⟨others, otherLeft, otherCut, ended⟩ := stream_cuts source
    rcases ended with ⟨rfl, -⟩ | ⟨found, otherRefused, same⟩
    · obtain ⟨-, rfl⟩ := cut.unique otherCut refused.ended fun _ => not_munch_nil
      exact absurd refused not_munch_nil
    · obtain ⟨-, rfl⟩ := cut.unique otherCut refused.ended otherRefused.ended
      cases refused.unique otherRefused
      exact same
  · exact fun text => mem_blockComment_iff_first
  · intro rest unclosed comment belongs within
    obtain ⟨_, -, same, closed⟩ := Pattern.blockComment_isPrefix belongs within
    cases same
    exact unclosed (Pattern.exists_commentTail?_iff.mp ⟨_, closed⟩)

theorem maximal_munch_unclosed :
    (∃ pieces, Cut "ifs/=/*".toList pieces [] ∧
      [.identifier "ifs", .symbol .slashAssign, .symbol .slash, .symbol .times, .endOfInput] =
        Lexeme.tokens pieces ++ [.endOfInput]) ∧
    ∃ pieces left, Cut "1 &".toList pieces left ∧ Munch left (.error (.invalidCharacter '&')) :=
  ⟨((maximal_munch "ifs/=/*").1 _).mp (by decide +kernel),
    ((maximal_munch "1 &").2.1 _).mp (by decide +kernel)⟩

end Scriptlet.Lexing
