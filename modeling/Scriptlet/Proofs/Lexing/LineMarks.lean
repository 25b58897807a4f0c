/-
This file finds places in the encoded text. A line mark holds the row a reading has come to
and the byte its line starts at; line breaks move it, and so do comments that go over several
lines. The column of a byte is the number of characters between the start of the line and
this byte, if these characters can be cut out of the encoded text at all: both bytes have to
be borders of characters, in the right order. For the marks a reading comes to they always
are, so what is taken for the column where they are not has no effect.
-/

import Scriptlet.Proofs.Lexing.Positions

namespace Scriptlet.Lexing

open Token

/-! ### Bytes -/

/-- The number of bytes a text is encoded in. -/
def byteLength : List Char → Nat
  | [] => 0
  | character :: rest => character.utf8Size + byteLength rest

@[simp] theorem byteLength_nil : byteLength [] = 0 := rfl

@[simp] theorem byteLength_cons (character : Char) (rest : List Char) :
    byteLength (character :: rest) = character.utf8Size + byteLength rest := rfl

@[simp] theorem byteLength_append (front back : List Char) :
    byteLength (front ++ back) = byteLength front + byteLength back := by
  induction front with
  | nil => simp
  | cons character rest inductionHypothesis => simp [inductionHypothesis, Nat.add_assoc]

/-- A text cut in two at a byte, if it is long enough and the byte is not inside a character. -/
def splitAtByte? : List Char → Nat → Option (List Char × List Char)
  | text, 0 => some ([], text)
  | [], _ + 1 => none
  | character :: rest, offset + 1 =>
    if character.utf8Size ≤ offset + 1 then
      (splitAtByte? rest (offset + 1 - character.utf8Size)).map fun (front, back) =>
        (character :: front, back)
    else none

/-- The characters from a byte up to another one, if both bytes are borders of characters and in
this order. -/
def slice? (text : List Char) (first last : Nat) : Option (List Char) := do
  guard (first ≤ last)
  let (_, behind) ← splitAtByte? text first
  let (between, _) ← splitAtByte? behind (last - first)
  return between

theorem splitAtByte?_append (front back : List Char) :
    splitAtByte? (front ++ back) (byteLength front) = some (front, back) := by
  induction front with
  | nil => cases back <;> rfl
  | cons character rest inductionHypothesis =>
    obtain ⟨size, positive⟩ := Nat.exists_eq_succ_of_ne_zero
      (Nat.pos_iff_ne_zero.mp character.utf8Size_pos)
    rw [List.cons_append, byteLength_cons, positive, Nat.succ_add, splitAtByte?, positive,
      if_pos (Nat.succ_le_succ (Nat.le_add_right _ _))]
    rw [show size + byteLength rest + 1 - size.succ = byteLength rest by omega, inductionHypothesis]
    rfl

theorem slice?_append (before between behind : List Char) :
    slice? (before ++ between ++ behind) (byteLength before) (byteLength (before ++ between)) =
      some between := by
  unfold slice?
  rw [List.append_assoc, splitAtByte?_append, byteLength_append, Nat.add_sub_cancel_left]
  simp [splitAtByte?_append, guard]

/-- The byte of the last line break of a text. -/
def lastBreak? : List Char → Option Nat
  | [] => none
  | character :: rest =>
    match lastBreak? rest with
    | some offset => some (character.utf8Size + offset)
    | none => if character = '\n' then some 0 else none

/-- The last line break has no other one behind it. -/
theorem lastBreak?_spec (text : List Char) :
    (lastBreak? text = none ∧ '\n' ∉ text) ∨
      ∃ front line, text = front ++ '\n' :: line ∧ '\n' ∉ line ∧
        lastBreak? text = some (byteLength front) := by
  induction text with
  | nil => exact Or.inl ⟨rfl, List.not_mem_nil⟩
  | cons character rest inductionHypothesis =>
    rw [lastBreak?]
    rcases inductionHypothesis with ⟨found, inline⟩ | ⟨front, line, rfl, inline, found⟩
    · rw [found]
      by_cases isBreak : character = '\n'
      · exact Or.inr ⟨[], rest, by rw [isBreak]; rfl, inline, if_pos isBreak⟩
      · refine Or.inl ⟨if_neg isBreak, ?_⟩
        rw [List.mem_cons, not_or]
        exact ⟨Ne.symm isBreak, inline⟩
    · exact Or.inr ⟨character :: front, line, rfl, inline, by rw [found, byteLength_cons]⟩

/-! ### Line marks -/

/-- The line a reading has come to: its row and the byte it starts at. -/
structure LineMark where
  row : Nat
  start : Nat
deriving DecidableEq

namespace LineMark

/-- The mark a reading starts with. -/
def initial : LineMark := ⟨1, 0⟩

/-- The mark behind a piece that starts at a byte. Only line breaks and comments move it. -/
def past (mark : LineMark) (offset : Nat) (piece : Lexeme) : LineMark :=
  match piece.content with
  | .layout .newLine => ⟨mark.row + 1, offset + byteLength piece.text⟩
  | .layout .blockComment =>
    match lastBreak? piece.text with
    | some last => ⟨mark.row + piece.text.count '\n', offset + last + 1⟩
    | none => mark
  | _ => mark

/-- The place of a byte, if the characters of its line before it can be cut out. -/
def position? (text : List Char) (mark : LineMark) (offset : Nat) : Option Position :=
  (slice? text mark.start offset).map fun line => ⟨mark.row, line.length + 1⟩

/-- The place of a byte, whatever the mark: a line never starts behind the byte, and characters
that cannot be cut out are none. -/
def position (text : List Char) (mark : LineMark) (offset : Nat) : Position :=
  ⟨mark.row, ((slice? text (min mark.start offset) offset).elim 0 List.length) + 1⟩

/-- The mark that belongs to the point behind a text. -/
def behind (text : List Char) : LineMark :=
  ⟨1 + text.count '\n', byteLength (pastLines text)⟩

/-- A mark that belongs to a point yields its place. -/
theorem position?_behind (before rest : List Char) :
    (behind before).position? (before ++ rest) (byteLength before) = some (placeBehind before) := by
  have cut := slice?_append (pastLines before) (lastLine before) rest
  rw [pastLines_append_lastLine] at cut
  rw [position?, behind, cut, Option.map_some, placeBehind, Nat.add_comm 1 (lastLine before).length]

/-- Where a place is found without it, the fallback has no effect. -/
theorem position_of_position? {text : List Char} {mark : LineMark} {offset : Nat}
    {place : Position} (found : mark.position? text offset = some place) :
    mark.position text offset = place := by
  obtain ⟨line, cut, rfl⟩ := Option.map_eq_some_iff.mp found
  have ordered : mark.start ≤ offset := by
    by_contra disordered
    simp [slice?, guard, disordered] at cut
  rw [position, Nat.min_eq_left ordered, cut]
  rfl

theorem behind_append_inline {line : List Char} (text : List Char) (inline : '\n' ∉ line) :
    behind (text ++ line) = behind text := by
  rw [behind, pastLines_append_inline text inline, List.count_append, List.count_eq_zero.mpr inline]
  rfl

theorem behind_append_lines {line : List Char} (text front : List Char) (inline : '\n' ∉ line) :
    behind (text ++ (front ++ '\n' :: line)) =
      ⟨1 + text.count '\n' + (front ++ '\n' :: line).count '\n',
        byteLength text + byteLength front + 1⟩ := by
  have split : text ++ (front ++ '\n' :: line) = (text ++ front ++ ['\n']) ++ line := by simp
  have size : Char.utf8Size '\n' = 1 := by decide
  rw [behind, List.count_append, Nat.add_assoc, split, pastLines_append_inline _ inline,
    pastLines_concat_newline]
  simp [size, Nat.add_assoc]

end LineMark

/-! ### Line breaks within pieces -/

/-- Line breaks are in no piece but a line break and a comment between slash-stars. -/
def Lexeme.BreaksKnown (piece : Lexeme) : Prop :=
  match piece.content with
  | .layout .newLine => piece.text = ['\n']
  | .layout .blockComment => True
  | _ => '\n' ∉ piece.text

theorem newline_notMem_decode {text : List Char} {decoded : StringBody.Decoded}
    (read : StringBody.decode text = .ok decoded) : '\n' ∉ text.take decoded.length := by
  have pushed {rest : List Char} {character : Char} {width : Nat} {decoded : StringBody.Decoded}
      (read : (StringBody.decode rest).map (·.push character width) = .ok decoded) :
      ∃ later, StringBody.decode rest = .ok later ∧ decoded.length = later.length + width := by
    cases body : StringBody.decode rest with
    | ok later =>
      rw [body] at read
      cases read
      exact ⟨later, rfl, rfl⟩
    | error fault =>
      rw [body] at read
      cases read
  rw [StringBody.decode] at read
  fun_induction StringBody.scanBody text generalizing decoded with
  | case1 | case3 | case4 | case5 => cases read
  | case2 rest =>
    cases read
    simp
  | case6 escape rest character same inductionHypothesis =>
    obtain ⟨later, body, width⟩ := pushed read
    have proper : escape ≠ '\n' := by
      rintro rfl
      cases same
    rw [width]
    simpa [proper.symm] using inductionHypothesis body
  | case7 character rest notQuote notBreak _ _ inductionHypothesis =>
    obtain ⟨later, body, width⟩ := pushed read
    rw [width]
    simpa [Ne.symm notBreak] using inductionHypothesis body

theorem Pattern.newline_notMem {pattern : Pattern} {text : List Char}
    (belongs : text ∈ pattern.texts) (notBreak : pattern ≠ newLine)
    (notComment : pattern ≠ blockComment) : '\n' ∉ text := by
  by_cases isToken : pattern.isToken = true
  · exact gap_notMem (by decide) belongs isToken
  rcases eq_layout (Bool.eq_false_of_not_eq_true isToken) with rfl | rfl | rfl | rfl
  · obtain ⟨comment, rfl, inline⟩ := mem_lineComment.mp belongs
    have inComment : '\n' ∉ comment := fun member => absurd (inline _ member) (by decide)
    simpa using inComment
  · exact absurd rfl notComment
  · exact fun member => absurd ((mem_blanks.mp belongs).2 _ member) (by decide)
  · exact absurd rfl notBreak

theorem Munch.breaksKnown {text : List Char} {piece : Lexeme} (munch : Munch text (.ok piece)) :
    piece.BreaksKnown := by
  generalize found : Except.ok piece = result at munch
  cases munch with
  | unmatched => cases found
  | @pattern text _ result pattern _ wins yields =>
    cases result with
    | error fault => cases found
    | ok content =>
      cases found
      have inline := Pattern.newline_notMem wins.belongs
      match pattern with
      | .newLine => cases yields; exact wins.belongs
      | .blockComment => cases yields; trivial
      | .truth _ | .keyword _ | .symbol _ | .identifier | .lineComment | .blanks =>
        cases yields
        exact inline nofun nofun
      | .integer =>
        rcases yields with ⟨number, -, same⟩ | ⟨-, same⟩
        · cases same
          exact inline nofun nofun
        · cases same
      | .decimal =>
        obtain ⟨whole, -, fraction, -, same⟩ := yields
        cases same
        exact inline nofun nofun
  | @string rest =>
    cases read : StringBody.decode rest with
    | error fault =>
      rw [read] at found
      cases found
    | ok decoded =>
      rw [read] at found
      cases found
      show '\n' ∉ '"' :: rest.take decoded.length
      simpa using newline_notMem_decode read

/-- The mark that belongs to a point is moved to the one that belongs to the point behind a
piece. -/
theorem LineMark.past_behind {piece : Lexeme} (before : List Char) (known : piece.BreaksKnown) :
    (behind before).past (byteLength before) piece = behind (before ++ piece.text) := by
  unfold Lexeme.BreaksKnown at known
  unfold past
  split at known
  · have lines := behind_append_lines before [] (List.not_mem_nil (a := '\n'))
    rw [List.nil_append] at lines
    rw [known, lines]
    rfl
  · rcases lastBreak?_spec piece.text with ⟨found, inline⟩ | ⟨front, line, lines, inline, found⟩
    · rw [found, behind_append_inline before inline]
    · rw [found, lines, behind_append_lines before front inline]
      rfl
  · rw [behind_append_inline before known]

/-! ### Reading with line marks -/

/-- Reads a text and places tokens by line marks and bytes. -/
def scanMarked (place : LineMark → Nat → Position) (pending : Nat) (mark : LineMark) (offset : Nat)
    (read : List Placed) : List Char → Except ParseError (List Placed)
  | [] => .ok (⟨.endOfInput, place mark offset⟩ :: read).reverse
  | character :: rest =>
    match pending with
    | pending + 1 => scanMarked place pending mark (offset + character.utf8Size) read rest
    | 0 =>
      match atFront character rest with
      | .error fault => .error ⟨fault, place mark offset⟩
      | .ok piece =>
        scanMarked place (piece.length - 1)
          (mark.past offset ⟨(character :: rest).take piece.length, contentOf piece⟩)
          (offset + character.utf8Size)
          (((contentOf piece).token?.map (Placed.mk · (place mark offset))).toList ++ read) rest

theorem scanMarked_pending (place : LineMark → Nat → Position) (pending : Nat) (mark : LineMark)
    (offset : Nat) (read : List Placed) (text : List Char) :
    scanMarked place pending mark offset read text =
      scanMarked place 0 mark (offset + byteLength (text.take pending)) read (text.drop pending) := by
  induction text generalizing pending offset with
  | nil =>
    rw [List.take_nil, List.drop_nil]
    rfl
  | cons character rest inductionHypothesis =>
    cases pending with
    | zero => rfl
    | succ pending =>
      rw [scanMarked, inductionHypothesis, List.take_succ_cons, List.drop_succ_cons,
        byteLength_cons, Nat.add_assoc]

theorem scanMarked_piece {character : Char} {rest : List Char} {piece : Piece}
    (place : LineMark → Nat → Position) (mark : LineMark) (offset : Nat) (read : List Placed)
    (found : atFront character rest = .ok piece) :
    scanMarked place 0 mark offset read (character :: rest) =
      scanMarked place 0
        (mark.past offset ⟨(character :: rest).take piece.length, contentOf piece⟩)
        (offset + byteLength ((character :: rest).take piece.length))
        (((contentOf piece).token?.map (Placed.mk · (place mark offset))).toList ++ read)
        ((character :: rest).drop piece.length) := by
  obtain ⟨length, width⟩ := Nat.exists_eq_succ_of_ne_zero
    (Nat.pos_iff_ne_zero.mp (length_atFront character rest piece found))
  rw [scanMarked, found]
  simp only [width, Nat.succ_sub_one]
  rw [scanMarked_pending, List.take_succ_cons, List.drop_succ_cons, byteLength_cons, Nat.add_assoc]

/-- Reading with line marks gives every token its place, if places are right for the marks that
belong to a point of the text. -/
theorem scanMarked_eq_scanFrom {place : LineMark → Nat → Position} {source : List Char}
    (right : ∀ mark offset position, mark.position? source offset = some position →
      place mark offset = position) (before text : List Char) (read : List Placed)
    (split : source = before ++ text) :
    scanMarked place 0 (.behind before) (byteLength before) read text =
      scanFrom 0 (placeBehind before) read text := by
  have reached {before text : List Char} (split : source = before ++ text) :
      place (.behind before) (byteLength before) = placeBehind before := by
    refine right _ _ _ ?_
    rw [split]
    exact LineMark.position?_behind before text
  induction text using piece_induction generalizing before read with
  | empty => rw [scanMarked, scanFrom, reached split]
  | stopped character rest fault found =>
    rw [scanFrom_error _ _ found, scanMarked, found, ← reached split]
  | onward character rest piece found inductionHypothesis =>
    have munch := atFront_justified character rest
    rw [found] at munch
    rw [scanMarked_piece _ _ _ _ found, scanFrom_piece _ _ found,
      LineMark.past_behind before (Munch.breaksKnown munch), ← byteLength_append, reached split,
      placeBehind_after]
    refine inductionHypothesis _ _ ?_
    rw [List.append_assoc, List.take_append_drop, split]

/-! ### Places of a text -/

/-- Tokens and faults stand at exact places: the row counts the line breaks before them, the
column the characters since the last one. Places go forward from token to token. Reading with
line marks finds the same places, and no answer for marks that belong to no point of the text
could change one of them. -/
theorem places_exact (source : String) :
    (∀ tokens, scan source = .ok tokens → ∃ pieces, Cut source.toList pieces [] ∧
      tokens = Lexeme.located [] pieces ++ [⟨.endOfInput, placeBehind source.toList⟩]) ∧
    (∀ error, scan source = .error error → ∃ pieces left, Cut source.toList pieces left ∧
      Munch left (.error error.fault) ∧ error.position = placeBehind (Lexeme.joined pieces)) ∧
    (∀ tokens, scan source = .ok tokens →
      tokens.Pairwise fun first second => first.position.Precedes second.position) ∧
    scanMarked (LineMark.position source.toList) 0 .initial 0 [] source.toList = scan source ∧
    (∀ place : LineMark → Nat → Position,
      (∀ mark offset position, mark.position? source.toList offset = some position →
        place mark offset = position) →
      scanMarked place 0 .initial 0 [] source.toList = scan source) := by
  have marked (place : LineMark → Nat → Position) (right : ∀ mark offset position,
      mark.position? source.toList offset = some position → place mark offset = position) :
      scanMarked place 0 .initial 0 [] source.toList = scan source :=
    scanMarked_eq_scanFrom right [] source.toList [] rfl
  refine ⟨fun tokens scanned => ?_, fun error scanned => ?_, fun tokens => scan_ascending,
    marked _ fun mark offset position => LineMark.position_of_position?, marked⟩
  · obtain ⟨pieces, left, cut, ⟨rfl, same⟩ | ⟨_, -, same⟩⟩ := scan_located source
    · cases scanned.symm.trans same
      exact ⟨pieces, cut, rfl⟩
    · cases scanned.symm.trans same
  · obtain ⟨pieces, left, cut, ⟨rfl, same⟩ | ⟨fault, refused, same⟩⟩ := scan_located source
    · cases scanned.symm.trans same
    · cases scanned.symm.trans same
      exact ⟨pieces, left, cut, refused, rfl⟩

theorem places_exact_commented :
    ∃ pieces, Cut "/*é\n*/x".toList pieces [] ∧
      [⟨.identifier "x", ⟨2, 3⟩⟩, ⟨.endOfInput, ⟨2, 4⟩⟩] =
        Lexeme.located [] pieces ++ [⟨.endOfInput, placeBehind "/*é\n*/x".toList⟩] :=
  (places_exact "/*é\n*/x").1 _ (by rfl)

end Scriptlet.Lexing
