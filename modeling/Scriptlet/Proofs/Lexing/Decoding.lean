/-
This file says what reading the body of a string literal comes to, for every text. Reading goes
past an encoding of a string at the front of the text and stops at what stands behind it: the
closing quote, an escape that stands for nothing, or a place from which the literal cannot be
closed any more. Every text can be split like this, and in one way only; so the split decides
what is read, or what is wrong, and how many bytes are taken up.
-/

import Scriptlet.Proofs.Lexing.LineMarks
import Scriptlet.Proofs.Lexing.Spelling

namespace Scriptlet.Lexing

open StringBody

/-! ### Borders of characters -/

theorem byteLength_eq_utf8ByteSize (text : List Char) :
    byteLength text = (String.ofList text).utf8ByteSize := by
  induction text with
  | nil => simp
  | cons character rest inductionHypothesis =>
    rw [byteLength_cons, inductionHypothesis, ← List.singleton_append, String.ofList_append,
      String.utf8ByteSize_append, ← String.singleton_eq_ofList, String.utf8ByteSize_singleton]

/-- Where a text ends is a border of characters in every text that goes on from there. -/
theorem isValid_byteLength (text rest : List Char) :
    (⟨byteLength text⟩ : String.Pos.Raw).IsValid (String.ofList (text ++ rest)) := by
  rw [String.ofList_append, byteLength_eq_utf8ByteSize]
  exact String.Pos.Raw.isValid_rawEndPos.append_right _

/-! ### Reading past an encoding -/

theorem mem_escapes_iff {escape character : Char} :
    (escape, character) ∈ escapes ↔ unescape? escape = some character := by
  refine ⟨unescape?_of_mem, fun stands => ?_⟩
  unfold unescape? at stands
  split at stands <;> cases stands <;> decide

theorem unescape?_eq_none_iff {escape : Char} :
    unescape? escape = none ↔ ∀ character, (escape, character) ∉ escapes := by
  simp only [mem_escapes_iff]
  exact Option.eq_none_iff_forall_ne_some

/-- Reading goes past an encoding at the front of a text: it yields the characters written there in
front of what it goes on with, and takes up their bytes. -/
theorem scanBody_append {value text : List Char} (encodes : Encodes value text)
    (rest : List Char) :
    decode (text ++ rest) = ((decode rest).map fun decoded =>
      ⟨value ++ decoded.value, decoded.length + text.length⟩) ∧
    consumed (text ++ rest) = byteLength text + consumed rest := by
  unfold decode consumed
  induction encodes with
  | nil =>
    refine ⟨(congrFun Except.map_id (scanBody rest).outcome).symm, ?_⟩
    simp
  | raw plain encodes inductionHypothesis =>
    rw [List.cons_append, scanBody_raw plain, Scanned.push]
    dsimp only
    rw [inductionHypothesis.1, inductionHypothesis.2, byteLength_cons, Nat.add_assoc]
    cases (scanBody rest).outcome with
    | error fault => exact ⟨rfl, rfl⟩
    | ok decoded => exact ⟨rfl, rfl⟩
  | escaped stands encodes inductionHypothesis =>
    rw [List.cons_append, List.cons_append, scanBody_escaped (unescape?_of_mem stands),
      Scanned.push]
    dsimp only
    rw [inductionHypothesis.1, inductionHypothesis.2, byteLength_cons, byteLength_cons,
      show Char.utf8Size '\\' = 1 by decide, Nat.add_assoc, Nat.add_assoc, Nat.add_assoc]
    cases (scanBody rest).outcome with
    | error fault => exact ⟨rfl, rfl⟩
    | ok decoded => exact ⟨rfl, rfl⟩

/-! ### Where reading stops -/

/-- What cannot stand in an encoding: a quote, an escape that stands for nothing, a line break, or a
text that leaves off before a character or behind a backslash. -/
inductive Ending : List Char → Prop where
  | quote (rest : List Char) : Ending ('"' :: rest)
  | unknown {escape : Char} (rest : List Char) :
    (∀ character, (escape, character) ∉ escapes) → Ending ('\\' :: escape :: rest)
  | lineBreak (rest : List Char) : Ending ('\n' :: rest)
  | backslash : Ending ['\\']
  | nothing : Ending []

/-- Every text is an encoding with such an ending. -/
theorem exists_ending (body : List Char) :
    ∃ value text ending, Encodes value text ∧ Ending ending ∧ body = text ++ ending := by
  fun_induction scanBody body with
  | case1 => exact ⟨[], [], [], .nil, .nothing, rfl⟩
  | case2 rest => exact ⟨[], [], _, .nil, .quote rest, rfl⟩
  | case3 rest => exact ⟨[], [], _, .nil, .lineBreak rest, rfl⟩
  | case4 => exact ⟨[], [], _, .nil, .backslash, rfl⟩
  | case5 escape rest unknown =>
    exact ⟨[], [], _, .nil, .unknown rest (unescape?_eq_none_iff.mp unknown), rfl⟩
  | case6 escape rest character stands inductionHypothesis =>
    obtain ⟨value, text, ending, encodes, ends, rfl⟩ := inductionHypothesis
    exact ⟨_, _, ending, .escaped (mem_escapes_iff.mpr stands) encodes, ends, rfl⟩
  | case7 character rest notQuote notBreak notLast notEscape inductionHypothesis =>
    have notSlash : character ≠ '\\' := by
      rintro rfl
      cases rest with
      | nil => exact notLast rfl rfl
      | cons escape rest => exact notEscape escape rest rfl rfl
    obtain ⟨value, text, ending, encodes, ends, rfl⟩ := inductionHypothesis
    exact ⟨_, _, ending, .raw ⟨notQuote, notSlash, notBreak⟩ encodes, ends, rfl⟩

/-! ### What is read -/

/-- The text is an encoding of a string, closed by a quote. -/
structure Closed (body value text rest : List Char) : Prop where
  encodes : Encodes value text
  split : body = text ++ '"' :: rest

/-- The text is an encoding of a string with an escape behind it that stands for nothing. -/
structure Broken (body text rest : List Char) (escape : Char) : Prop where
  encodes : ∃ value, Encodes value text
  unknown : ∀ character, (escape, character) ∉ escapes
  split : body = text ++ '\\' :: escape :: rest

theorem Closed.decode {body value text rest : List Char} (closed : Closed body value text rest) :
    decode body = .ok ⟨value, text.length + 1⟩ := by
  rw [closed.split]
  exact decode_encoded rest closed.encodes

theorem Closed.consumed {body value text rest : List Char} (closed : Closed body value text rest) :
    consumed body = byteLength text + 1 := by
  rw [closed.split, (scanBody_append closed.encodes _).2]
  rfl

theorem Broken.decode {body text rest : List Char} {escape : Char}
    (broken : Broken body text rest escape) : decode body = .error (.invalidEscape escape) := by
  obtain ⟨value, encodes⟩ := broken.encodes
  rw [broken.split, (scanBody_append encodes _).1, StringBody.decode,
    scanBody_unknown (unescape?_eq_none_iff.mpr broken.unknown)]
  rfl

/-- A text can be closed in one way only. -/
theorem Closed.unique {body value other text otherText rest otherRest : List Char}
    (closed : Closed body value text rest) (closedOther : Closed body other otherText otherRest) :
    value = other ∧ text = otherText ∧ rest = otherRest := by
  have same := closed.decode.symm.trans closedOther.decode
  injection same with same
  injection same with sameValue sameLength
  have split := closed.split.symm.trans closedOther.split
  obtain ⟨sameText, sameRest⟩ := List.append_inj split (Nat.succ_inj.mp sameLength)
  injection sameRest with _ sameRest
  exact ⟨sameValue, sameText, sameRest⟩

/-- Every text is of one of these kinds, or is not closed. -/
theorem decode_cases (body : List Char) :
    (∃ value text rest, Closed body value text rest) ∨
    (∃ escape text rest, Broken body text rest escape) ∨
    decode body = .error .unterminatedString := by
  obtain ⟨value, text, ending, encodes, ends, rfl⟩ := exists_ending body
  have unclosed (none : decode ending = .error .unterminatedString) :
      decode (text ++ ending) = .error .unterminatedString := by
    rw [(scanBody_append encodes _).1, none]
    rfl
  cases ends with
  | quote rest => exact .inl ⟨value, text, rest, encodes, rfl⟩
  | unknown rest unknown => exact .inr (.inl ⟨_, text, rest, ⟨value, encodes⟩, unknown, rfl⟩)
  | lineBreak rest => exact .inr (.inr (unclosed rfl))
  | backslash => exact .inr (.inr (unclosed rfl))
  | nothing => exact .inr (.inr (unclosed rfl))

theorem decode_ok_iff {body : List Char} {decoded : Decoded} :
    decode body = .ok decoded ↔
      ∃ text rest, Closed body decoded.value text rest ∧ decoded.length = text.length + 1 := by
  constructor
  · intro read
    rcases decode_cases body with ⟨value, text, rest, closed⟩ | ⟨_, _, _, broken⟩ | unclosed
    · cases closed.decode.symm.trans read
      exact ⟨text, rest, closed, rfl⟩
    · cases broken.decode.symm.trans read
    · cases unclosed.symm.trans read
  · rintro ⟨text, rest, closed, width⟩
    rw [closed.decode, ← width]

theorem decode_invalidEscape_iff {body : List Char} {escape : Char} :
    decode body = .error (.invalidEscape escape) ↔ ∃ text rest, Broken body text rest escape := by
  constructor
  · intro faulty
    rcases decode_cases body with ⟨_, _, _, closed⟩ | ⟨_, text, rest, broken⟩ | unclosed
    · cases closed.decode.symm.trans faulty
    · cases broken.decode.symm.trans faulty
      exact ⟨text, rest, broken⟩
    · cases unclosed.symm.trans faulty
  · rintro ⟨text, rest, broken⟩
    exact broken.decode

theorem decode_unterminated_iff {body : List Char} :
    decode body = .error .unterminatedString ↔
      (¬ ∃ value text rest, Closed body value text rest) ∧
        ¬ ∃ escape text rest, Broken body text rest escape := by
  constructor
  · intro unclosed
    constructor
    · rintro ⟨value, text, rest, closed⟩
      cases closed.decode.symm.trans unclosed
    · rintro ⟨escape, text, rest, broken⟩
      cases broken.decode.symm.trans unclosed
  · rintro ⟨notClosed, notBroken⟩
    exact ((decode_cases body).resolve_left notClosed).resolve_left notBroken

/-- What is taken up is the front of a text. -/
theorem exists_consumed (body : List Char) :
    ∃ front rest, body = front ++ rest ∧ consumed body = byteLength front := by
  obtain ⟨value, text, ending, encodes, ends, rfl⟩ := exists_ending body
  obtain ⟨front, rest, rfl, taken⟩ :
      ∃ front rest, ending = front ++ rest ∧ consumed ending = byteLength front := by
    cases ends with
    | quote rest => exact ⟨['"'], rest, rfl, rfl⟩
    | @unknown escape rest unknown =>
      refine ⟨['\\', escape], rest, rfl, ?_⟩
      rw [consumed, scanBody_unknown (unescape?_eq_none_iff.mpr unknown)]
      rfl
    | lineBreak rest => exact ⟨[], _, rfl, rfl⟩
    | backslash => exact ⟨['\\'], [], rfl, rfl⟩
    | nothing => exact ⟨[], [], rfl, rfl⟩
  refine ⟨text ++ front, rest, (List.append_assoc ..).symm, ?_⟩
  rw [(scanBody_append encodes _).2, taken, byteLength_append]

/-- Every text in which a string literal goes on behind its opening quote: it yields a string if it
is an encoding of this string with a closing quote behind it, which it is in one way at most, and
both are taken up; it has an unknown escape if it is an encoding with this escape behind it; and it
is not closed if it is neither. What is taken up is never more than there is, and ends at a border
of characters. -/
theorem string_decoded_exactly (body : List Char) :
    (∀ value length count, decode body = .ok ⟨value, length⟩ ∧ consumed body = count ↔
      ∃ text rest, Closed body value text rest ∧ length = text.length + 1 ∧
        count = byteLength text + 1) ∧
    (∀ value other text otherText rest otherRest, Closed body value text rest →
      Closed body other otherText otherRest →
        value = other ∧ text = otherText ∧ rest = otherRest) ∧
    (∀ escape, decode body = .error (.invalidEscape escape) ↔
      ∃ text rest, Broken body text rest escape) ∧
    (decode body = .error .unterminatedString ↔
      (¬ ∃ value text rest, Closed body value text rest) ∧
        ¬ ∃ escape text rest, Broken body text rest escape) ∧
    consumed body ≤ (String.ofList body).utf8ByteSize ∧
    (⟨consumed body⟩ : String.Pos.Raw).IsValid (String.ofList body) := by
  obtain ⟨front, back, split, taken⟩ := exists_consumed body
  have border : (⟨consumed body⟩ : String.Pos.Raw).IsValid (String.ofList body) := by
    rw [taken, split]
    exact isValid_byteLength front back
  refine ⟨fun value length count => ⟨?_, ?_⟩, fun _ _ _ _ _ _ => Closed.unique,
    fun escape => decode_invalidEscape_iff, decode_unterminated_iff, border.le_utf8ByteSize, border⟩
  · rintro ⟨read, rfl⟩
    obtain ⟨text, rest, closed, width⟩ := decode_ok_iff.mp read
    exact ⟨text, rest, closed, width, closed.consumed⟩
  · rintro ⟨text, rest, closed, rfl, rfl⟩
    exact ⟨closed.decode, closed.consumed⟩

/-- The text `é\"x" + 1`, in which the first quote is escaped: 4 characters and a closing quote,
which are 6 bytes, for a string of 3. -/
theorem string_decoded_exactly_escaped :
    Closed "é\\\"x\" + 1".toList ['é', '"', 'x'] ['é', '\\', '"', 'x'] " + 1".toList ∧
    decode "é\\\"x\" + 1".toList = .ok ⟨['é', '"', 'x'], 5⟩ ∧
    consumed "é\\\"x\" + 1".toList = 6 := by
  have encodes : Encodes ['é', '"', 'x'] ['é', '\\', '"', 'x'] :=
    .raw (by decide) (.escaped (by decide) (.raw (by decide) .nil))
  have closed : Closed "é\\\"x\" + 1".toList ['é', '"', 'x'] ['é', '\\', '"', 'x']
      " + 1".toList := ⟨encodes, by decide⟩
  exact ⟨closed, (string_decoded_exactly "é\\\"x\" + 1".toList).1 _ _ _ |>.mpr
    ⟨_, _, closed, rfl, by decide⟩⟩

end Scriptlet.Lexing
