/-
This file proves that what is read off the front of a text is the longest piece there. Each
kind of first character is settled by itself: words and numbers are runs of characters of one
class, symbols are tried in the order of their lengths, and a comment is one only if it is
closed.
-/

import Mathlib.Data.List.TakeWhile
import Scriptlet.Proofs.Lexing.Pieces

namespace Scriptlet.Lexing

open Token

/-! ### Fronts -/

/-- What is found at the front of a text is what the patterns have there. -/
def Justified (text : List Char) (found : Except ParseFault Piece) : Prop :=
  Munch text (found.map fun piece => ⟨text.take piece.length, contentOf piece⟩)

theorem Pattern.Wins.justified {pattern : Pattern} {text front back : List Char} {piece : Piece}
    (wins : pattern.Wins front back) (split : text = front ++ back)
    (yields : pattern.Yields front (.ok (contentOf piece))) (width : front.length = piece.length) :
    Justified text (.ok piece) := by
  have munch := Munch.pattern wins.unquoted wins yields
  have taken : text.take piece.length = front := by rw [split, ← width, List.take_left]
  rw [Justified, Except.map, taken, split]
  exact munch

/-- A run of characters that starts a text is within the longest such run. -/
theorem isPrefix_takeWhile {property : Char → Bool} {front text : List Char}
    (within : front <+: text) (each : ∀ character ∈ front, property character = true) :
    front <+: text.takeWhile property := by
  obtain ⟨rest, rfl⟩ := within
  rw [List.takeWhile_append_of_pos each]
  exact List.prefix_append _ _

/-! ### Words -/

theorem ofWord_of_reserved {token : Token} {word : String} (spelled : token.reserved? = some word) :
    ofWord word = token := by
  match token with
  | .keyword reserved =>
    cases spelled
    cases reserved <;> rfl
  | .bool true | .bool false =>
    cases spelled
    rfl

/-- A word is a reserved one, or it is a name. -/
theorem reserved_or_identifier (word : String) :
    (ofWord word).reserved? = some word ∨ ofWord word = .identifier word := by
  unfold ofWord
  split
  · rename_i same
    exact Or.inl (congrArg some (beq_iff_eq.mp same).symm)
  split
  · rename_i same
    exact Or.inl (congrArg some (beq_iff_eq.mp same).symm)
  split
  · rename_i keyword found
    have same := List.find?_some found
    exact Or.inl (congrArg some (beq_iff_eq.mp same))
  · exact Or.inr rfl

namespace Pattern

theorem exists_reserved {token : Token} {word : String} (spelled : token.reserved? = some word) :
    ∃ pattern : Pattern, pattern.reserved? = some token := by
  match token with
  | .keyword reserved => exact ⟨keyword reserved, rfl⟩
  | .bool value => exact ⟨truth value, rfl⟩

theorem yields_reserved {pattern : Pattern} {text : List Char} {token : Token}
    (same : pattern.reserved? = some token) : pattern.Yields text (.ok (.token token)) := by
  rcases reserved?_cases same with ⟨value, rfl, rfl⟩ | ⟨word, rfl, rfl⟩
  · rfl
  · rfl

theorem reserved?_injective {first second : Pattern} {token : Token}
    (isFirst : first.reserved? = some token) (isSecond : second.reserved? = some token) :
    first = second := by
  rcases reserved?_cases isFirst with ⟨value, rfl, rfl⟩ | ⟨word, rfl, rfl⟩
  · obtain ⟨_, rfl, same⟩ | ⟨_, -, impossible⟩ := reserved?_cases isSecond
    · rw [Token.bool.inj same]
    · cases impossible
  · obtain ⟨_, -, impossible⟩ | ⟨_, rfl, same⟩ := reserved?_cases isSecond
    · cases impossible
    · rw [Token.keyword.inj same]

end Pattern

/-- A word is read up to the first character that cannot stand in one. -/
theorem justified_word {character : Char} (rest : List Char) (starts : startsName character = true) :
    Justified (character :: rest)
      (.ok (.token (ofWord (String.ofList (character :: rest.takeWhile continuesName)))
        (character :: rest.takeWhile continuesName).length)) := by
  generalize isWord : character :: rest.takeWhile continuesName = word
  have split : character :: rest = word ++ rest.dropWhile continuesName := by
    rw [← isWord, List.cons_append, List.takeWhile_append_dropWhile]
  have within : word <+: character :: rest := by
    rw [split]
    exact List.prefix_append _ _
  have named : word ∈ Pattern.identifier.texts :=
    Pattern.mem_identifier.mpr ⟨character, _, isWord.symm, starts, fun _ => List.mem_takeWhile_imp⟩
  have ofKind {other : Pattern} {front : List Char} (belongs : front ∈ other.texts)
      (within : front <+: character :: rest) :
      other = .identifier ∨ ∃ token, other.reserved? = some token :=
    Pattern.eq_identifier_or_reserved ((Pattern.kind_of_isPrefix belongs within).trans (if_pos starts))
  have longest (other : Pattern) (front : List Char) (belongs : front ∈ other.texts)
      (within : front <+: word ++ rest.dropWhile continuesName) : front.length ≤ word.length := by
    rw [← split] at within
    have isName : front ∈ Pattern.identifier.texts := by
      rcases ofKind belongs within with rfl | ⟨token, reserved⟩
      · exact belongs
      · exact Pattern.mem_identifier_of_reserved (by rw [reserved]; rfl) belongs
    obtain ⟨first, more, rfl, -, continues⟩ := Pattern.mem_identifier.mp isName
    obtain ⟨-, within⟩ := List.cons_prefix_cons.mp within
    rw [← isWord]
    exact Nat.succ_le_succ (isPrefix_takeWhile within continues).length_le
  rcases reserved_or_identifier (String.ofList word) with reserved | isName
  · obtain ⟨pattern, same⟩ := Pattern.exists_reserved reserved
    have wins : pattern.Wins word (rest.dropWhile continuesName) := by
      refine ⟨(Pattern.mem_reserved_iff same).mpr reserved, longest, fun other belongs => ?_⟩
      rcases ofKind belongs within with rfl | ⟨token, otherReserved⟩
      · exact Or.inr ⟨rfl, by rw [same]; rfl⟩
      · have spelled := (Pattern.mem_reserved_iff otherReserved).mp belongs
        rw [← ofWord_of_reserved spelled] at otherReserved
        exact Or.inl (Pattern.reserved?_injective otherReserved same)
    exact wins.justified split (Pattern.yields_reserved same) rfl
  · have wins : Pattern.identifier.Wins word (rest.dropWhile continuesName) := by
      refine ⟨named, longest, fun other belongs => ?_⟩
      rcases ofKind belongs within with rfl | ⟨token, otherReserved⟩
      · exact Or.inl rfl
      · have spelled := (Pattern.mem_reserved_iff otherReserved).mp belongs
        rw [← ofWord_of_reserved spelled, isName] at spelled
        cases spelled
    rw [isName]
    exact wins.justified split rfl rfl

/-! ### Numbers -/

namespace Pattern

theorem yields_ofDigits (digits : List Char) :
    integer.Yields digits ((ofDigits digits).map .token) := by
  unfold ofDigits
  split
  · rename_i fits
    exact Or.inl ⟨_, Int64.toInt_ofNat_of_lt (Nat.lt_succ_of_le fits), rfl⟩
  · rename_i large
    exact Or.inr ⟨Nat.lt_of_not_le large, rfl⟩

end Pattern

/-- A point with digits before it stands where the digits end. -/
theorem pointed_isPrefix {whole fraction text : List Char}
    (digits : ∀ character ∈ whole, character.isDigit = true)
    (within : whole ++ '.' :: fraction <+: text) :
    text.takeWhile Char.isDigit = whole ∧ '.' :: fraction <+: text.dropWhile Char.isDigit := by
  obtain ⟨rest, rfl⟩ := within
  rw [List.append_assoc, List.takeWhile_append_of_pos digits, List.dropWhile_append_of_pos digits]
  exact ⟨by simp, List.prefix_append _ _⟩

section Number

variable {text : List Char}

theorem decimal_not_isPrefix (noFraction : ∀ more, text.dropWhile Char.isDigit = '.' :: more →
    more.takeWhile Char.isDigit = []) : ∀ front ∈ Pattern.decimal.texts, ¬ front <+: text := by
  intro front belongs within
  obtain ⟨whole, isWhole, fraction, isFraction, rfl⟩ := Pattern.mem_decimal.mp belongs
  obtain ⟨-, rest, behind⟩ := pointed_isPrefix (Pattern.mem_integer.mp isWhole).2 within
  obtain ⟨fractional, digits⟩ := Pattern.mem_integer.mp isFraction
  have nothing := noFraction (fraction ++ rest) behind.symm
  rw [List.takeWhile_append_of_pos digits] at nothing
  exact fractional (List.append_eq_nil_iff.mp nothing).1

theorem integer_wins (filled : text.takeWhile Char.isDigit ≠ [])
    (numeric : ∀ (other : Pattern) (front : List Char), front ∈ other.texts → front <+: text →
      other = .integer ∨ other = .decimal)
    (noFraction : ∀ front ∈ Pattern.decimal.texts, ¬ front <+: text) :
    Pattern.integer.Wins (text.takeWhile Char.isDigit) (text.dropWhile Char.isDigit) where
  belongs := Pattern.mem_integer.mpr ⟨filled, fun _ => List.mem_takeWhile_imp⟩
  longest other front belongs within := by
    rw [List.takeWhile_append_dropWhile] at within
    rcases numeric other front belongs within with rfl | rfl
    · exact (isPrefix_takeWhile within (Pattern.mem_integer.mp belongs).2).length_le
    · exact absurd within (noFraction front belongs)
  preferred other belongs := by
    rcases numeric other _ belongs (List.takeWhile_prefix _) with rfl | rfl
    · exact Or.inl rfl
    · exact absurd (List.takeWhile_prefix _) (noFraction _ belongs)

theorem decimal_split {more : List Char} (pointed : text.dropWhile Char.isDigit = '.' :: more) :
    text = text.takeWhile Char.isDigit ++ '.' :: more.takeWhile Char.isDigit ++
      more.dropWhile Char.isDigit := by
  rw [List.append_assoc, List.cons_append, List.takeWhile_append_dropWhile, ← pointed,
    List.takeWhile_append_dropWhile]

theorem decimal_wins {more : List Char} (filled : text.takeWhile Char.isDigit ≠ [])
    (numeric : ∀ (other : Pattern) (front : List Char), front ∈ other.texts → front <+: text →
      other = .integer ∨ other = .decimal)
    (pointed : text.dropWhile Char.isDigit = '.' :: more)
    (fractional : more.takeWhile Char.isDigit ≠ []) :
    Pattern.decimal.Wins (text.takeWhile Char.isDigit ++ '.' :: more.takeWhile Char.isDigit)
      (more.dropWhile Char.isDigit) := by
  refine ⟨Pattern.mem_decimal.mpr ⟨_, Pattern.mem_integer.mpr ⟨filled, fun _ =>
    List.mem_takeWhile_imp⟩, _, Pattern.mem_integer.mpr ⟨fractional, fun _ =>
    List.mem_takeWhile_imp⟩, rfl⟩, fun other front belongs within => ?_, fun other belongs => ?_⟩
  · rw [← decimal_split pointed] at within
    rw [List.length_append, List.length_cons]
    rcases numeric other front belongs within with rfl | rfl
    · have shorter := (isPrefix_takeWhile within (Pattern.mem_integer.mp belongs).2).length_le
      omega
    · obtain ⟨whole, isWhole, fraction, isFraction, rfl⟩ := Pattern.mem_decimal.mp belongs
      obtain ⟨sameWhole, behind⟩ := pointed_isPrefix (Pattern.mem_integer.mp isWhole).2 within
      rw [pointed, List.cons_prefix_cons] at behind
      have shorter := (isPrefix_takeWhile behind.2 (Pattern.mem_integer.mp isFraction).2).length_le
      rw [sameWhole, List.length_append, List.length_cons]
      omega
  · have within : text.takeWhile Char.isDigit ++ '.' :: more.takeWhile Char.isDigit <+: text :=
      ⟨_, (decimal_split pointed).symm⟩
    rcases numeric other _ belongs within with rfl | rfl
    · have digit := (Pattern.mem_integer.mp belongs).2 '.' (by simp)
      exact absurd digit (by decide)
    · exact Or.inl rfl

end Number

/-- The number at a front has a point if digits stand on both sides of one. -/
theorem justified_number {character : Char} (rest : List Char)
    (digit : character.isDigit = true) :
    Justified (character :: rest) (numberAtFront (character :: rest)) := by
  have notWord : ¬ startsName character = true := by simp [Pattern.startsName_of_isDigit digit]
  have isKind : Kind.of character = .number := by rw [Kind.of, if_neg notWord, if_pos digit]
  have numeric (other : Pattern) (front : List Char) (belongs : front ∈ other.texts)
      (within : front <+: character :: rest) : other = .integer ∨ other = .decimal :=
    Pattern.eq_integer_or_decimal ((Pattern.kind_of_isPrefix belongs within).trans isKind)
  have filled : (character :: rest).takeWhile Char.isDigit ≠ [] := by simp [digit]
  unfold numberAtFront
  generalize character :: rest = text at *
  have whole (noFraction : ∀ more, text.dropWhile Char.isDigit = '.' :: more →
      more.takeWhile Char.isDigit = []) :
      Justified text ((ofDigits (text.takeWhile Char.isDigit)).map
        (Piece.token · (text.takeWhile Char.isDigit).length)) := by
    have wins := integer_wins filled numeric (decimal_not_isPrefix noFraction)
    have split := (List.takeWhile_append_dropWhile (p := Char.isDigit) (l := text)).symm
    have yields := Pattern.yields_ofDigits (text.takeWhile Char.isDigit)
    cases read : ofDigits (text.takeWhile Char.isDigit) with
    | ok token =>
      rw [read] at yields
      exact wins.justified split yields rfl
    | error fault =>
      rw [read] at yields
      have munch := Munch.pattern wins.unquoted wins yields
      rwa [← split] at munch
  dsimp only
  split
  · rename_i more pointed
    split
    · rename_i noDigits
      refine whole fun other same => ?_
      rw [pointed] at same
      cases same
      exact List.isEmpty_iff.mp noDigits
    · rename_i fractional
      have wins := decimal_wins filled numeric pointed (fractional ∘ List.isEmpty_iff.mpr)
      have isWhole := Pattern.mem_integer.mpr ⟨filled, fun _ => List.mem_takeWhile_imp⟩
      refine wins.justified (decimal_split pointed) ⟨_, isWhole, _, rfl, rfl⟩ ?_
      rw [List.length_append, List.length_cons, Nat.add_right_comm]
      rfl
  · rename_i unpointed
    exact whole fun more pointed => absurd pointed (unpointed more)

/-! ### Line breaks and blanks -/

theorem justified_newLine (rest : List Char) :
    Justified ('\n' :: rest) (.ok (.layout .newLine 1)) := by
  have only {other : Pattern} {front : List Char} (belongs : front ∈ other.texts)
      (within : front <+: '\n' :: rest) : other = .newLine :=
    Pattern.eq_newLine (Pattern.kind_of_isPrefix belongs within)
  have wins : Pattern.newLine.Wins ['\n'] rest := by
    refine ⟨rfl, fun other front belongs within => ?_, fun other belongs => ?_⟩
    · obtain rfl := only belongs within
      exact Nat.le_of_eq (congrArg List.length belongs)
    · exact Or.inl (only belongs (List.prefix_append _ rest))
  exact wins.justified rfl rfl rfl

theorem justified_blanks {character : Char} (rest : List Char)
    (isKind : Kind.of character = .blank) (blank : isBlank character = true) :
    Justified (character :: rest) (.ok (.layout .blanks (runLength isBlank rest + 1))) := by
  have split : character :: rest = character :: rest.takeWhile isBlank ++ rest.dropWhile isBlank := by
    rw [List.cons_append, List.takeWhile_append_dropWhile]
  have only {other : Pattern} {front : List Char} (belongs : front ∈ other.texts)
      (within : front <+: character :: rest) : other = .blanks :=
    Pattern.eq_blanks ((Pattern.kind_of_isPrefix belongs within).trans isKind)
  have wins : Pattern.blanks.Wins (character :: rest.takeWhile isBlank)
      (rest.dropWhile isBlank) := by
    refine ⟨Pattern.mem_blanks.mpr ⟨List.cons_ne_nil _ _, List.forall_mem_cons.mpr
      ⟨blank, fun _ => List.mem_takeWhile_imp⟩⟩, fun other front belongs within => ?_,
      fun other belongs => ?_⟩
    · rw [← split] at within
      obtain rfl := only belongs within
      have shorter := isPrefix_takeWhile within (Pattern.mem_blanks.mp belongs).2
      rw [List.takeWhile_cons_of_pos blank] at shorter
      exact shorter.length_le
    · refine Or.inl (only belongs ?_)
      rw [split]
      exact List.prefix_append _ _
  exact wins.justified split rfl rfl

/-! ### Symbols and comments -/

theorem atFront?_spelling (mark : Symbol) : Symbol.atFront? mark.spelling = some mark := by
  cases mark <;> decide

/-- No symbol at a front is longer than the one that is found there: those behind it in the
table have no longer spelling, those before it do not fit. -/
theorem length_le_of_atFront? {text : List Char} {mark other : Symbol}
    (found : Symbol.atFront? text = some mark) (within : other.spelling <+: text) :
    other.spelling.length ≤ mark.spelling.length := by
  have ordered : Symbol.all.Pairwise fun first second =>
      second.spelling.length ≤ first.spelling.length := by decide
  obtain ⟨-, before, behind, split, unfit⟩ := List.find?_eq_some_iff_append.mp found
  have member := other.mem_all
  rw [split] at member ordered
  rcases List.mem_append.mp member with earlier | later
  · have fits := List.isPrefixOf_iff_prefix.mpr within
    have misfit := unfit other earlier
    rw [fits] at misfit
    cases misfit
  · have rest := (List.pairwise_append.mp ordered).2.1
    rcases List.mem_cons.mp later with rfl | later
    · exact Nat.le_refl _
    · exact (List.pairwise_cons.mp rest).1 other later

theorem justified_symbol {character : Char} {rest : List Char} (unquoted : character ≠ '"')
    (only : ∀ (pattern : Pattern) (front : List Char), front ∈ pattern.texts →
      front <+: character :: rest → ∃ mark, pattern = .symbol mark) :
    Justified (character :: rest) (symbolAtFront character (character :: rest)) := by
  unfold symbolAtFront
  cases found : Symbol.atFront? (character :: rest) with
  | some mark =>
    have fits := List.find?_some found
    obtain ⟨back, split⟩ := List.isPrefixOf_iff_prefix.mp fits
    have wins : (Pattern.symbol mark).Wins mark.spelling back := by
      refine ⟨rfl, fun other front belongs within => ?_, fun other belongs => Or.inl ?_⟩
      · rw [split] at within
        obtain ⟨another, rfl⟩ := only other front belongs within
        cases belongs
        exact length_le_of_atFront? found within
      · obtain ⟨another, rfl⟩ := only other mark.spelling belongs ⟨back, split⟩
        have same := atFront?_spelling another
        rw [← show mark.spelling = another.spelling from belongs, atFront?_spelling mark] at same
        rw [Option.some.inj same]
    exact wins.justified split.symm rfl rfl
  | none =>
    refine Munch.unmatched unquoted fun pattern front belongs within => ?_
    obtain ⟨mark, rfl⟩ := only pattern front belongs within
    cases belongs
    have unfit := List.find?_eq_none.mp found mark mark.mem_all
    exact unfit (List.isPrefixOf_iff_prefix.mpr within)

namespace Pattern

theorem lineComment_isPrefix {character : Char} {front rest : List Char}
    (belongs : front ∈ lineComment.texts) (within : front <+: character :: rest) :
    ∃ comment, character = '/' ∧ rest = '/' :: comment := by
  obtain ⟨comment, rfl, -⟩ := mem_lineComment.mp belongs
  obtain ⟨more, split⟩ := within
  cases split
  exact ⟨_, rfl, rfl⟩

theorem blockComment_isPrefix {character : Char} {front rest : List Char}
    (belongs : front ∈ blockComment.texts) (within : front <+: character :: rest) :
    ∃ comment, character = '/' ∧ rest = '*' :: comment ∧
      commentTail? comment = some (front.length - 2) := by
  obtain ⟨body, rfl, closed⟩ := mem_blockComment.mp belongs
  obtain ⟨more, split⟩ := within
  cases split
  exact ⟨_, rfl, rfl, commentTail?_append more closed⟩

end Pattern

/-- A comment wins over the symbols it starts with, as these are no longer than its opening. -/
theorem Pattern.comment_wins {pattern : Pattern} {opening body rest : List Char}
    (belongs : opening ++ body ∈ pattern.texts) (opens : opening.length = 2)
    (unlike : ∀ mark : Symbol, opening ++ body ≠ mark.spelling)
    (only : ∀ other front, front ∈ other.texts → front <+: opening ++ body ++ rest →
      (∃ mark, other = symbol mark) ∨ other = pattern)
    (longest : ∀ front ∈ pattern.texts, front <+: opening ++ body ++ rest →
      front.length ≤ (opening ++ body).length) : pattern.Wins (opening ++ body) rest := by
  refine ⟨belongs, fun other front otherBelongs within => ?_, fun other otherBelongs => ?_⟩
  · rcases only other front otherBelongs within with ⟨mark, rfl⟩ | rfl
    · have short : ∀ mark ∈ Symbol.all, mark.spelling.length ≤ 2 := by decide
      rw [show front = mark.spelling from otherBelongs, List.length_append, opens]
      exact Nat.le_add_right_of_le (short mark mark.mem_all)
    · exact longest front otherBelongs within
  · rcases only other _ otherBelongs (List.prefix_append _ rest) with ⟨mark, rfl⟩ | rfl
    · exact absurd otherBelongs (unlike mark)
    · exact Or.inl rfl

theorem justified_lineComment (comment : List Char) :
    Justified ('/' :: '/' :: comment)
      (.ok (.layout .lineComment (runLength (· != '\n') comment + 2))) := by
  have split : '/' :: '/' :: comment = ['/', '/'] ++ comment.takeWhile (· != '\n') ++
      comment.dropWhile (· != '\n') := by
    rw [List.append_assoc, List.takeWhile_append_dropWhile]
    rfl
  have wins : Pattern.lineComment.Wins (['/', '/'] ++ comment.takeWhile (· != '\n'))
      (comment.dropWhile (· != '\n')) := by
    have belongs := Pattern.mem_lineComment.mpr ⟨comment.takeWhile (· != '\n'), rfl,
      fun _ => List.mem_takeWhile_imp⟩
    refine Pattern.comment_wins belongs rfl (fun mark => ?_) ?_ ?_
    · cases mark <;> exact nofun
    · intro other front otherBelongs within
      rw [← split] at within
      rcases Pattern.eq_symbol_or_comment (Pattern.kind_of_isPrefix otherBelongs within) with
        marked | rfl | rfl
      · exact Or.inl marked
      · exact Or.inr rfl
      · obtain ⟨_, -, impossible, -⟩ := Pattern.blockComment_isPrefix otherBelongs within
        cases impossible
    · intro front otherBelongs within
      rw [← split] at within
      obtain ⟨body, rfl, inLine⟩ := Pattern.mem_lineComment.mp otherBelongs
      obtain ⟨-, within⟩ := List.cons_prefix_cons.mp within
      obtain ⟨-, within⟩ := List.cons_prefix_cons.mp within
      exact Nat.add_le_add_right (isPrefix_takeWhile within inLine).length_le 2
  exact wins.justified split rfl rfl

theorem justified_blockComment {comment : List Char} {length : Nat}
    (closed : commentTail? comment = some length) :
    Justified ('/' :: '*' :: comment) (.ok (.layout .blockComment (length + 2))) := by
  obtain ⟨inner, back, rfl, rfl, first⟩ := Pattern.commentTail?_eq_some_iff.mp closed
  have split : '/' :: '*' :: (inner ++ '*' :: '/' :: back) =
      ['/', '*'] ++ (inner ++ ['*', '/']) ++ back := by simp
  have width : (inner ++ ['*', '/']).length = inner.length + 2 := by simp
  have wins : Pattern.blockComment.Wins (['/', '*'] ++ (inner ++ ['*', '/'])) back := by
    have belongs := Pattern.mem_blockComment.mpr ⟨inner ++ ['*', '/'], rfl,
      Pattern.commentTail?_eq_some_iff.mpr ⟨inner, [], rfl, width, first⟩⟩
    refine Pattern.comment_wins belongs rfl (fun mark => ?_) ?_ ?_
    · cases mark <;> exact nofun
    · intro other front otherBelongs within
      rw [← split] at within
      rcases Pattern.eq_symbol_or_comment (Pattern.kind_of_isPrefix otherBelongs within) with
        marked | rfl | rfl
      · exact Or.inl marked
      · obtain ⟨_, -, impossible⟩ := Pattern.lineComment_isPrefix otherBelongs within
        cases impossible
      · exact Or.inr rfl
    · intro front otherBelongs within
      rw [← split] at within
      obtain ⟨_, -, same, sooner⟩ := Pattern.blockComment_isPrefix otherBelongs within
      cases same
      rw [closed] at sooner
      have sameLength := Option.some.inj sooner
      rw [List.length_append, width]
      simp only [List.length_cons, List.length_nil]
      omega
  refine wins.justified split rfl ?_
  rw [List.length_append, width, Nat.add_comm]
  rfl

/-! ### String literals -/

/-- A string literal is what decoding takes up behind its opening quote. -/
theorem justified_string (rest : List Char) :
    Justified ('"' :: rest) ((StringBody.decode rest).map fun decoded =>
      .token (.str (String.ofList decoded.value)) (decoded.length + 1)) := by
  have munch : Munch ('"' :: rest) _ := .string
  unfold Justified
  cases read : StringBody.decode rest with
  | ok decoded =>
    rw [read] at munch
    exact munch
  | error fault =>
    rw [read] at munch
    exact munch

/-! ### Every front -/

/-- What is found at the front of a text is the longest piece there, or why there is none. -/
theorem atFront_justified (character : Char) (rest : List Char) :
    Justified (character :: rest) (atFront character rest) := by
  unfold atFront
  split
  · rename_i starts
    exact justified_word rest starts
  rename_i notWord
  split
  · rename_i digit
    exact justified_number rest digit
  rename_i notDigit
  split
  · rename_i quote
    rw [beq_iff_eq.mp quote]
    exact justified_string rest
  rename_i unquoted
  split
  · rename_i lineBreak
    rw [beq_iff_eq.mp lineBreak]
    exact justified_newLine rest
  rename_i inLine
  rw [beq_iff_eq] at unquoted inLine
  have kind : Kind.of character = if isBlank character then .blank else .mark := by
    rw [Kind.of, if_neg notWord, if_neg notDigit, if_neg inLine]
  split
  · rename_i blank
    rw [if_pos blank] at kind
    exact justified_blanks rest kind blank
  rename_i notBlank
  rw [if_neg notBlank] at kind
  have ofKind (pattern : Pattern) (front : List Char) (belongs : front ∈ pattern.texts)
      (within : front <+: character :: rest) :=
    Pattern.eq_symbol_or_comment ((Pattern.kind_of_isPrefix belongs within).trans kind)
  split
  · exact justified_lineComment _
  · rename_i comment
    split
    · rename_i length closed
      exact justified_blockComment closed
    · rename_i unclosed
      refine justified_symbol unquoted fun pattern front belongs within => ?_
      rcases ofKind pattern front belongs within with marked | rfl | rfl
      · exact marked
      · obtain ⟨_, -, impossible⟩ := Pattern.lineComment_isPrefix belongs within
        cases impossible
      · obtain ⟨_, -, same, closed⟩ := Pattern.blockComment_isPrefix belongs within
        cases same
        rw [unclosed] at closed
        cases closed
  · rename_i noLineComment noBlockComment
    refine justified_symbol unquoted fun pattern front belongs within => ?_
    rcases ofKind pattern front belongs within with marked | rfl | rfl
    · exact marked
    · obtain ⟨comment, slash, opened⟩ := Pattern.lineComment_isPrefix belongs within
      exact absurd opened (noLineComment comment slash)
    · obtain ⟨comment, slash, opened, -⟩ := Pattern.blockComment_isPrefix belongs within
      exact absurd opened (noBlockComment comment slash)

end Scriptlet.Lexing
