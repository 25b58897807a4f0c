/-
This file proves that tokens written down are read back. A token is written in any of its
spellings, with a separator behind it that starts with a blank or a line break: no text of
a token has such a character in it, so no longer piece can stand where the token was
written. What a separator goes on with is skipped bit by bit.
-/

import Scriptlet.Proofs.Lexing.Tokenization

namespace Scriptlet.Lexing

open Computability Token

/-! ### Spellings -/

/-- The escapes of a string literal: the character behind the backslash and what it stands for. -/
def escapes : List (Char × Char) :=
  [('n', '\n'), ('t', '\t'), ('r', '\r'), ('0', '\x00'), ('\\', '\\'), ('"', '"')]

/-- How the characters of a string are written between its quotes: as they are, unless they
would end the literal, or as an escape. -/
inductive Encodes : List Char → List Char → Prop where
  | nil : Encodes [] []
  | raw {character : Char} {value body : List Char}
      (plain : character ≠ '"' ∧ character ≠ '\\' ∧ character ≠ '\n')
      (encodes : Encodes value body) : Encodes (character :: value) (character :: body)
  | escaped {escape character : Char} {value body : List Char}
      (stands : (escape, character) ∈ escapes) (encodes : Encodes value body) :
      Encodes (character :: value) ('\\' :: escape :: body)

/-- The ways to write a token. -/
inductive Spells : Token → List Char → Prop where
  | reserved {token : Token} {word : String} (spelled : token.reserved? = some word) :
      Spells token word.toList
  | symbol (mark : Symbol) : Spells (.symbol mark) mark.spelling
  | identifier {name : List Char} (named : name ∈ Pattern.identifier.texts)
      (free : ∀ token : Token, token.reserved? ≠ some (String.ofList name)) :
      Spells (.identifier (String.ofList name)) name
  | int {number : Int64} (zeros : Nat) (nonnegative : 0 ≤ number.toInt) :
      Spells (.int number) (List.replicate zeros '0' ++ Nat.toDigits 10 number.toInt.toNat)
  | str {value body : List Char} (encodes : Encodes value body) :
      Spells (.str (String.ofList value)) ('"' :: (body ++ ['"']))

/-- What a separator starts with. -/
def opening : Language Char :=
  one IsSpace + {['\n']}

/-- The texts that keep tokens apart. -/
def separator : Language Char :=
  opening * (opening + Pattern.lineComment.texts * {['\n']} + Pattern.blockComment.texts)∗

/-- A token as it is written, with a separator behind it. -/
structure Written where
  token : Token
  text : List Char
  gap : List Char
  spells : Spells token text
  separates : gap ∈ separator

/-- The text that written tokens make up. -/
def Written.source (written : List Written) : String :=
  String.ofList (written.flatMap fun item => item.text ++ item.gap)

/-! ### Reading past a text -/

/-- Reading a text in front of another one yields tokens and leads behind it. -/
def Passes (text : List Char) (tokens : List Token) (rest : List Char) : Prop :=
  ∀ position read, ∃ later, Placed.tokens later = tokens.reverse ++ Placed.tokens read ∧
    scanFrom 0 position read (text ++ rest) = scanFrom 0 (position.after text) later rest

namespace Passes

theorem nil (rest : List Char) : Passes [] [] rest :=
  fun _ read => ⟨read, rfl, rfl⟩

theorem append {first second rest : List Char} {tokens others : List Token}
    (passesFirst : Passes first tokens (second ++ rest)) (passesSecond : Passes second others rest) :
    Passes (first ++ second) (tokens ++ others) rest := by
  intro position read
  obtain ⟨between, firstTokens, firstRead⟩ := passesFirst position read
  obtain ⟨later, secondTokens, secondRead⟩ := passesSecond (position.after first) between
  refine ⟨later, ?_, ?_⟩
  · rw [secondTokens, firstTokens, List.reverse_append, List.append_assoc]
  · rw [List.append_assoc, firstRead, secondRead, Position.after_append]

theorem skip {first second rest : List Char} {tokens : List Token}
    (passesFirst : Passes first [] (second ++ rest)) (passesSecond : Passes second tokens rest) :
    Passes (first ++ second) tokens rest :=
  append passesFirst passesSecond

/-- A piece that is read off a text is passed. -/
theorem of_munch {text rest : List Char} {content : Content}
    (munch : Munch (text ++ rest) (.ok ⟨text, content⟩)) :
    Passes text content.token?.toList rest := by
  intro position read
  obtain ⟨character, more, split⟩ := List.exists_cons_of_ne_nil
    (List.append_ne_nil_of_left_ne_nil munch.text_ne_nil rest)
  rw [split] at munch
  have same := munch.unique (atFront_justified character more)
  cases found : atFront character more with
  | error fault =>
    rw [found] at same
    cases same
  | ok piece =>
    rw [found] at same
    injection same with same
    injection same with sameText sameContent
    have rejoined : text ++ (character :: more).drop piece.length = text ++ rest := by
      rw [split, sameText, List.take_append_drop]
    have behind := List.append_cancel_left rejoined
    refine ⟨(content.token?.map (Placed.mk · position)).toList ++ read, ?_, ?_⟩
    · cases content.token? <;> rfl
    · rw [split, scanFrom_piece position read found, ← sameText, behind, ← sameContent]

end Passes

/-! ### Tokens before a gap -/

/-- No comment starts with a symbol that has a gap behind it. -/
theorem symbol_not_opens_comment {mark : Symbol} {gap second : Char} {rest body : List Char}
    (isGap : gap ∈ gaps) (opens : second = '/' ∨ second = '*') :
    mark.spelling ++ gap :: rest ≠ '/' :: second :: body := by
  intro split
  have apart : gap ≠ second := by
    rintro rfl
    rcases opens with rfl | rfl
    · exact absurd isGap (by decide)
    · exact absurd isGap (by decide)
  have table : ∀ mark ∈ Symbol.all, ¬ ['/', '/'] <+: mark.spelling ∧ ¬ ['/', '*'] <+: mark.spelling := by
    decide
  obtain ⟨noLine, noBlock⟩ := table mark mark.mem_all
  match spelled : mark.spelling with
  | [] => exact mark.spelling_ne_nil spelled
  | [first] =>
    rw [spelled] at split
    cases split
    exact apart rfl
  | first :: other :: more =>
    rw [spelled] at split noLine noBlock
    cases split
    rcases opens with rfl | rfl
    · exact noLine (by simp)
    · exact noBlock (by simp)

/-- A separator and a token that start alike are a comment and a symbol. -/
theorem eq_symbol_of_kind {pattern other : Pattern} (isToken : pattern.isToken = true)
    (separates : other.isToken = false) (sameKind : pattern.kind = other.kind) :
    (∃ mark, pattern = .symbol mark) ∧ (other = .lineComment ∨ other = .blockComment) := by
  have marked (isMark : pattern.kind = .mark) : ∃ mark, pattern = .symbol mark := by
    rcases Pattern.eq_symbol_or_comment isMark with isSymbol | rfl | rfl
    · exact isSymbol
    · cases isToken
    · cases isToken
  rcases Pattern.eq_layout separates with rfl | rfl | rfl | rfl
  · exact ⟨marked sameKind, Or.inl rfl⟩
  · exact ⟨marked sameKind, Or.inr rfl⟩
  · rw [Pattern.eq_blanks sameKind] at isToken
    cases isToken
  · rw [Pattern.eq_newLine sameKind] at isToken
    cases isToken

/-- No pattern has a longer text where a token stands before a gap. -/
theorem longest_before_gap {pattern other : Pattern} {text front rest : List Char} {gap : Char}
    (isGap : gap ∈ gaps) (belongs : text ∈ pattern.texts) (isToken : pattern.isToken = true)
    (otherBelongs : front ∈ other.texts) (within : front <+: text ++ gap :: rest) :
    front.length ≤ text.length := by
  by_contra longer
  have beyond : text ++ [gap] <+: front := by
    refine List.prefix_of_prefix_length_le ?_ within ?_
    · exact ⟨rest, by rw [List.append_assoc]; rfl⟩
    · rw [List.length_append, List.length_singleton]
      omega
  obtain ⟨more, rfl⟩ := beyond
  -- The gap is in the longer text, so it is one of a separator.
  have separates : other.isToken = false := by
    rw [← Bool.not_eq_true]
    exact fun isOther => Pattern.gap_notMem isGap otherBelongs isOther (by simp)
  have sameKind : pattern.kind = other.kind := by
    obtain ⟨character, first, rfl⟩ := List.exists_cons_of_ne_nil (Pattern.ne_nil_of_mem belongs)
    exact (Pattern.kind_of_mem belongs).symm.trans (Pattern.kind_of_mem otherBelongs)
  obtain ⟨⟨mark, rfl⟩, isComment⟩ := eq_symbol_of_kind isToken separates sameKind
  cases belongs
  rw [List.append_assoc] at otherBelongs
  rcases isComment with rfl | rfl
  · obtain ⟨comment, split, -⟩ := Pattern.mem_lineComment.mp otherBelongs
    exact symbol_not_opens_comment isGap (Or.inl rfl) split
  · obtain ⟨comment, split, -⟩ := Pattern.mem_blockComment.mp otherBelongs
    exact symbol_not_opens_comment isGap (Or.inr rfl) split

/-- A token before a gap is read back by its pattern, a name only if it is not reserved. -/
theorem munch_before_gap {pattern : Pattern} {text rest : List Char} {gap : Char}
    {content : Content} (isGap : gap ∈ gaps) (belongs : text ∈ pattern.texts)
    (isToken : pattern.isToken = true)
    (free : pattern = .identifier → ∀ token : Token, token.reserved? ≠ some (String.ofList text))
    (yields : pattern.Yields text (.ok content)) :
    Munch (text ++ gap :: rest) (.ok ⟨text, content⟩) := by
  have filled := Pattern.ne_nil_of_mem belongs
  have within : text <+: text ++ gap :: rest := List.prefix_append _ _
  obtain ⟨result, munch⟩ : ∃ result, Munch (text ++ gap :: rest) result := by
    obtain ⟨character, more, rfl⟩ := List.exists_cons_of_ne_nil filled
    exact ⟨_, atFront_justified character (more ++ gap :: rest)⟩
  generalize split : text ++ gap :: rest = whole at munch within ⊢
  cases munch with
  | unmatched _ none => exact absurd within (none pattern text belongs)
  | string =>
    obtain ⟨character, more, rfl⟩ := List.exists_cons_of_ne_nil filled
    cases split
    exact absurd belongs Pattern.head_ne_quote
  | @pattern front left result winner unquoted wins found =>
    have shorter := longest_before_gap isGap belongs isToken wins.belongs
      (split ▸ List.prefix_append front left)
    have longer := wins.longest pattern text belongs within
    obtain ⟨rfl, -⟩ := List.append_inj split (Nat.le_antisymm longer shorter)
    rcases wins.preferred pattern belongs with rfl | ⟨isName, reserved⟩
    · cases found.unique yields
      exact .pattern unquoted wins yields
    · obtain ⟨token, same⟩ := Option.isSome_iff_exists.mp reserved
      exact absurd ((Pattern.mem_reserved_iff same).mp wins.belongs) (free isName token)

/-! ### Literals -/

theorem unescape?_of_mem {escape character : Char} (stands : (escape, character) ∈ escapes) :
    StringBody.unescape? escape = some character := by
  have table : ∀ pair ∈ escapes, StringBody.unescape? pair.1 = some pair.2 := by decide
  exact table _ stands

/-- Decoding takes a written string up to its closing quote and gives its characters back. -/
theorem decode_encoded {value body : List Char} (rest : List Char) (encodes : Encodes value body) :
    StringBody.decode (body ++ '"' :: rest) = .ok ⟨value, body.length + 1⟩ := by
  induction encodes with
  | nil => rfl
  | @raw character value body plain encodes inductionHypothesis =>
    rw [List.cons_append, StringBody.decode, StringBody.scanBody_raw plain]
    exact congrArg (Except.map fun decoded => decoded.push character 1) inductionHypothesis
  | @escaped escape character value body stands encodes inductionHypothesis =>
    rw [List.cons_append, List.cons_append, StringBody.decode,
      StringBody.scanBody_escaped (unescape?_of_mem stands)]
    exact congrArg (Except.map fun decoded => decoded.push character 2) inductionHypothesis

theorem munch_string {value body : List Char} (rest : List Char) (encodes : Encodes value body) :
    Munch ('"' :: (body ++ ['"']) ++ rest)
      (.ok ⟨'"' :: (body ++ ['"']), .token (.str (String.ofList value))⟩) := by
  have decoded : StringBody.decode (body ++ ['"'] ++ rest) = .ok ⟨value, body.length + 1⟩ := by
    rw [List.append_assoc]
    exact decode_encoded rest encodes
  have taken : (body ++ ['"'] ++ rest).take (body.length + 1) = body ++ ['"'] :=
    List.take_left' (by rw [List.length_append, List.length_singleton])
  have munch : Munch ('"' :: (body ++ ['"'] ++ rest)) _ := .string
  rw [decoded] at munch
  change Munch _ (.ok ⟨'"' :: (body ++ ['"'] ++ rest).take (body.length + 1), _⟩) at munch
  rwa [taken] at munch

theorem yields_int {number : Int64} (zeros : Nat) (nonnegative : 0 ≤ number.toInt) :
    Pattern.integer.Yields (List.replicate zeros '0' ++ Nat.toDigits 10 number.toInt.toNat)
      (.ok (.token (.int number))) := by
  refine Or.inl ⟨number, ?_, rfl⟩
  rw [Nat.ofDigitChars_append, Nat.ofDigitChars_replicate_zero, Nat.mul_zero,
    Nat.ofDigitChars_ten_toDigits, Int.toNat_of_nonneg nonnegative]

theorem mem_integer_int (zeros number : Nat) :
    List.replicate zeros '0' ++ Nat.toDigits 10 number ∈ Pattern.integer.texts := by
  refine Pattern.mem_integer.mpr ⟨List.append_ne_nil_of_right_ne_nil _ Nat.toDigits_ne_nil, ?_⟩
  refine List.forall_mem_append.mpr ⟨fun character member => ?_, fun character member => ?_⟩
  · rw [List.eq_of_mem_replicate member]
    rfl
  · exact Nat.isDigit_of_mem_toDigits (by decide) (by decide) member

/-- A written token is read back where a gap follows it. -/
theorem Spells.passes {token : Token} {text rest : List Char} {gap : Char} (isGap : gap ∈ gaps)
    (spells : Spells token text) : Passes text [token] (gap :: rest) := by
  cases spells with
  | @reserved _ word spelled =>
    obtain ⟨pattern, same⟩ := Pattern.exists_reserved spelled
    have belongs : word.toList ∈ pattern.texts := by
      rw [Pattern.mem_reserved_iff same, spelled, String.ofList_toList]
    have isToken : pattern.isToken = true := by
      match pattern with
      | .truth _ | .keyword _ => rfl
    refine Passes.of_munch (munch_before_gap isGap belongs isToken ?_ (Pattern.yields_reserved same))
    rintro rfl
    cases same
  | symbol mark =>
    have belongs : mark.spelling ∈ (Pattern.symbol mark).texts := rfl
    exact Passes.of_munch (munch_before_gap isGap belongs rfl nofun rfl)
  | identifier named free =>
    exact Passes.of_munch (munch_before_gap isGap named rfl (fun _ => free) rfl)
  | int zeros nonnegative =>
    exact Passes.of_munch (munch_before_gap isGap (mem_integer_int zeros _) rfl nofun
      (yields_int zeros nonnegative))
  | str encodes => exact Passes.of_munch (munch_string _ encodes)

/-! ### Separators -/

namespace Passes

theorem of_layout {text rest : List Char} {kind : Layout} {length : Nat}
    (justified : Justified (text ++ rest) (.ok (.layout kind length)))
    (width : text.length = length) : Passes text [] rest := by
  have munch : Munch (text ++ rest) (.ok ⟨(text ++ rest).take length, .layout kind⟩) := justified
  rw [← width, List.take_left] at munch
  exact of_munch munch

theorem newLine (rest : List Char) : Passes ['\n'] [] rest :=
  of_layout (justified_newLine rest) rfl

/-- Blanks may be passed one by one: what is left of a run of blanks is such a run, or none. -/
theorem blank {character : Char} (isSpace : IsSpace character) (rest : List Char) :
    Passes [character] [] rest := by
  have run {character : Char} (blank : isBlank character = true) (rest : List Char)
      (position : Position) (read : List Placed) : scanFrom 0 position read (character :: rest) =
        scanFrom 0 ((position.next character).after (rest.takeWhile isBlank)) read
          (rest.dropWhile isBlank) := by
    have found : atFront character rest = .ok (.layout .blanks (runLength isBlank rest + 1)) := by
      rcases (isBlank_iff character).mp blank with rfl | rfl | rfl | rfl <;> rfl
    have taken : rest.take (runLength isBlank rest) = rest.takeWhile isBlank :=
      (List.prefix_iff_eq_take.mp (List.takeWhile_prefix _)).symm
    have rejoined := (List.take_append_drop (runLength isBlank rest) rest).trans
      (List.takeWhile_append_dropWhile (p := isBlank) (l := rest)).symm
    rw [taken] at rejoined
    have dropped := List.append_cancel_left rejoined
    rw [scanFrom_piece position read found, Piece.length, List.take_succ_cons, List.drop_succ_cons,
      taken, dropped]
    rfl
  intro position read
  refine ⟨read, rfl, ?_⟩
  rw [List.singleton_append, run ((isBlank_iff character).mpr isSpace)]
  match rest with
  | [] => rfl
  | other :: more =>
    by_cases another : isBlank other = true
    · rw [List.takeWhile_cons_of_pos another, List.dropWhile_cons_of_pos another, run another]
      rfl
    · rw [List.takeWhile_cons_of_neg another, List.dropWhile_cons_of_neg another]
      rfl

theorem lineComment {comment : List Char} (rest : List Char)
    (belongs : comment ∈ Pattern.lineComment.texts) : Passes comment [] ('\n' :: rest) := by
  obtain ⟨body, rfl, inline⟩ := Pattern.mem_lineComment.mp belongs
  have justified : Justified ('/' :: '/' :: body ++ '\n' :: rest) _ :=
    justified_lineComment (body ++ '\n' :: rest)
  refine of_layout justified ?_
  rw [runLength, List.takeWhile_append_of_pos inline]
  simp

theorem blockComment {comment : List Char} (rest : List Char)
    (belongs : comment ∈ Pattern.blockComment.texts) : Passes comment [] rest := by
  obtain ⟨body, rfl, closed⟩ := Pattern.mem_blockComment.mp belongs
  have justified : Justified ('/' :: '*' :: body ++ rest) _ :=
    justified_blockComment (Pattern.commentTail?_append rest closed)
  exact of_layout justified rfl

end Passes

theorem mem_opening {text : List Char} (opens : text ∈ opening) :
    ∃ gap ∈ gaps, text = [gap] := by
  rcases (Language.mem_add _ _ _).mp opens with ⟨character, isSpace, rfl⟩ | rfl
  · refine ⟨character, ?_, rfl⟩
    rcases isSpace with rfl | rfl | rfl | rfl <;> decide
  · exact ⟨'\n', by decide, rfl⟩

theorem passes_opening {text : List Char} (rest : List Char) (opens : text ∈ opening) :
    Passes text [] rest := by
  rcases (Language.mem_add _ _ _).mp opens with ⟨character, isSpace, rfl⟩ | rfl
  · exact .blank isSpace rest
  · exact .newLine rest

theorem passes_separator {gap : List Char} (rest : List Char) (separates : gap ∈ separator) :
    Passes gap [] rest := by
  obtain ⟨first, opens, _, ⟨units, rfl, each⟩, rfl⟩ := Language.mem_mul.mp separates
  refine Passes.skip (passes_opening _ opens) ?_
  clear separates
  induction units with
  | nil => exact .nil rest
  | cons unit units inductionHypothesis =>
    obtain ⟨isUnit, others⟩ := List.forall_mem_cons.mp each
    refine Passes.skip ?_ (inductionHypothesis others)
    rcases (Language.mem_add _ _ _).mp isUnit with opensOrLine | block
    · rcases (Language.mem_add _ _ _).mp opensOrLine with opens | line
      · exact passes_opening _ opens
      · obtain ⟨comment, isComment, _, rfl, rfl⟩ := Language.mem_mul.mp line
        exact Passes.skip (.lineComment _ isComment) (.newLine _)
    · exact .blockComment _ block

/-! ### Written tokens -/

theorem passes_written (written : List Written) :
    Passes (written.flatMap fun item => item.text ++ item.gap) (written.map Written.token) [] := by
  induction written with
  | nil => exact .nil []
  | cons item written inductionHypothesis =>
    obtain ⟨first, opens, more, -, split⟩ := Language.mem_mul.mp item.separates
    obtain ⟨character, isGap, rfl⟩ := mem_opening opens
    have token : Passes item.text [item.token] (item.gap ++
        (written.flatMap (fun item => item.text ++ item.gap) ++ [])) := by
      rw [← split]
      exact item.spells.passes isGap
    have behind := Passes.skip (passes_separator _ item.separates) inductionHypothesis
    rw [List.flatMap_cons, List.append_assoc]
    exact Passes.append (by rwa [List.append_assoc]) behind

/-- Whatever tokens are written, in whatever spelling and with whatever separators behind them,
they are read back as they are. -/
theorem written_read_back (written : List Written) :
    Token.stream (Written.source written) = .ok (written.map Written.token ++ [.endOfInput]) := by
  obtain ⟨later, tokens, scanned⟩ := passes_written written .start []
  have reversed : Placed.tokens later.reverse = written.map Written.token := by
    rw [Placed.tokens, List.map_reverse]
    exact List.reverse_eq_iff.mpr (tokens.trans (List.append_nil _))
  rw [List.append_nil] at scanned
  unfold Token.stream Token.scan Written.source
  rw [String.toList_ofList, scanned, scanFrom, ← reversed]
  simp [Placed.tokens]

/-- A number and a string, written with what could be taken for something else: a zero in front,
a quote within a comment and a comment within quotes. -/
def disguisedTokens : List Written :=
  [⟨.int 7, ['0', '7'], [' ', '/', '*', '"', '*', '/'], .int 1 (by decide), by
      refine Language.append_mem_mul (a := [' ']) (Or.inl ⟨' ', Or.inl rfl, rfl⟩) ?_
      refine ⟨[['/', '*', '"', '*', '/']], rfl, List.forall_mem_singleton.mpr (Or.inr ?_)⟩
      exact Pattern.mem_blockComment.mpr ⟨_, rfl, rfl⟩⟩,
    ⟨.str "//", ['"', '/', '/', '"'], ['\n'],
      .str (.raw (by decide) (.raw (by decide) .nil)),
      Language.append_mem_mul (a := ['\n']) (Or.inr rfl) (Language.nil_mem_kstar _)⟩]

theorem written_read_back_disguised :
    Written.source disguisedTokens = "07 /*\"*/\"//\"\n" ∧
      Token.stream (Written.source disguisedTokens) = .ok [.int 7, .str "//", .endOfInput] :=
  ⟨by decide, written_read_back disguisedTokens⟩

end Scriptlet.Lexing
