/-
This file proves that parentheses are closed within every phrase, and that those of a loop
header are. Counting the parentheses left open, no front of a phrase has fewer than none
and the whole phrase has none. So a phrase that ends within a loop header can only end
within the parentheses of that header.
-/

import Scriptlet.Proofs.Grammar.Opening

namespace Scriptlet.Grammar

variable {tokens inner rest : List Placed}

/-! ### Open parentheses -/

/-- How a token changes the number of parentheses left open. -/
def turn : Token → Int
  | .symbol .openParen => 1
  | .symbol .closeParen => -1
  | _ => 0

/-- How many parentheses are left open. -/
def openCount : List Placed → Int
  | [] => 0
  | first :: rest => turn first.token + openCount rest

@[simp] theorem openCount_nil : openCount [] = 0 := rfl

@[simp] theorem openCount_cons (first : Placed) (rest : List Placed) :
    openCount (first :: rest) = turn first.token + openCount rest := rfl

@[simp] theorem openCount_append (front back : List Placed) :
    openCount (front ++ back) = openCount front + openCount back := by
  induction front with
  | nil => simp
  | cons first front inductionHypothesis =>
    rw [List.cons_append, openCount_cons, openCount_cons, inductionHypothesis, Int.add_assoc]

@[simp] theorem turn_openParen (position : Position) :
    turn (mark .openParen position).token = 1 := rfl

@[simp] theorem turn_closeParen (position : Position) :
    turn (mark .closeParen position).token = -1 := rfl

/-- A front of two lists ends within the first or goes through it. -/
theorem prefix_append_cases {front first second : List Placed} (start : front <+: first ++ second) :
    front <+: first ∨ ∃ more, more <+: second ∧ front = first ++ more := by
  rcases List.prefix_or_prefix_of_prefix start (List.prefix_append first second) with short | long
  · exact Or.inl short
  · obtain ⟨more, rfl⟩ := long
    exact Or.inr ⟨more, (List.prefix_append_right_inj first).mp start, rfl⟩

/-! ### Closed parentheses -/

/-- Every parenthesis is closed, and behind the first word of a loop header stands one. -/
inductive Enclosed : List Placed → Prop where
  | nil : Enclosed []
  | plain {first : Placed} {rest : List Placed} :
    turn first.token = 0 → first.token ≠ .keyword .forWord → Enclosed rest → Enclosed (first :: rest)
  | parenthesized {inner rest : List Placed} (opened closed : Position) :
    Enclosed inner → Enclosed rest →
    Enclosed (mark .openParen opened :: (inner ++ mark .closeParen closed :: rest))
  | header {rest : List Placed} (start opened : Position) :
    Enclosed (mark .openParen opened :: rest) →
    Enclosed (word .forWord start :: mark .openParen opened :: rest)

namespace Enclosed

theorem append (first : Enclosed tokens) (second : Enclosed rest) : Enclosed (tokens ++ rest) := by
  induction first with
  | nil => exact second
  | plain flat other _ inductionHypothesis => exact .plain flat other inductionHypothesis
  | parenthesized opened closed inner _ _ inductionHypothesis =>
    rw [List.cons_append, List.append_assoc, List.cons_append]
    exact .parenthesized opened closed inner inductionHypothesis
  | header start opened _ inductionHypothesis => exact .header start opened inductionHypothesis

/-- No parenthesis is left open. -/
theorem openCount_eq (enclosed : Enclosed tokens) : openCount tokens = 0 := by
  induction enclosed with
  | nil => rfl
  | plain flat _ _ inductionHypothesis => rw [openCount_cons, flat, inductionHypothesis, Int.zero_add]
  | parenthesized opened closed _ _ inside behind =>
    simp only [openCount_cons, openCount_append, turn_openParen, turn_closeParen, inside, behind]
    rfl
  | header start opened _ inductionHypothesis =>
    rw [openCount_cons, inductionHypothesis]
    rfl

/-- No front has closed more parentheses than it has opened. -/
theorem openCount_nonneg (enclosed : Enclosed tokens) {front : List Placed}
    (start : front <+: tokens) : 0 ≤ openCount front := by
  induction enclosed generalizing front with
  | nil =>
    rw [List.prefix_nil.mp start]
    exact Int.le_refl 0
  | plain flat _ _ inductionHypothesis =>
    rcases List.prefix_cons_iff.mp start with rfl | ⟨more, rfl, within⟩
    · exact Int.le_refl 0
    · rw [openCount_cons, flat, Int.zero_add]
      exact inductionHypothesis within
  | parenthesized opened closed inner _ inside behind =>
    rcases List.prefix_cons_iff.mp start with rfl | ⟨more, rfl, within⟩
    · exact Int.le_refl 0
    · rw [openCount_cons, turn_openParen]
      rcases prefix_append_cases within with short | ⟨last, long, rfl⟩
      · have held := inside short
        omega
      · rw [openCount_append, inner.openCount_eq]
        rcases List.prefix_cons_iff.mp long with rfl | ⟨further, rfl, outside⟩
        · decide
        · have held := behind outside
          rw [openCount_cons, turn_closeParen]
          omega
  | header word opened _ inductionHypothesis =>
    rcases List.prefix_cons_iff.mp start with rfl | ⟨more, rfl, within⟩
    · exact Int.le_refl 0
    · have held := inductionHypothesis within
      rw [openCount_cons]
      exact Int.add_nonneg (Int.le_refl 0) held

/-- A parenthesis in front is closed. -/
theorem of_openParen {opened : Position} (enclosed : Enclosed (mark .openParen opened :: rest)) :
    ∃ inner closed more, rest = inner ++ mark .closeParen closed :: more ∧ Enclosed inner := by
  cases enclosed with
  | plain flat _ _ => cases flat
  | parenthesized _ closed inner _ => exact ⟨_, closed, _, rfl, inner⟩

/-- The parenthesis of a loop header is closed within the tokens. -/
theorem header_closed {before : List Placed} {start : Position}
    (enclosed : Enclosed (before ++ word .forWord start :: rest)) :
    ∃ opened inner closed more,
      rest = mark .openParen opened :: (inner ++ mark .closeParen closed :: more) ∧
        Enclosed inner := by
  generalize whole : before ++ word .forWord start :: rest = tokens at enclosed
  induction enclosed generalizing before rest with
  | nil => cases before <;> cases whole
  | plain flat other _ inductionHypothesis =>
    cases before with
    | nil =>
      cases whole
      exact absurd rfl other
    | cons placed before => exact inductionHypothesis (List.cons.inj whole).2
  | parenthesized opened closed _ _ inside behind =>
    rename_i _ outside _ _
    cases before with
    | nil => cases whole
    | cons placed before =>
      have whole := (List.cons.inj whole).2
      -- The word stands between the parentheses or behind them.
      rcases List.append_eq_append_iff.mp whole with ⟨later, innerEq, tailEq⟩ | ⟨later, -, tailEq⟩
      · cases later with
        | nil => cases tailEq
        | cons placed later =>
          obtain ⟨rfl, restEq⟩ := List.cons.inj tailEq
          obtain ⟨opening, held, closing, more, laterEq, enclosed⟩ := inside innerEq.symm
          refine ⟨opening, held, closing, more ++ mark .closeParen closed :: outside, ?_, enclosed⟩
          rw [restEq, laterEq]
          simp
      · cases later with
        | nil => cases tailEq
        | cons placed later => exact behind (List.cons.inj tailEq).2.symm
  | header word opened later inductionHypothesis =>
    cases before with
    | nil =>
      cases whole
      obtain ⟨inner, closed, more, rfl, enclosed⟩ := later.of_openParen
      exact ⟨opened, inner, closed, more, rfl, enclosed⟩
    | cons placed before => exact inductionHypothesis (List.cons.inj whole).2

/-! ### Tokens and lists -/

theorem symbol {symbol : Symbol} (flat : turn (.symbol symbol) = 0) (position : Position)
    (enclosed : Enclosed rest) : Enclosed (mark symbol position :: rest) :=
  .plain flat (fun same => by cases same) enclosed

theorem keyword {keyword : Keyword} (other : keyword ≠ .forWord) (position : Position)
    (enclosed : Enclosed rest) : Enclosed (word keyword position :: rest) :=
  .plain rfl (fun same => other (Token.keyword.inj same)) enclosed

theorem named (name : String) (position : Position) (enclosed : Enclosed rest) :
    Enclosed (Grammar.named name position :: rest) :=
  .plain rfl (fun same => by cases same) enclosed

theorem parens (opened closed : Position) (enclosed : Enclosed inner) :
    Enclosed (mark .openParen opened :: inner ++ [mark .closeParen closed]) :=
  .parenthesized opened closed enclosed .nil

theorem joinTokens {α : Type} {pieces : List (Piece α)}
    (each : ∀ piece ∈ pieces, Enclosed piece.tokens) : Enclosed (Grammar.joinTokens pieces) := by
  induction pieces with
  | nil => exact .nil
  | cons first others inductionHypothesis =>
    exact (each first List.mem_cons_self).append
      (inductionHypothesis fun piece member => each piece (List.mem_cons_of_mem first member))

theorem separated {α : Type} {pieces : List (Piece α)} (separated : Separated pieces tokens)
    (each : ∀ piece ∈ pieces, Enclosed piece.tokens) : Enclosed tokens := by
  induction separated with
  | none => exact .nil
  | one piece => exact each piece List.mem_cons_self
  | more piece comma _ inductionHypothesis =>
    have others := inductionHypothesis fun other member =>
      each other (List.mem_cons_of_mem piece member)
    exact (each piece List.mem_cons_self).append (others.symbol rfl comma)

theorem parameters {names : List String} (derived : Parameters tokens names) :
    Enclosed tokens := by
  cases derived with
  | intro placed opened closed _ separated =>
    refine Enclosed.parens opened closed (Enclosed.separated separated fun piece member => ?_)
    obtain ⟨name, _, equal⟩ := List.mem_map.mp member
    rw [← equal]
    exact Enclosed.nil.named name.name name.position

end Enclosed

/-! ### Phrases -/

theorem turn_operator {level : Level} {symbol : Symbol} {connective : Connective}
    (member : (symbol, connective) ∈ operators level) : turn (.symbol symbol) = 0 := by
  have table : ∀ entry ∈ operators level, turn (.symbol entry.1) = 0 := by
    cases level <;> decide
  exact table _ member

theorem turn_leading {symbol : Symbol} {op : UnaryOp} (member : (symbol, op) ∈ leadingOperators) :
    turn (.symbol symbol) = 0 := by
  have table : ∀ entry ∈ leadingOperators, turn (.symbol entry.1) = 0 := by
    decide
  exact table _ member

theorem turn_update {symbol : Symbol} {step : Step} (member : (symbol, step) ∈ updates) :
    turn (.symbol symbol) = 0 := by
  have table : ∀ entry ∈ updates, turn (.symbol entry.1) = 0 := by
    decide
  exact table _ member

theorem turn_compoundSign {symbol : Symbol} {operation : Arithmetic}
    (member : (symbol, operation) ∈ compoundSigns) : turn (.symbol symbol) = 0 := by
  have table : ∀ entry ∈ compoundSigns, turn (.symbol entry.1) = 0 := by
    decide
  exact table _ member

theorem declarator_ne_forWord {keyword : Keyword} {mutability : Mutability}
    (member : (keyword, mutability) ∈ declarators) : keyword ≠ .forWord := by
  have table : ∀ entry ∈ declarators, entry.1 ≠ .forWord := by
    decide
  exact table _ member

/-- Every parenthesis of a phrase is closed in it. -/
theorem Derives.enclosed {extending : Bool} {phrase : Phrase} {tokens : List Placed}
    {tree : phrase.Tree} (derived : Derives extending phrase tokens tree) : Enclosed tokens := by
  induction derived with
  | single _ inner => exact inner
  | join position _ member _ left right =>
    exact left.append (right.symbol (turn_operator member) position)
  | tighter _ _ inner => exact inner
  | tightest _ inner => exact inner
  | leading position member _ _ inner => exact inner.symbol (turn_leading member) position
  | unled _ inner => exact inner
  | update position _ member _ inner =>
    exact inner.append (Enclosed.nil.symbol (turn_update member) position)
  | notUpdated _ inner => exact inner
  | extended _ _ inner => exact inner
  | call arguments position closed _ _ separated callee each =>
    rw [List.append_assoc]
    exact callee.append (Enclosed.parens position closed (Enclosed.separated separated each))
  | index position closed _ _ target index =>
    exact (target.append (index.symbol rfl position)).append (Enclosed.nil.symbol rfl closed)
  | notApplied _ inner => exact inner
  | literal literal position =>
    exact .plain (by cases literal <;> rfl) (fun same => by cases literal <;> cases same) .nil
  | name name position => exact Enclosed.nil.named name position
  | parenthesized opened closed _ inner => exact Enclosed.parens opened closed inner
  | lambda position arrow parameters _ body =>
    exact ((Enclosed.parameters parameters).keyword (by decide) position).append
      (body.symbol rfl arrow)
  | block statements position closed _ each =>
    exact ((Enclosed.joinTokens each).symbol rfl position).append (Enclosed.nil.symbol rfl closed)
  | evaluate _ inner => exact inner
  | assign _ sign _ _ target value => exact target.append (value.symbol rfl sign)
  | compoundAssign _ sign member _ _ target value =>
    exact target.append (value.symbol (turn_compoundSign member) sign)
  | declare start position sign member _ value =>
    exact ((value.symbol rfl sign).named _ position).keyword (declarator_ne_forWord member) start
  | undeclared _ inner => exact inner
  | simple semicolon _ inner => exact inner.append (Enclosed.nil.symbol rfl semicolon)
  | nested _ inner => exact inner
  | leave position semicolon =>
    exact (Enclosed.nil.symbol rfl semicolon).keyword (by decide) position
  | leaveWith position semicolon _ value =>
    exact (value.keyword (by decide) position).append (Enclosed.nil.symbol rfl semicolon)
  | breakLoop position semicolon =>
    exact (Enclosed.nil.symbol rfl semicolon).keyword (by decide) position
  | continueLoop position semicolon =>
    exact (Enclosed.nil.symbol rfl semicolon).keyword (by decide) position
  | loop position opened closed _ _ test body =>
    exact (Enclosed.parenthesized opened closed test body).keyword (by decide) position
  | counterLoop position opened first second closed _ _ _ _ _ _ start test step body =>
    have semicolon : turn (.symbol .semicolon) = 0 := rfl
    have between := (start.append (test.symbol semicolon first)).append
      (step.symbol semicolon second)
    exact .header position opened (.parenthesized opened closed between body)
  | branch _ inner => exact inner
  | branchAlone position opened closed _ _ test body =>
    exact (Enclosed.parenthesized opened closed test body).keyword (by decide) position
  | branchElse position opened closed otherwise _ _ _ test body other =>
    have first := (Enclosed.parenthesized opened closed test body).keyword
      (show Keyword.ifWord ≠ .forWord by decide) position
    exact first.append (other.keyword (by decide) otherwise)
  | chained _ inner => exact inner
  | unchained _ inner => exact inner

theorem DerivesProcedure.enclosed {extending : Bool} {tokens : List Placed} {procedure : Procedure}
    (derived : DerivesProcedure extending tokens procedure) : Enclosed tokens := by
  cases derived with
  | intro position place parameters body =>
    exact (((Enclosed.parameters parameters).named _ place).keyword (by decide) position).append
      body.enclosed

theorem DerivesProgram.enclosed {extending : Bool} {tokens : List Placed} {program : Program}
    (derived : DerivesProgram extending tokens program) : Enclosed tokens := by
  cases derived with
  | intro procedures each _ =>
    exact Enclosed.joinTokens fun procedure member => (each procedure member).enclosed

end Scriptlet.Grammar
