/-
This file says which tokens a phrase can start with, and that the end mark stands in no
phrase. One token of look-ahead decides between phrases because these sets are disjoint
where the readers choose.
-/

import Scriptlet.Proofs.Grammar.Tables

namespace Scriptlet.Grammar

/-! ### First tokens -/

/-- Whether a token can start a primary expression. -/
def opensPrimary : Token → Bool
  | .identifier _ => true
  | .symbol .openParen => true
  | .keyword .lamWord => true
  | token => (Parser.literal? token).isSome

/-- Whether a token can start an expression. -/
def opensExpression (token : Token) : Bool :=
  opensPrimary token || (Parser.leadingOp? token).isSome

/-- Whether a token can start a statement that a semicolon ends. -/
def opensSimple : Token → Bool
  | .keyword .letWord => true
  | .keyword .constWord => true
  | token => opensExpression token

/-- Whether a token can start a statement. -/
def opensStatement : Token → Bool
  | .keyword .ifWord => true
  | .keyword .whileWord => true
  | .keyword .forWord => true
  | .symbol .openBrace => true
  | .keyword .returnWord => true
  | .keyword .breakWord => true
  | .keyword .continueWord => true
  | token => opensSimple token

/-- Whether a token can start a phrase. -/
def Phrase.opens : Phrase → Token → Bool
  | .joined _, token => opensExpression token
  | .operand _, token => opensExpression token
  | .unary, token => opensExpression token
  | .updated, token => opensPrimary token
  | .applied, token => opensPrimary token
  | .primary, token => opensPrimary token
  | .block, token => token = .symbol .openBrace
  | .statement, token => opensStatement token
  | .simple, token => opensSimple token
  | .assignment, token => opensExpression token
  | .branch, token => token = .keyword .ifWord
  | .alternative, token => token = .keyword .ifWord ∨ token = .symbol .openBrace

theorem opensExpression_of_opensPrimary {token : Token} (opens : opensPrimary token = true) :
    opensExpression token = true := by
  rw [opensExpression, opens]
  rfl

theorem opensSimple_of_opensExpression {token : Token} (opens : opensExpression token = true) :
    opensSimple token = true := by
  unfold opensSimple
  split <;> first | rfl | exact opens

theorem opensStatement_of_opensSimple {token : Token} (opens : opensSimple token = true) :
    opensStatement token = true := by
  unfold opensStatement
  split <;> first | rfl | exact opens

/-- An operator in front of an operand starts an expression. -/
theorem opensExpression_leading {symbol : Symbol} {op : UnaryOp}
    (member : (symbol, op) ∈ leadingOperators) : opensExpression (.symbol symbol) = true := by
  have table : ∀ entry ∈ leadingOperators, opensExpression (.symbol entry.1) = true := by
    decide
  exact table _ member

theorem opensPrimary_literal (literal : Literal) : opensPrimary (literalToken literal) = true := by
  cases literal <;> rfl

theorem opensSimple_declarator {keyword : Keyword} {mutability : Mutability}
    (member : (keyword, mutability) ∈ declarators) : opensSimple (.keyword keyword) = true := by
  have table : ∀ entry ∈ declarators, opensSimple (.keyword entry.1) = true := by
    decide
  exact table _ member

/-- A list starts with a token of a set. -/
def StartsWith (holds : Token → Bool) (tokens : List Placed) : Prop :=
  ∃ first rest, tokens = first :: rest ∧ holds first.token = true

namespace StartsWith

variable {holds others : Token → Bool} {tokens : List Placed}

theorem cons {first : Placed} (found : holds first.token = true) (rest : List Placed) :
    StartsWith holds (first :: rest) :=
  ⟨first, rest, rfl, found⟩

theorem append (starts : StartsWith holds tokens) (more : List Placed) :
    StartsWith holds (tokens ++ more) := by
  obtain ⟨first, rest, equal, found⟩ := starts
  exact ⟨first, rest ++ more, by rw [equal, List.cons_append], found⟩

theorem mono (starts : StartsWith holds tokens)
    (implies : ∀ {token}, holds token = true → others token = true) : StartsWith others tokens := by
  obtain ⟨first, rest, equal, found⟩ := starts
  exact ⟨first, rest, equal, implies found⟩

theorem ne_nil (starts : StartsWith holds tokens) : tokens ≠ [] := by
  obtain ⟨first, rest, equal, _⟩ := starts
  rw [equal]
  exact List.cons_ne_nil first rest

theorem front (starts : StartsWith holds tokens) (rest : List Placed) :
    holds (Parser.front (tokens ++ rest)).token = true := by
  obtain ⟨first, more, equal, found⟩ := starts
  rw [equal]
  exact found

end StartsWith

/-- Every phrase starts with a token that its kind can start with. -/
theorem Derives.opens {extending : Bool} {phrase : Phrase} {tokens : List Placed}
    {tree : phrase.Tree} (derived : Derives extending phrase tokens tree) :
    StartsWith phrase.opens tokens := by
  induction derived with
  | single _ inductionHypothesis => exact inductionHypothesis
  | join _ _ _ _ inductionHypothesis _ => exact inductionHypothesis.append _
  | tighter _ _ inductionHypothesis => exact inductionHypothesis
  | tightest _ inductionHypothesis => exact inductionHypothesis
  | leading _ member _ _ _ => exact .cons (opensExpression_leading member) _
  | unled _ inductionHypothesis => exact inductionHypothesis.mono opensExpression_of_opensPrimary
  | update _ _ _ _ inductionHypothesis => exact inductionHypothesis.append _
  | notUpdated _ inductionHypothesis => exact inductionHypothesis
  | extended _ _ inductionHypothesis => exact inductionHypothesis
  | call _ _ _ _ _ _ inductionHypothesis _ => exact (inductionHypothesis.append _).append _
  | index _ _ _ _ inductionHypothesis _ => exact (inductionHypothesis.append _).append _
  | notApplied _ inductionHypothesis => exact inductionHypothesis
  | literal literal position => exact .cons (opensPrimary_literal literal) _
  | name name position => exact .cons rfl _
  | parenthesized _ _ _ _ => exact .cons rfl _
  | lambda _ _ _ _ _ => exact .cons rfl _
  | block _ _ _ _ _ => exact .cons rfl _
  | evaluate _ inductionHypothesis => exact inductionHypothesis
  | assign _ _ _ _ inductionHypothesis _ => exact inductionHypothesis.append _
  | compoundAssign _ _ _ _ _ inductionHypothesis _ => exact inductionHypothesis.append _
  | declare _ _ _ member _ _ => exact .cons (opensSimple_declarator member) _
  | undeclared _ inductionHypothesis => exact inductionHypothesis.mono opensSimple_of_opensExpression
  | simple _ _ inductionHypothesis =>
    exact (inductionHypothesis.mono opensStatement_of_opensSimple).append _
  | nested _ inductionHypothesis =>
    exact inductionHypothesis.mono fun same => by
      rw [of_decide_eq_true same]
      rfl
  | leave position semicolon => exact .cons rfl _
  | leaveWith _ _ _ _ => exact .cons rfl _
  | breakLoop position semicolon => exact .cons rfl _
  | continueLoop position semicolon => exact .cons rfl _
  | loop _ _ _ _ _ _ _ => exact .cons rfl _
  | counterLoop _ _ _ _ _ _ _ _ _ _ _ _ _ _ _ => exact .cons rfl _
  | branch _ inductionHypothesis =>
    exact inductionHypothesis.mono fun same => by
      rw [of_decide_eq_true same]
      rfl
  | branchAlone _ _ _ _ _ _ _ => exact .cons rfl _
  | branchElse _ _ _ _ _ _ _ _ _ _ => exact .cons rfl _
  | chained _ inductionHypothesis =>
    exact inductionHypothesis.mono fun same => by
      rw [of_decide_eq_true same]
      rfl
  | unchained _ inductionHypothesis =>
    exact inductionHypothesis.mono fun same => by
      rw [of_decide_eq_true same]
      rfl

/-- No phrase is empty. -/
theorem Derives.ne_nil {extending : Bool} {phrase : Phrase} {tokens : List Placed}
    {tree : phrase.Tree} (derived : Derives extending phrase tokens tree) : tokens ≠ [] :=
  derived.opens.ne_nil

theorem DerivesProcedure.starts {extending : Bool} {tokens : List Placed} {procedure : Procedure}
    (derived : DerivesProcedure extending tokens procedure) :
    ∃ position rest, tokens = word .procWord position :: rest := by
  cases derived with
  | intro position place _ _ => exact ⟨position, _, rfl⟩

theorem Derives.length_pos {extending : Bool} {phrase : Phrase} {tokens : List Placed}
    {tree : phrase.Tree} (derived : Derives extending phrase tokens tree) : 0 < tokens.length :=
  List.length_pos_iff.mpr derived.ne_nil

/-! ### The end mark -/

/-- The end mark is not in a list. -/
def Endless (tokens : List Placed) : Prop :=
  ∀ placed ∈ tokens, placed.token ≠ .endOfInput

namespace Endless

variable {tokens rest : List Placed}

theorem nil : Endless [] :=
  fun _ member => by cases member

theorem cons {first : Placed} (inside : first.token ≠ .endOfInput) (endless : Endless rest) :
    Endless (first :: rest) := by
  intro placed member
  rcases List.mem_cons.mp member with same | inRest
  · rw [same]
    exact inside
  · exact endless placed inRest

theorem append (front : Endless tokens) (back : Endless rest) : Endless (tokens ++ rest) := by
  intro placed member
  rcases List.mem_append.mp member with inFront | inBack
  · exact front placed inFront
  · exact back placed inBack

theorem mark (symbol : Symbol) (position : Position) (endless : Endless rest) :
    Endless (Grammar.mark symbol position :: rest) :=
  endless.cons fun ended => by cases ended

theorem word (keyword : Keyword) (position : Position) (endless : Endless rest) :
    Endless (Grammar.word keyword position :: rest) :=
  endless.cons fun ended => by cases ended

theorem named (name : String) (position : Position) (endless : Endless rest) :
    Endless (Grammar.named name position :: rest) :=
  endless.cons fun ended => by cases ended

theorem joinTokens {α : Type} {pieces : List (Piece α)}
    (endless : ∀ piece ∈ pieces, Endless piece.tokens) : Endless (Grammar.joinTokens pieces) := by
  intro placed member
  obtain ⟨piece, inPieces, inTokens⟩ := List.mem_flatMap.mp member
  exact endless piece inPieces placed inTokens

theorem separated {α : Type} {pieces : List (Piece α)} (separated : Separated pieces tokens)
    (endless : ∀ piece ∈ pieces, Endless piece.tokens) : Endless tokens := by
  induction separated with
  | none => exact nil
  | one piece => exact endless piece List.mem_cons_self
  | more piece comma _ inductionHypothesis =>
    have others := inductionHypothesis fun other member =>
      endless other (List.mem_cons_of_mem piece member)
    exact (endless piece List.mem_cons_self).append (others.mark .comma comma)

theorem parameters {names : List String} (derived : Parameters tokens names) :
    Endless tokens := by
  cases derived with
  | intro placed opened closed _ separated =>
    have inner := Endless.separated separated fun piece member => by
      obtain ⟨name, _, equal⟩ := List.mem_map.mp member
      rw [← equal]
      exact nil.named name.name name.position
    exact (inner.mark .openParen opened).append (nil.mark .closeParen closed)

end Endless

/-- No phrase has the end mark in it. -/
theorem Derives.endless {extending : Bool} {phrase : Phrase} {tokens : List Placed}
    {tree : phrase.Tree} (derived : Derives extending phrase tokens tree) : Endless tokens := by
  induction derived with
  | single _ inner => exact inner
  | join position _ _ _ left right => exact left.append (right.mark _ position)
  | tighter _ _ inner => exact inner
  | tightest _ inner => exact inner
  | leading position _ _ _ inner => exact inner.mark _ position
  | unled _ inner => exact inner
  | update position _ _ _ inner => exact inner.append (Endless.nil.mark _ position)
  | notUpdated _ inner => exact inner
  | extended _ _ inner => exact inner
  | call arguments position closed _ _ separated front inner =>
    have between := Endless.separated separated inner
    exact (front.append (between.mark _ position)).append (Endless.nil.mark _ closed)
  | index position closed _ _ front inner =>
    exact (front.append (inner.mark _ position)).append (Endless.nil.mark _ closed)
  | notApplied _ inner => exact inner
  | literal literal position =>
    exact Endless.nil.cons fun ended => by cases literal <;> cases ended
  | name name position => exact Endless.nil.named name position
  | parenthesized opened closed _ inner =>
    exact (inner.mark _ opened).append (Endless.nil.mark _ closed)
  | lambda position arrow parameters _ body =>
    exact ((Endless.parameters parameters).word _ position).append (body.mark _ arrow)
  | block statements position closed _ inner =>
    exact ((Endless.joinTokens inner).mark _ position).append (Endless.nil.mark _ closed)
  | evaluate _ inner => exact inner
  | assign _ sign _ _ target value => exact target.append (value.mark _ sign)
  | compoundAssign _ sign _ _ _ target value => exact target.append (value.mark _ sign)
  | declare start position sign _ _ value =>
    exact ((value.mark _ sign).named _ position).word _ start
  | undeclared _ inner => exact inner
  | simple semicolon _ inner => exact inner.append (Endless.nil.mark _ semicolon)
  | nested _ inner => exact inner
  | leave position semicolon => exact (Endless.nil.mark _ semicolon).word _ position
  | leaveWith position semicolon _ value =>
    exact (value.word _ position).append (Endless.nil.mark _ semicolon)
  | breakLoop position semicolon => exact (Endless.nil.mark _ semicolon).word _ position
  | continueLoop position semicolon => exact (Endless.nil.mark _ semicolon).word _ position
  | loop position opened closed _ _ test body =>
    exact ((test.mark _ opened).word _ position).append (body.mark _ closed)
  | counterLoop position opened first second closed _ _ _ _ _ _ start test step body =>
    exact ((((start.mark _ opened).word _ position).append (test.mark _ first)).append
      (step.mark _ second)).append (body.mark _ closed)
  | branch _ inner => exact inner
  | branchAlone position opened closed _ _ test body =>
    exact ((test.mark _ opened).word _ position).append (body.mark _ closed)
  | branchElse position opened closed otherwise _ _ _ test body other =>
    exact (((test.mark _ opened).word _ position).append (body.mark _ closed)).append
      (other.word _ otherwise)
  | chained _ inner => exact inner
  | unchained _ inner => exact inner

theorem DerivesProcedure.endless {extending : Bool} {tokens : List Placed} {procedure : Procedure}
    (derived : DerivesProcedure extending tokens procedure) : Endless tokens := by
  cases derived with
  | intro position place parameters body =>
    exact (((Endless.parameters parameters).named _ place).word _ position).append body.endless

/-- A program has no end mark in it. -/
theorem DerivesProgram.endless {extending : Bool} {tokens : List Placed} {program : Program}
    (derived : DerivesProgram extending tokens program) : Endless tokens := by
  cases derived with
  | intro procedures each _ =>
    exact Endless.joinTokens fun procedure member => (each procedure member).endless

end Scriptlet.Grammar
