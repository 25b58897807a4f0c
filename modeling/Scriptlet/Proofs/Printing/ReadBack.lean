/-
This file proves that what is written down is read back. The tokens of a tree are a phrase
with this tree, and a reader takes every phrase if nothing behind it goes on with it. Tokens
that stand somewhere are read as tokens that stand nowhere are, so the tree that is read
differs from the one that was written in its places only.

What goes on with an expression is an operator, and whatever may stand behind an operand:
an opening bracket or an update. Behind an update that follows its variable only an operator
goes on, as this is where the reader looks no further for the others.
-/

import Scriptlet.Proofs.Grammar.Acceptance
import Scriptlet.Proofs.Layout.Reading
import Scriptlet.Proofs.Printing.Derived

namespace Scriptlet

open Grammar

/-! ### What goes on with an expression -/

/-- Whether a token joins the operands on its sides. -/
def Token.joins : Token → Bool
  | .symbol mark => mark.connective?.isSome
  | _ => false

/-- Whether a token goes on with an expression that it stands behind. -/
def Expr.goesOn : Expr → Token → Bool
  | .unary (.update _ .previous) _ _, token => token.joins
  | _, token => Parser.goesOn 0 token

theorem Token.connectiveAt?_of_joins {token : Token} (apart : token.joins = false) (level : Level) :
    token.connectiveAt? level = none := by
  cases token with
  | symbol mark =>
    rw [joins, Option.isSome_eq_false_iff, Option.isNone_iff_eq_none] at apart
    rw [connectiveAt?, apart]
    rfl
  | _ => rfl

namespace Parser

variable {tokens rest : List Placed} {bound : Nat} {tree : Expr}

/-! ### An operand alone -/

theorem joined_of_operand {level : Level}
    (taken : operand (bound + 1) level tokens = .ok tree rest)
    (apart : (front rest).token.joins = false) :
    joined (bound + 2) level tokens = .ok tree rest := by
  rw [joined, EStateM.bind_of_ok taken, joinedTail, peek_bind,
    Token.connectiveAt?_of_joins apart level]
  rfl

theorem operand_of_joined (level : Level) {next : Level} (tighter : level.tighter? = some next)
    (taken : joined bound next tokens = .ok tree rest) :
    operand (bound + 1) level tokens = .ok tree rest := by
  rw [operand, tighter]
  exact taken

/-- An operand with no operator behind it is taken as an expression. -/
theorem expression_of_unary (taken : unary bound tokens = .ok tree rest)
    (apart : (front rest).token.joins = false) :
    expression (bound + 13) tokens = .ok tree rest := by
  have product : operand (bound + 1) .product tokens = .ok tree rest := by
    rw [operand]
    exact taken
  have sum := operand_of_joined .sum rfl (joined_of_operand product apart)
  have relation := operand_of_joined .relation rfl (joined_of_operand sum apart)
  have equality := operand_of_joined .equality rfl (joined_of_operand relation apart)
  have both := operand_of_joined .both rfl (joined_of_operand equality apart)
  have either := operand_of_joined .either rfl (joined_of_operand both apart)
  rw [expression]
  exact joined_of_operand either apart

theorem unary_update (step : Step) (name : String) (place position : Position) :
    unary (bound + 2) (named name place :: mark step.symbol position :: rest) =
      .ok (.unary (.update step .previous) (.identifier name place) position) rest := by
  cases step <;> rfl

/-! ### Bare tokens -/

/-- A reader that leaves the rest of bare tokens leaves the rest of the tokens themselves. -/
theorem read_of_bare {α : Type} [Placing α] {reader : Nat → Parser α} {placed : List Placed}
    {value : α} (alike : ∀ bound, Alike (reader bound) (reader bound))
    (leaves : ∀ {bound : Nat} {tokens left : List Placed} {read : α},
      reader bound tokens = .ok read left → ∃ taken, tokens = taken ++ left)
    (taken : reader (boundFor (placed ++ rest)) (bare placed ++ bare rest) =
      .ok value (bare rest)) :
    ∃ read, Parser.read reader (placed ++ rest) = ⟨.ok read, rest⟩ ∧ bare read = value := by
  have same := alike (boundFor (placed ++ rest)) (placed ++ rest)
  rw [bare_append, taken] at same
  cases came : reader (boundFor (placed ++ rest)) (placed ++ rest) with
  | ok read left =>
    rw [came] at same
    injection same with sameValue sameRest
    obtain ⟨front, split⟩ := leaves came
    -- Forgetting places keeps lengths, so both readings end at the same point of the list.
    have sameLength : rest.length = left.length := by
      rw [← length_bare rest, sameRest, length_bare]
    have unchanged : rest = left := List.append_inj_right' split sameLength
    refine ⟨read, ?_, sameValue.symm⟩
    rw [Parser.read, EStateM.run, came, unchanged]
  | error reason left =>
    rw [came] at same
    cases same

/-- Tokens of a text, without their places. -/
theorem bare_of_tokens {placed : List Placed} {text : List Token}
    (written : Placed.tokens placed = text) : bare placed = unplaced text := by
  rw [← written, unplaced, Placed.tokens, List.map_map]
  rfl

/-! ### Trees -/

/-- A bound for tokens pays for a part of them. -/
theorem boundFor_pays {placed : List Placed} {text : List Token}
    (written : bare placed = unplaced text) (rest : List Placed) :
    24 * (unplaced text).length + 24 ≤ boundFor (placed ++ rest) := by
  rw [← written, length_bare, boundFor, List.length_append]
  omega

theorem expression_taken {expression : Expr} (shaped : SourceShaped .expression expression)
    (pays : 24 * (unplaced expression.tokens).length + 24 ≤ bound)
    (apart : expression.goesOn (front rest).token = false) :
    Parser.expression bound (unplaced expression.tokens ++ rest) =
      .ok (bare expression) rest := by
  have derived : Derives false .expression (unplaced expression.tokens) (bare expression) :=
    shaped.written
  have stopped : Stops 0 rest → Parser.expression bound (unplaced expression.tokens ++ rest) =
      .ok (bare expression) rest := by
    intro stops
    exact (reads_of_derives derived).expression_ok derived.length_pos (by omega) stops
  cases shaped with
  | update step yield name place position =>
    cases yield with
    | updated => exact stopped apart
    | previous =>
      -- The phrase itself is only taken if no bracket follows, but the reader stops here anyway.
      obtain ⟨less, rfl⟩ := Nat.exists_eq_add_of_le' (show 15 ≤ bound by omega)
      exact expression_of_unary (unary_update step name .nowhere .nowhere) apart
  | _ => exact stopped apart

/-- The tokens of an expression are read back as this expression, up to places, and what stands
behind them is left. -/
theorem expression_read_back {expression : Expr} (shaped : SourceShaped .expression expression)
    {placed : List Placed} (written : Placed.tokens placed = expression.tokens)
    (apart : expression.goesOn (front rest).token = false) :
    ∃ read, Parser.read Parser.expression (placed ++ rest) = ⟨.ok read, rest⟩ ∧
      bare read = bare expression := by
  have stripped := bare_of_tokens written
  refine read_of_bare (fun bound => Goal.alike bound .expression) (fun taken => ?_) ?_
  · obtain ⟨front, split, _⟩ := sound _ .expression trivial taken
    exact ⟨front, split⟩
  · rw [stripped]
    refine expression_taken shaped (boundFor_pays stripped rest) ?_
    rw [front_bare]
    exact apart

theorem statement_read_back {statement : Statement} (shaped : SourceShaped .statement statement)
    {placed : List Placed} (written : Placed.tokens placed = statement.tokens)
    (apart : NoElse rest) :
    ∃ read, Parser.read Parser.statement (placed ++ rest) = ⟨.ok read, rest⟩ ∧
      bare read = bare statement := by
  have stripped := bare_of_tokens written
  have pays := boundFor_pays stripped rest
  have derived : Derives false .statement (unplaced statement.tokens) (bare statement) :=
    shaped.written.whole
  refine read_of_bare (fun bound => Goal.alike bound .statement) (fun taken => ?_) ?_
  · obtain ⟨front, split, _⟩ := sound _ .statement trivial taken
    exact ⟨front, split⟩
  · rw [stripped]
    refine reads_of_derives derived _ _ (by omega) ?_
    rw [NoElse, front_bare]
    exact apart

end Parser

/-! ### Programs -/

theorem Program.read_back {program : Program} (shaped : program.SourceShaped)
    {placed : List Placed} (written : Placed.tokens placed = program.tokens ++ [.endOfInput]) :
    ∃ read, Program.ofTokens placed = .ok read ∧ bare read = bare program := by
  have derived := shaped.derived
  have stripped : bare placed = unplaced program.tokens ++ [⟨.endOfInput, .nowhere⟩] := by
    rw [Parser.bare_of_tokens written, unplaced_append]
    rfl
  have before : beforeEnd (bare placed) = unplaced program.tokens := by
    rw [stripped]
    exact beforeEnd_append derived.endless rfl
  have taken : Program.ofTokens (bare placed) = .ok (bare program) := by
    rw [← before] at derived
    exact ofTokens_of_derives derived
  rw [Program.ofTokens_bare] at taken
  cases came : Program.ofTokens placed with
  | ok read =>
    rw [came] at taken
    injection taken with same
    exact ⟨read, rfl, same⟩
  | error reason =>
    rw [came] at taken
    cases taken

/-- Every tree of the shape that sources have is read back from its tokens, up to places: a program
in front of the end mark, an expression in front of anything that does not go on with it, and a
statement in front of anything but an alternative. Behind an expression or a statement the
reader leaves what stands there. -/
theorem sourceShaped_read_back :
    (∀ program : Program, program.SourceShaped → ∀ placed : List Placed,
      Placed.tokens placed = program.tokens ++ [.endOfInput] →
      ∃ read, Program.ofTokens placed = .ok read ∧ bare read = bare program) ∧
    (∀ expression : Expr, SourceShaped .expression expression → ∀ placed rest : List Placed,
      Placed.tokens placed = expression.tokens →
      expression.goesOn (Parser.front rest).token = false →
      ∃ read, Parser.read Parser.expression (placed ++ rest) = ⟨.ok read, rest⟩ ∧
        bare read = bare expression) ∧
    (∀ statement : Statement, SourceShaped .statement statement → ∀ placed rest : List Placed,
      Placed.tokens placed = statement.tokens →
      (Parser.front rest).token ≠ .keyword .elseWord →
      ∃ read, Parser.read Parser.statement (placed ++ rest) = ⟨.ok read, rest⟩ ∧
        bare read = bare statement) := by
  refine ⟨?_, ?_, ?_⟩
  · intro program shaped placed written
    exact Program.read_back shaped written
  · intro expression shaped placed rest written apart
    exact Parser.expression_read_back shaped written apart
  · intro statement shaped placed rest written apart
    exact Parser.statement_read_back shaped written apart

/-- The quotient `8 / (2 - i++)`. -/
def nestedQuotient : Expr :=
  .binary (.arithmetic .divide) (.literal (.int 8) .nowhere)
    (.binary (.arithmetic .subtract) (.literal (.int 2) .nowhere)
      (.unary (.update .increment .previous) (.identifier "i" .nowhere) .nowhere) .nowhere) .nowhere

/-- The loop `for (let i = 0; i < 3; i++) { 8 / (2 - i++); }`. -/
def dividingLoop : Statement :=
  .forLoop (.declare "i" (.literal (.int 0) .nowhere) .mutable .nowhere)
    (.binary (.relation .less) (.identifier "i" .nowhere) (.literal (.int 3) .nowhere) .nowhere)
    (.evaluate (.unary (.update .increment .previous) (.identifier "i" .nowhere) .nowhere) .nowhere)
    [.evaluate nestedQuotient .nowhere] .nowhere .nowhere

theorem nestedQuotient_shaped : SourceShaped .expression nestedQuotient :=
  .binary _ _ (.literal _ _) (.binary _ _ (.literal _ _) (.update _ _ _ _ _))

theorem dividingLoop_shaped : SourceShaped .statement dividingLoop := by
  refine .counterLoop _ _ _ (.declare _ _ _ (.literal _ _)) (.declare _ _ _ _)
    (.binary _ _ (.identifier _ _) (.literal _ _)) (fun statement member => ?_)
    (.evaluate _ (.update _ _ _ _ _)) (.update _ _ _ _ _)
  rw [List.mem_singleton.mp member]
  exact .evaluate _ nestedQuotient_shaped

/-- The program with this loop as its one procedure. -/
def dividingProgram : Program :=
  ⟨[⟨"main", [], [dividingLoop], .nowhere⟩]⟩

theorem dividingProgram_shaped : dividingProgram.SourceShaped where
  names := List.pairwise_singleton _ _
  procedures procedure member := by
    rw [List.mem_singleton.mp member]
    refine ⟨List.nodup_nil, fun statement inside => ?_⟩
    rw [List.mem_singleton.mp inside]
    exact dividingLoop_shaped

/-- A loop over a counter with nested operators is read back as a program, its quotient in front of
a semicolon and the loop itself in front of a brace. -/
theorem sourceShaped_read_back_dividing :
    (∃ read, Program.ofTokens (unplaced (dividingProgram.tokens ++ [.endOfInput])) = .ok read ∧
      bare read = bare dividingProgram) ∧
    (∃ read, Parser.read Parser.expression
        (unplaced nestedQuotient.tokens ++ [mark .semicolon ⟨1, 9⟩]) =
          ⟨.ok read, [mark .semicolon ⟨1, 9⟩]⟩ ∧
      bare read = bare nestedQuotient) ∧
    (∃ read, Parser.read Parser.statement
        (unplaced dividingLoop.tokens ++ [mark .closeBrace ⟨1, 27⟩]) =
          ⟨.ok read, [mark .closeBrace ⟨1, 27⟩]⟩ ∧
      bare read = bare dividingLoop) := by
  obtain ⟨programs, expressions, statements⟩ := sourceShaped_read_back
  refine ⟨?_, ?_, ?_⟩
  · exact programs dividingProgram dividingProgram_shaped _ rfl
  · exact expressions nestedQuotient nestedQuotient_shaped _ _ rfl rfl
  · exact statements dividingLoop dividingLoop_shaped _ _ rfl nofun

end Scriptlet
