/-
This file ties the tables that the readers look tokens up in to those of the grammar,
and their tests of trees to its side conditions.
-/

import Scriptlet.Proofs.Grammar.Basic

namespace Scriptlet.Grammar

open Scriptlet.Parser

/-! ### Operators -/

/-- An operator stands in the table of its own level and of no other. -/
theorem mem_operators_iff (level : Level) (symbol : Symbol) (connective : Connective) :
    (symbol, connective) ∈ operators level ↔
      symbol.connective? = some connective ∧ connective.level = level := by
  constructor
  · have table : ∀ entry ∈ operators level,
        entry.1.connective? = some entry.2 ∧ entry.2.level = level := by
      cases level <;> decide
    exact fun member => table (symbol, connective) member
  · rintro ⟨found, rfl⟩
    cases symbol <;> cases found <;> decide

/-- The reader of a level takes the operators of its table. -/
theorem connectiveAt?_eq_some_iff (level : Level) (token : Token) (connective : Connective) :
    token.connectiveAt? level = some connective ↔
      ∃ symbol, token = .symbol symbol ∧ (symbol, connective) ∈ operators level := by
  cases token with
  | symbol symbol => simp [Token.connectiveAt?, mem_operators_iff, Option.filter_eq_some_iff]
  | _ => simp [Token.connectiveAt?]

/-- The reader of operands takes the operators of the table of leading ones. -/
theorem leadingOp?_eq_some_iff (token : Token) (op : UnaryOp) :
    leadingOp? token = some op ↔
      ∃ symbol, token = .symbol symbol ∧ (symbol, op) ∈ leadingOperators := by
  cases token with
  | symbol symbol => cases symbol <;> simp [leadingOp?, leadingOperators, eq_comm]
  | _ => simp [leadingOp?]

/-- The reader of assignments takes the signs of the table of compound ones. -/
theorem compound?_eq_some_iff (token : Token) (operation : Arithmetic) :
    token.compound? = some operation ↔
      ∃ symbol, token = .symbol symbol ∧ (symbol, operation) ∈ compoundSigns := by
  cases token with
  | symbol symbol => cases symbol <;> simp [Token.compound?, Symbol.compound?, compoundSigns, eq_comm]
  | _ => simp [Token.compound?]

/-- Each literal is read from the one token that spells it. -/
theorem literal?_eq_some_iff (token : Token) (literal : Literal) :
    literal? token = some literal ↔ token = literalToken literal := by
  constructor
  · intro found
    cases token with
    | keyword keyword =>
      cases keyword with
      | nilWord =>
        cases found
        rfl
      | _ => cases found
    | identifier name => cases found
    | symbol symbol => cases found
    | layout layout => cases found
    | endOfInput => cases found
    | _ =>
      cases found
      rfl
  · rintro rfl
    cases literal with
    | _ => rfl

theorem tighter?_eq_some_iff (level next : Level) :
    level.tighter? = some next ↔ (level, next) ∈ nextLevels := by
  cases level <;> cases next <;> decide

/-- Only products are joined of operands that are not joined themselves. -/
theorem tighter?_eq_none_iff (level : Level) :
    level.tighter? = none ↔ level = .product := by
  cases level <;> decide

/-! ### Side conditions -/

/-- The test for a variable passes variables and nothing else. -/
theorem isVariable_iff (tree : Expr) : isVariable tree = true ↔ Variable tree := by
  constructor
  · intro holds
    cases tree with
    | identifier name position => exact .intro name position
    | _ => cases holds
  · intro holds
    cases holds
    rfl

/-- The test of the last part of a loop header passes what the grammar admits there. -/
theorem canAdvance_iff (statement : Statement) :
    statement.canAdvance = true ↔ Advances statement := by
  constructor
  · intro holds
    unfold Statement.canAdvance at holds
    split at holds
    · exact .assign _ _ _
    · unfold Statement.isUpdate at holds
      split at holds
      · exact .update _ _ _ _ _
      · cases holds
  · intro holds
    cases holds with
    | assign name value position => rfl
    | update step yield operand place position => rfl

/-- The test of the first part of a loop header passes what the grammar admits there. -/
theorem canInitialize_iff (statement : Statement) :
    statement.canInitialize = true ↔ Initializes statement := by
  constructor
  · intro holds
    cases statement with
    | declare name value mutability position => exact .declare name value mutability position
    | _ => exact .advances ((canAdvance_iff _).mp holds)
  · intro holds
    cases holds with
    | declare name value mutability position => rfl
    | advances advances =>
      cases advances with
      | assign name value position => rfl
      | update step yield operand place position => rfl

end Scriptlet.Grammar
