/-
This file moves phrases between the levels of binding. What binds tighter may stand where
something looser is looked for: an operand without operators between operands is one of
every level, and what is joined at some level is an expression.
-/

import Scriptlet.Proofs.Grammar.Basic

namespace Scriptlet.Grammar

variable {extending : Bool} {tokens : List Placed} {tree : Expr}

/-- An operand without operators between operands is one of every level. -/
theorem Derives.operand_of_unary (derived : Derives extending .unary tokens tree) (level : Level) :
    Derives extending (.operand level) tokens tree := by
  have product : Derives extending (.operand .product) tokens tree := .tightest derived
  have sum : Derives extending (.operand .sum) tokens tree := .tighter (by decide) (.single product)
  have relation : Derives extending (.operand .relation) tokens tree :=
    .tighter (by decide) (.single sum)
  have equality : Derives extending (.operand .equality) tokens tree :=
    .tighter (by decide) (.single relation)
  have both : Derives extending (.operand .both) tokens tree :=
    .tighter (by decide) (.single equality)
  have either : Derives extending (.operand .either) tokens tree :=
    .tighter (by decide) (.single both)
  cases level with
  | _ => assumption

/-- What is joined at a level is an expression. -/
theorem Derives.expression_of_joined {level : Level}
    (derived : Derives extending (.joined level) tokens tree) :
    Derives extending .expression tokens tree := by
  have looser : ∀ {level next : Level}, (level, next) ∈ nextLevels →
      Derives extending (.joined next) tokens tree →
      Derives extending (.joined level) tokens tree :=
    fun member inner => .single (.tighter member inner)
  have both : Derives extending (.joined .both) tokens tree →
      Derives extending .expression tokens tree := looser (by decide)
  have equality : Derives extending (.joined .equality) tokens tree →
      Derives extending .expression tokens tree := fun inner => both (looser (by decide) inner)
  have relation : Derives extending (.joined .relation) tokens tree →
      Derives extending .expression tokens tree := fun inner => equality (looser (by decide) inner)
  have sum : Derives extending (.joined .sum) tokens tree →
      Derives extending .expression tokens tree := fun inner => relation (looser (by decide) inner)
  have product : Derives extending (.joined .product) tokens tree →
      Derives extending .expression tokens tree := fun inner => sum (looser (by decide) inner)
  cases level with
  | either => exact derived
  | both => exact both derived
  | equality => exact equality derived
  | relation => exact relation derived
  | sum => exact sum derived
  | product => exact product derived

theorem Derives.unary_of_primary (derived : Derives extending .primary tokens tree) :
    Derives extending .unary tokens tree :=
  .unled (.notUpdated (.notApplied derived))

theorem Derives.expression_of_unary (derived : Derives extending .unary tokens tree) :
    Derives extending .expression tokens tree :=
  .single (derived.operand_of_unary .either)

/-- An operand without operators is an expression. -/
theorem Derives.expression_of_applied (derived : Derives extending .applied tokens tree) :
    Derives extending .expression tokens tree :=
  Derives.expression_of_unary (.unled (.notUpdated derived))

end Scriptlet.Grammar
