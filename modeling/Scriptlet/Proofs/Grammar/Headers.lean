/-
This file says where a cut through a program does not look like an end that came too soon.
Cut off right behind a whole expression in a loop header, where an assignment or an update
has to stand, the expression is taken for the statement itself and refused. No phrase ends
within a loop header, so what was taken before the cut never hides such a place.
-/

import Scriptlet.ParseError
import Scriptlet.Proofs.Grammar.Brackets

namespace Scriptlet.Grammar

variable {taken left inside kept : List Placed} {error : ParseError}

/-! ### Loop headers -/

/-- What stands in a loop header up to the cut, and the fault found there: the header ends with a
whole expression in the place of a statement that has to be an assignment or an update, and the
expression is neither. -/
inductive Unfinished : List Placed → ParseError → Prop where
  | initializer {first : Placed} {rest : List Placed} {tree : Expr} :
    Derives false .expression (first :: rest) tree →
    ¬ Initializes (.evaluate tree first.position) →
    Unfinished (first :: rest) ⟨.invalidForInitializer, first.position⟩
  | update {start condition : List Placed} {initializer : Statement} {test : Expr}
      {first : Placed} {rest : List Placed} {tree : Expr} (afterStart afterTest : Position) :
    Derives false .simple start initializer → Initializes initializer →
    Derives false .expression condition test →
    Derives false .expression (first :: rest) tree →
    ¬ Advances (.evaluate tree first.position) →
    Unfinished
      (start ++ mark .semicolon afterStart ::
        (condition ++ mark .semicolon afterTest :: first :: rest))
      ⟨.invalidForUpdate, first.position⟩

/-- The cut falls in a loop header, where this fault is found. -/
def HeaderCut (kept : List Placed) (error : ParseError) : Prop :=
  ∃ before start opened inside,
    kept = before ++ word .forWord start :: mark .openParen opened :: inside ∧
      Unfinished inside error

theorem Unfinished.enclosed (unfinished : Unfinished inside error) : Enclosed inside := by
  cases unfinished with
  | initializer derived _ => exact derived.enclosed
  | update afterStart afterTest start _ test step _ =>
    exact start.enclosed.append
      ((test.enclosed.append (step.enclosed.symbol rfl afterTest)).symbol rfl afterStart)

/-- The fault in a header is not that the end came too soon. -/
theorem Unfinished.ne_end (unfinished : Unfinished inside error) (expected : Expected)
    (place : Position) : error ≠ ⟨.unexpectedEnd expected, place⟩ := by
  intro ended
  cases unfinished <;> cases ended

theorem HeaderCut.behind (taken : List Placed) (cut : HeaderCut left error) :
    HeaderCut (taken ++ left) error := by
  obtain ⟨before, start, opened, inside, rfl, unfinished⟩ := cut
  exact ⟨taken ++ before, start, opened, inside, (List.append_assoc _ _ _).symm, unfinished⟩

theorem not_headerCut_nil (error : ParseError) : ¬ HeaderCut [] error := by
  rintro ⟨before, start, opened, inside, whole, -⟩
  cases before <;> cases whole

/-- A cut in the header in front or in what follows within it. -/
theorem HeaderCut.of_header {start opened : Position}
    (cut : HeaderCut (word .forWord start :: mark .openParen opened :: inside) error) :
    Unfinished inside error ∨ HeaderCut inside error := by
  obtain ⟨before, first, second, later, whole, unfinished⟩ := cut
  match before with
  | [] =>
    cases whole
    exact Or.inl unfinished
  | [_] => cases whole
  | _ :: _ :: before =>
    obtain ⟨-, -, rfl⟩ : _ ∧ _ ∧ inside = _ := by
      simpa using whole
    exact Or.inr ⟨before, first, second, later, rfl, unfinished⟩

/-! ### Tokens taken before the cut -/

/-- No header goes on behind these tokens. -/
def Shut (taken : List Placed) : Prop :=
  ∀ left error, HeaderCut (taken ++ left) error → HeaderCut left error

namespace Shut

theorem append {first second : List Placed} (shut : Shut first) (shutSecond : Shut second) :
    Shut (first ++ second) := by
  intro left error cut
  rw [List.append_assoc] at cut
  exact shutSecond _ _ (shut _ _ cut)

/-- A token opens no header but the word for it. -/
theorem single {first : Placed} (other : first.token ≠ .keyword .forWord) : Shut [first] := by
  rintro left error ⟨before, start, opened, inside, whole, unfinished⟩
  cases before with
  | nil =>
    cases whole
    exact absurd rfl other
  | cons placed before =>
    exact ⟨before, start, opened, inside, (List.cons.inj whole).2, unfinished⟩

end Shut

/-- The word of a header whose parenthesis is closed does not stand in front of a cut. -/
theorem Enclosed.shut (enclosed : Enclosed taken) : Shut taken := by
  rintro left error ⟨before, start, opened, inside, whole, unfinished⟩
  rcases List.append_eq_append_iff.mp whole with ⟨more, rfl, leftEq⟩ | ⟨more, rfl, moreEq⟩
  · exact ⟨more, start, opened, inside, leftEq, unfinished⟩
  · cases more with
    | nil => exact ⟨[], start, opened, inside, moreEq.symm, unfinished⟩
    | cons placed more =>
      obtain ⟨rfl, rest⟩ := List.cons.inj moreEq
      obtain ⟨opening, inner, closed, later, rfl, enclosedInner⟩ := enclosed.header_closed
      -- The front that ends with the closing parenthesis has one more closed than opened.
      have insideEq : inside = inner ++ [mark .closeParen closed] ++ (later ++ left) := by
        simpa using (List.cons.inj rest).2
      have held := unfinished.enclosed.openCount_nonneg ⟨_, insideEq.symm⟩
      rw [openCount_append, enclosedInner.openCount_eq] at held
      cases held

/-! ### Faults at a cut -/

/-- The fault found where tokens are cut off: that of a header that is cut through, or else that
the end came too soon. -/
def Diagnosed (place : Position) (kept : List Placed) (error : ParseError) : Prop :=
  HeaderCut kept error ∨
    (∃ expected, error = ⟨.unexpectedEnd expected, place⟩) ∧ ∀ other, ¬ HeaderCut kept other

theorem Diagnosed.behind {place : Position} (shut : Shut taken)
    (diagnosed : Diagnosed place left error) : Diagnosed place (taken ++ left) error := by
  rcases diagnosed with cut | ⟨ended, uncut⟩
  · exact Or.inl (cut.behind taken)
  · exact Or.inr ⟨ended, fun other cut => uncut other (shut _ _ cut)⟩

theorem diagnosed_nil (expected : Expected) (place : Position) :
    Diagnosed place [] ⟨.unexpectedEnd expected, place⟩ :=
  Or.inr ⟨⟨expected, rfl⟩, not_headerCut_nil⟩

end Scriptlet.Grammar
