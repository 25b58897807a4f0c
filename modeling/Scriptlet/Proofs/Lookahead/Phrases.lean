/-
This file proves that readers of phrases and of programs look one token ahead and no
further. A recipe that meets its terms is settled by what it takes and the next token if
the goals it turns to are, so every goal is. A bound that pays for the tokens of a list,
and once more for their end, is never used up, whether the list has an end mark or runs
dry; so a goal comes to the same with every higher bound.
-/

import Scriptlet.Proofs.Lookahead.Settling

namespace Scriptlet.Parser

open Grammar

variable {tokens : List Placed}

/-- Goals whose bound pays for the tokens left, and once more for their end, are settled by what
they take and the next token, also for readers with the higher bound. -/
def Settling (bound higher : Nat) : Prop :=
  ∀ (goal : Goal) {tokens}, goal.Ready tokens → 24 * (tokens.length + 1) ≤ bound + goal.rank →
    Settles (goal.reader bound) (goal.reader higher) tokens

namespace Settling

variable {bound higher : Nat}

theorem listed (settling : Settling bound higher) (le : bound ≤ higher) (listed : Listed)
    (pays : 24 * (tokens.length + 1) ≤ bound) :
    Settles (listed.reader bound) (listed.reader higher) tokens := by
  cases listed with
  | parameters => exact .parameters le (by omega)
  | arguments =>
    refine .commaSeparated (takes_expression bound) (fun fits => ?_) le (Nat.le_refl _) (by omega)
    exact settling .expression trivial (by omega)

/-- Following a recipe that meets its terms is settled by what is taken and the next token. -/
theorem of_meets (settling : Settling bound higher) (le : bound ≤ higher) {α : Type}
    {terms : Terms α} {fresh : Bool} {last : Placed} {recipe : Recipe α}
    (meets : Meets terms fresh last recipe tokens)
    (paid : terms.Paid bound fresh (tokens.length + 1)) :
    Settles (recipe.run bound) (recipe.run higher) tokens := by
  induction meets with
  | done yields => exact .pure _
  | fail blames => exact .fail _ _
  | reject rejects => exact .fail _ _
  | look _ inductionHypothesis => exact .peek (inductionHypothesis paid)
  | take inside _ _ inductionHypothesis =>
    exact .skip inside fun shorter => inductionHypothesis (paid.shorter (Nat.succ_lt_succ shorter))
  | advance _ _ inductionHypothesis =>
    refine .bind (.advance _) fun found rest came => ?_
    obtain ⟨start, inside⟩ := advance_ok came
    subst start
    exact inductionHypothesis found rest rfl inside (paid.shorter (Nat.lt_succ_self _))
  | read ready deeper _ inductionHypothesis =>
    refine .bind (settling _ ready (paid.for_goal deeper)) fun tree rest came => ?_
    have took := sound bound _ ready came
    obtain ⟨taken, rfl, -, filled⟩ := took.passed
    refine inductionHypothesis tree rest took (paid.behind ?_ filled)
    rw [List.length_append]
    omega
  | list _ inductionHypothesis =>
    refine .andThen (takes_listed _ bound) (settling.listed le _ paid.for_list)
      fun items rest came shorter => ?_
    exact inductionHypothesis items rest ((sound bound).listed came)
      (paid.shorter (Nat.succ_lt_succ shorter))

end Settling

/-- Goals are settled, whatever their bound is, as long as it pays. -/
theorem settling {bound higher : Nat} (le : bound ≤ higher) : Settling bound higher := by
  induction bound generalizing higher with
  | zero =>
    intro goal tokens _ pays
    have small := goal.rank_lt
    omega
  | succ bound inductionHypothesis =>
    obtain ⟨higher, rfl⟩ := Nat.exists_eq_add_one_of_ne_zero (show higher ≠ 0 by omega)
    have below : bound ≤ higher := Nat.le_of_succ_le_succ le
    intro goal tokens ready pays
    rw [goal.reader_succ, goal.reader_succ]
    exact (inductionHypothesis below).of_meets below (goal.meets tokens ready) (.of_goal pays)

/-- What is asked of the reader of a procedure. -/
def procedureTerms (defined : List String) (tokens : List Placed) : Terms Procedure :=
  .between (TookProcedure defined tokens) fun _ _ => False

theorem procedure_meets (defined : List String) (tokens : List Placed) :
    Meets (procedureTerms defined tokens) true (front tokens) (.procedure defined .done) tokens :=
  .procedure fun _ _ took => .done took

theorem run_procedure_done (bound : Nat) (defined : List String) :
    (Recipe.procedure defined .done).run bound = procedure bound defined := by
  simp

theorem procedure_settles {bound higher : Nat} (le : bound ≤ higher) (defined : List String)
    (pays : 24 * (tokens.length + 1) ≤ bound + 1) :
    Settles (procedure bound defined) (procedure higher defined) tokens := by
  rw [← run_procedure_done, ← run_procedure_done]
  exact (settling le).of_meets le (procedure_meets defined tokens) pays

end Scriptlet.Parser
