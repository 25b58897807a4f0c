/-
This file proves that a program that cannot be read has its fault at one of its tokens.
A recipe that meets its terms points at tokens if the goals it turns to do, so every goal
does. A bound that pays for the tokens left is never used up, with the prices that goals
have where they are taken to their end.
-/

import Scriptlet.Proofs.Diagnostics.Pointing

namespace Scriptlet

open Grammar

variable {stream tokens rest : List Placed} {error : ParseError}

/-! ### Refusals -/

theorem ParseError.Located.mono (located : error.Located tokens) (within : tokens ⊆ stream) :
    error.Located stream := by
  obtain ⟨placed, member, blames⟩ := located
  exact ⟨placed, within member, blames⟩

/-- The fault in a loop header is reported at the first token of an expression in it. -/
theorem Grammar.Unfinished.located {inside : List Placed} (unfinished : Unfinished inside error) :
    error.Located inside := by
  cases unfinished with
  | initializer derived _ =>
    have inside := derived.endless _ List.mem_cons_self
    exact ⟨_, List.mem_cons_self, Parser.Blames.of_ne_end inside fun _ same => by cases same⟩
  | update _ _ _ _ _ derived _ =>
    have inside := derived.endless _ List.mem_cons_self
    exact ⟨_, by simp, Parser.Blames.of_ne_end inside fun _ same => by cases same⟩

namespace Parser

/-- What is refused by a goal is reported at a token that it has taken. -/
theorem Goal.Rejects.located {goal : Goal} (rejects : goal.Rejects tokens error rest) :
    error.Located tokens := by
  cases goal with
  | unary =>
    obtain ⟨symbol, _, _, position, _, _, -, rfl, -, -, rfl⟩ := rejects
    exact ⟨mark symbol position, List.mem_cons_self,
      Blames.of_ne_end (fun same => by cases same) fun _ same => by cases same⟩
  | counterLoop =>
    obtain ⟨_, _, inside, rfl, unfinished⟩ := rejects
    refine unfinished.located.mono fun placed member => ?_
    exact List.mem_cons_of_mem _ (List.mem_cons_of_mem _ (List.mem_append_left rest member))
  | _ => exact rejects.elim

/-! ### Goals -/

/-- Goals with a bound that pays for the tokens left report their faults at tokens of the stream. -/
def Pointing (stream : List Placed) (bound : Nat) : Prop :=
  ∀ (goal : Goal) {tokens}, goal.Ready tokens → Remains stream tokens →
    24 * tokens.length ≤ bound + goal.rank → Points stream (goal.reader bound) tokens

namespace Pointing

variable {bound : Nat}

theorem listed (pointing : Pointing stream bound) (listed : Listed)
    (remains : Remains stream tokens) (pays : 24 * tokens.length ≤ bound) :
    Points stream (listed.reader bound) tokens := by
  have less : tokens.length ≤ bound := by omega
  cases listed with
  | parameters => exact .parameters remains less
  | arguments =>
    refine .commaSeparated (takes_expression bound) (fun remains fits => ?_) remains
      (Nat.le_refl _) less
    exact pointing .expression trivial remains (by omega)

/-- Following a recipe that meets its terms points at tokens, if what it refuses stands there. -/
theorem of_meets (pointing : Pointing stream bound) {α : Type} {terms : Terms α}
    (refused : ∀ error rest, terms.rejects error rest → error.Located stream) {fresh : Bool}
    {last : Placed} {recipe : Recipe α} (meets : Meets terms fresh last recipe tokens)
    (seen : last ∈ stream) (remains : Remains stream tokens)
    (paid : terms.Paid bound fresh tokens.length) : Points stream (recipe.run bound) tokens := by
  induction meets with
  | done yields => exact .pure _
  | fail blames => exact .fail seen blames
  | reject rejects =>
    intro stop rest stopped
    cases stopped
    exact ⟨_, rfl, refused _ _ rejects⟩
  | look _ inductionHypothesis => exact .peek (inductionHypothesis remains.front_mem remains paid)
  | take inside _ _ inductionHypothesis =>
    exact .skip remains inside fun remainsTail shorter =>
      inductionHypothesis seen remainsTail (paid.shorter shorter)
  | advance _ _ inductionHypothesis =>
    refine .bind remains (takes_advance _) (.advance remains _)
      fun found rest came remainsRest shorter => ?_
    obtain ⟨start, inside⟩ := advance_ok came
    exact inductionHypothesis found rest start inside (Points.advanced remains came).1 remainsRest
      (paid.shorter shorter)
  | read ready deeper _ inductionHypothesis =>
    refine .andThen (pointing _ ready remains (paid.for_goal deeper)) fun tree rest came => ?_
    have took := sound bound _ ready came
    obtain ⟨taken, rfl, passed, filled⟩ := took.passed
    have remainsRest := remains.behind passed.1
    exact inductionHypothesis tree rest took remainsRest.front_mem remainsRest
      (paid.behind (Nat.le_of_eq List.length_append.symm) filled)
  | list _ inductionHypothesis =>
    refine .bind remains (takes_listed _ bound) (pointing.listed _ remains paid.for_list)
      fun items rest came remainsRest shorter => ?_
    exact inductionHypothesis items rest ((sound bound).listed came) remainsRest.front_mem
      remainsRest (paid.shorter shorter)

end Pointing

/-- Goals point at tokens of the stream, whatever their bound is, as long as it pays. -/
theorem pointing (stream : List Placed) (bound : Nat) : Pointing stream bound := by
  induction bound with
  | zero =>
    intro goal tokens _ remains pays
    have filled := remains.length_pos
    have small := goal.rank_lt
    omega
  | succ bound inductionHypothesis =>
    intro goal tokens ready remains pays
    rw [goal.reader_succ]
    refine inductionHypothesis.of_meets (fun error rest rejects => ?_) (goal.meets tokens ready)
      remains.front_mem remains (.of_goal pays)
    exact (Goal.Rejects.located rejects).mono remains.suffix.subset

end Parser

/-- A token list with an end mark that is no program has a fault at one of its tokens. -/
theorem Program.located_of_ofTokens {tokens : List Placed} {error : ParseError}
    (ended : ¬ Endless tokens) (failed : Program.ofTokens tokens = .error error) :
    error.Located tokens := by
  have pays : 24 * tokens.length ≤ Parser.boundFor tokens :=
    Nat.mul_le_mul_left 24 (Nat.le_succ _)
  have remains : Remains tokens tokens := ⟨List.suffix_refl tokens, ended⟩
  have points : Parser.Points tokens (Parser.program (Parser.boundFor tokens)) tokens :=
    (Parser.pointing tokens _ (.procedures []) trivial remains pays).result
  unfold Program.ofTokens Parser.read at failed
  split at failed
  · cases failed
  · rename_i stop rest stopped
    obtain ⟨found, same, located⟩ := points stop rest stopped
    subst same
    cases failed
    exact located

end Scriptlet
