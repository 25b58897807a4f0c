/-
This file proves that a program that is cut off is reported as incomplete. Whatever front
of a program is kept, it is a program itself or the fault is that the end came too soon, at
the end mark. There is one exception: a cut in a loop header right behind an expression
that is no assignment or update yet is reported as a header that cannot be.
-/

import Scriptlet.Proofs.Grammar.Acceptance
import Scriptlet.Proofs.Lookahead.Decided
import Scriptlet.Proofs.Truncation.Phrases

namespace Scriptlet

open Grammar Scriptlet.Parser

/-- A whole program does not end within a loop header. -/
theorem Program.not_headerCut_of_ofTokens {kept : List Placed} {place : Position}
    {program : Program} (endless : Endless kept)
    (read : Program.ofTokens (kept ++ [endMark place]) = .ok program) (error : ParseError) :
    ¬ HeaderCut kept error := by
  intro cut
  have derived := derives_of_ofTokens read
  rw [beforeEnd_append endless rfl] at derived
  rw [← List.append_nil kept] at cut
  exact not_headerCut_nil error (derived.enclosed.shut _ _ cut)

/-- The fault of a front of a program is that of the cut behind it. -/
theorem Program.diagnosed_of_ofTokens {kept lost : List Placed} {place : Position}
    {program : Program} {error : ParseError} (endless : Endless kept)
    (read : Program.ofTokens (kept ++ lost) = .ok program)
    (failed : Program.ofTokens (kept ++ [endMark place]) = .error error) :
    Diagnosed place kept error := by
  have accepted := program_fitting.at_higher
    (show boundFor (kept ++ lost) ≤ 24 * (kept.length + lost.length + 2) by
      rw [boundFor, List.length_append]
      omega)
  have stopped := program_fitting.at_higher
    (show boundFor (kept ++ [endMark place]) ≤ 24 * (kept.length + lost.length + 2) from
      cut_pays (Nat.le_refl _))
  rw [show (Parser.read Parser.program (kept ++ lost)).outcome = .ok program from read] at accepted
  rw [show (Parser.read Parser.program (kept ++ [endMark place])).outcome = .error error from
    failed] at stopped
  have heard : Heard place (Diagnosed place kept) kept := ⟨endless, id⟩
  have reports := reporting place lost _ (.procedures []) trivial heard (Nat.le_refl _)
  exact reports.result (fun _ => ⟨_, _, accepted⟩) _ _ stopped

/-- Whatever front of a program is kept, its fault is that of the loop header that is cut through
right behind an expression, if there is such a header. Else it is a program, or its only fault is
that the end came too soon, at the end mark. -/
theorem cut_programs_incomplete {tokens kept : List Placed} {program : Program} {ending : Position}
    (endless : Endless tokens) (read : Program.ofTokens (tokens ++ [endMark ending]) = .ok program)
    (cut : kept <+: tokens) (place : Position) :
    (∀ error, HeaderCut kept error →
      Program.ofTokens (kept ++ [endMark place]) = .error error) ∧
    ((∀ error, ¬ HeaderCut kept error) →
      (∃ whole, Program.ofTokens (kept ++ [endMark place]) = .ok whole) ∨
      ∃ expected, Program.ofTokens (kept ++ [endMark place]) =
        .error ⟨.unexpectedEnd expected, place⟩) := by
  obtain ⟨lost, rfl⟩ := cut
  have endlessKept : Endless kept := fun placed member =>
    endless placed (List.mem_append_left lost member)
  rw [List.append_assoc] at read
  cases outcome : Program.ofTokens (kept ++ [endMark place]) with
  | ok whole =>
    exact ⟨fun error header =>
      absurd header (Program.not_headerCut_of_ofTokens endlessKept outcome error),
      fun _ => Or.inl ⟨whole, rfl⟩⟩
  | error found =>
    have diagnosed := Program.diagnosed_of_ofTokens endlessKept read outcome
    refine ⟨fun error header => ?_, fun uncut => Or.inr ?_⟩
    · rcases diagnosed with same | ⟨-, uncut⟩
      · rw [HeaderCut.unique same header]
      · exact absurd header (uncut error)
    · rcases diagnosed with header | ⟨⟨expected, rfl⟩, -⟩
      · exact absurd header (uncut found)
      · exact ⟨expected, rfl⟩

/-- The tokens of `proc main() { for (i++; i; i++) {} }`. -/
def countingLoop : List Placed :=
  [word .procWord ⟨1, 1⟩, named "main" ⟨1, 6⟩, mark .openParen ⟨1, 10⟩, mark .closeParen ⟨1, 11⟩,
    mark .openBrace ⟨1, 13⟩, word .forWord ⟨1, 15⟩, mark .openParen ⟨1, 19⟩, named "i" ⟨1, 20⟩,
    mark .increment ⟨1, 21⟩, mark .semicolon ⟨1, 23⟩, named "i" ⟨1, 25⟩, mark .semicolon ⟨1, 26⟩,
    named "i" ⟨1, 28⟩, mark .increment ⟨1, 29⟩, mark .closeParen ⟨1, 31⟩, mark .openBrace ⟨1, 33⟩,
    mark .closeBrace ⟨1, 34⟩, mark .closeBrace ⟨1, 36⟩]

/-- Cut off behind its first `i`, the loop has an initializer that is no assignment or update. -/
theorem cut_programs_incomplete_counting :
    Program.ofTokens (countingLoop.take 8 ++ [endMark ⟨1, 21⟩]) =
      .error ⟨.invalidForInitializer, ⟨1, 20⟩⟩ := by
  have endless : Endless countingLoop := by
    unfold Endless countingLoop
    decide
  have read : ∃ program, Program.ofTokens (countingLoop ++ [endMark ⟨1, 37⟩]) = .ok program :=
    ⟨_, rfl⟩
  obtain ⟨program, read⟩ := read
  have name : Derives false .expression [named "i" ⟨1, 20⟩] (.identifier "i" ⟨1, 20⟩) :=
    Derives.expression_of_applied (.notApplied (.name "i" ⟨1, 20⟩))
  have header : HeaderCut (countingLoop.take 8) ⟨.invalidForInitializer, ⟨1, 20⟩⟩ := by
    refine ⟨countingLoop.take 5, ⟨1, 15⟩, ⟨1, 19⟩, [named "i" ⟨1, 20⟩], rfl, .initializer name ?_⟩
    rintro (_ | ⟨⟨⟩⟩)
  exact (cut_programs_incomplete endless read (List.take_prefix 8 _) ⟨1, 21⟩).1 _ header

end Scriptlet
