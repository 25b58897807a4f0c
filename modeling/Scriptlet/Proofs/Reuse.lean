/-
This file compares a run on an interpreter that has been used, and whose output may fail,
with the run of the same program on a new interpreter whose output takes everything. Apart
from errors of the output, the first run ends with an error only if the second one ends with
the same error.

Failing output is a restraint: the run does what it does with output that takes everything,
until a text is refused. And an interpreter is as good as new between runs, whether or not
its output fails.
-/

import Scriptlet.Proofs.Independence
import Scriptlet.Proofs.Restraint

namespace Scriptlet

/-! ### Output that may fail -/

/-- Runs with any sink and with one that takes everything. -/
def Restraint.anyOutput : Restraint where
  along _ free := free.limit = none
  stopped interrupt _ _ := ∃ details position, interrupt = .fault ⟨.output details, some position⟩
  lasting := fun failed _ => failed

theorem Restraint.governs_anyOutput (context : Context) : anyOutput.Governs context context where
  write position text := by
    intro machine sink unlimited
    have free : Eval.write position text machine =
        .ok () { machine with sink := machine.sink.appending text.toUTF8 } :=
      Eval.onSink_of_ok (Sink.write_of_unlimited unlimited text)
    rw [free]
    have written := Sink.write_apply text sink
    by_cases fits : sink.fits text.toUTF8 = true
    · rw [if_pos fits] at written
      exact Or.inl ⟨sink.take text.toUTF8, unlimited, Eval.onSink_of_ok written⟩
    · rw [if_neg fits] at written
      exact Or.inr ⟨_, _, Eval.onSink_of_error written, sink.failure, position, rfl⟩
  allowCall := by
    intro machine sink unlimited
    rw [Eval.allowCall_apply, Eval.allowCall_apply]
    by_cases refused : context.maxDepth ≤ machine.depth
    · rw [if_pos refused, if_pos refused]
      exact Or.inl ⟨sink, unlimited, rfl⟩
    · rw [if_neg refused, if_neg refused]
      exact Or.inl ⟨sink, unlimited, rfl⟩

namespace Interpreter

/-- The interpreter with another sink. -/
def writingTo (interpreter : Interpreter) (sink : Sink) : Interpreter :=
  { interpreter with machine := { interpreter.machine with sink } }

/-- An entry call with any output follows the call with output that takes everything. -/
theorem entryCall?_writingTo {interpreter : Interpreter} {budget : Nat} {program : Program}
    {outcome : Outcome Value}
    (called : interpreter.entryCall? budget program = some outcome) :
    ∃ free, (interpreter.writingTo {}).entryCall? budget program = some free ∧
      Restraint.anyOutput.Follows outcome free := by
  obtain ⟨entry, present, came⟩ := Option.map_eq_some_iff.mp called
  refine ⟨_, Option.map_eq_some_iff.mpr ⟨entry, present, rfl⟩, ?_⟩
  rw [← came]
  exact Task.perform_under (Restraint.governs_anyOutput _) budget
    (.callClosure entry [] entry.procedure.position)
    ((interpreter.writingTo {}).load program).machine interpreter.machine.sink rfl

/-! ### Between runs -/

namespace Idle

variable {config : Config} {sink : Sink} {interpreter : Interpreter}

theorem writingTo (idle : interpreter.Idle config sink) (other : Sink) :
    (interpreter.writingTo other).Idle config other :=
  ⟨idle.config, idle.globals, idle.root, idle.depth, .refl other⟩

/-- An interpreter is idle behind a run, also if its output has failed. -/
theorem behind (idle : interpreter.Idle config sink) (budget : Nat) (program : Program) :
    (interpreter.run budget program).interpreter.Idle config sink := by
  cases called : interpreter.entryCall? budget program with
  | none =>
    rw [run_of_entryCall?_none called]
    exact idle.load program
  | some outcome =>
    rw [(run_cases_of_entryCall?_some called).1]
    obtain ⟨entry, present, came⟩ := Option.map_eq_some_iff.mp called
    exact (idle.load program).call came

theorem behindAll (idle : interpreter.Idle config sink) (runs : List (Nat × Program)) :
    (interpreter.after runs).Idle config sink := by
  induction runs generalizing interpreter with
  | nil => exact idle
  | cons first rest inductionHypothesis => exact inductionHypothesis (idle.behind first.1 first.2)

end Idle

/-! ### Errors -/

/-- An error that is none of the output is that of the run with output that takes everything. -/
theorem error_writingTo {interpreter : Interpreter} {budget : Nat} {program : Program}
    {error : RuntimeError}
    (failed : (interpreter.run budget program).outcome = .error (.fault error))
    (unrelated : ∀ details, error.fault ≠ .output details) :
    ((interpreter.writingTo {}).run budget program).outcome = .error (.fault error) := by
  cases called : interpreter.entryCall? budget program with
  | none =>
    have calledFree : (interpreter.writingTo {}).entryCall? budget program = none :=
      Option.map_eq_none_iff.mpr (Option.map_eq_none_iff.mp called)
    rw [run_of_entryCall?_none called] at failed
    rw [run_of_entryCall?_none calledFree]
    exact failed
  | some outcome =>
    obtain ⟨free, calledFree, follows⟩ := entryCall?_writingTo called
    rw [run_of_entryCall?_some rfl calledFree]
    obtain ⟨-, same | ⟨details, position, refused⟩⟩ := run_cases_of_entryCall?_some called
    · rw [same] at failed
      rcases follows with ⟨sink, -, rfl⟩ | ⟨_, _, rfl, details, position, rfl⟩
      · cases free with
        | ok value machine => cases failed
        | error interrupt machine => exact failed
      · cases failed
        exact absurd rfl (unrelated details)
    · rw [refused] at failed
      cases failed
      exact absurd rfl (unrelated details)

/-- Behind any number of runs, however these have ended, and with any output: an error that is none
of the output is that of the run on a new interpreter with output that takes everything. -/
theorem error_after {config : Config} {sink : Sink} {runs : List (Nat × Program)} {budget : Nat}
    {program : Program} {error : RuntimeError}
    (failed : (((new config sink).after runs).run budget program).outcome = .error (.fault error))
    (unrelated : ∀ details, error.fault ≠ .output details) :
    ((new config {}).run budget program).outcome = .error (.fault error) := by
  have idle := ((Idle.new config sink).behindAll runs).writingTo {}
  have repeats : Repeats _ (new config {}) budget program :=
    idle.repeats ⟨rfl, rfl⟩ ⟨rfl, rfl⟩ budget program
  have same := repeats.outcome
  rw [error_writingTo failed unrelated] at same
  -- A relocation changes values only, so both runs have the same error.
  cases came : ((new config {}).run budget program).outcome with
  | ok value =>
    rw [came] at same
    cases same
  | error interrupt =>
    rw [came] at same
    exact same.symm

end Interpreter

end Scriptlet
