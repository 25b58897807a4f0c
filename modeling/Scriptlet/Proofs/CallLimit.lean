/-
This file proves that the limit on nested calls only decides whether a run overflows. A
lower limit is a restraint: the run under it does what the run under the higher limit does
until a call is refused, and a refusal ends the run, for nothing on the way out takes notice
of it. So a run that is not refused a call is the same under every higher limit, and a run
that is refused one is refused one, no later, under every lower limit.
-/

import Scriptlet.Proofs.EntryCall
import Scriptlet.Proofs.Restraint

namespace Scriptlet

/-! ### The restraint of a lower limit -/

/-- Runs under a limit on nested calls and under a higher one, or none. -/
def Restraint.ofCalls (limit : Nat) : Restraint where
  along held free := held = free
  stopped interrupt held free :=
    interrupt = .fault ⟨.stackOverflow limit, none⟩ ∧ held.Extends free
  lasting stopped more := ⟨stopped.1, stopped.2.trans more⟩

theorem Restraint.governs_ofCalls (context : Context) {limit : Nat}
    (lower : context.maxDepth ≤ limit) :
    (ofCalls context.maxDepth).Governs context { context with maxDepth := limit } where
  write position text := by
    rintro machine sink rfl
    exact .refl rfl
  allowCall := by
    rintro machine sink rfl
    rw [Eval.allowCall_apply, Eval.allowCall_apply]
    by_cases refused : context.maxDepth ≤ machine.depth
    · -- The lower limit refuses the call, whatever the higher one does.
      rw [if_pos refused]
      refine Or.inr ⟨_, _, rfl, rfl, ?_⟩
      split <;> exact .refl machine.sink
    · have admitted : ¬ limit ≤ machine.depth := fun full => refused (Nat.le_trans lower full)
      rw [if_neg refused, if_neg admitted]
      exact .refl rfl

/-- Under a lower limit a call comes to the same or is refused a call, with no more output. -/
theorem Eval.callClosure_of_lower (context : Context) (limit : Nat)
    (lower : context.maxDepth ≤ limit) (budget : Nat) (closure : Closure) (arguments : List Value)
    (position : Position) (machine : Machine) :
    callClosure context budget closure arguments position machine =
        callClosure { context with maxDepth := limit } budget closure arguments position machine ∨
      ∃ last, callClosure context budget closure arguments position machine =
          .error (.fault ⟨.stackOverflow context.maxDepth, none⟩) last ∧
        last.sink.Extends ((callClosure { context with maxDepth := limit } budget closure arguments
          position).after machine).sink := by
  have follows := Task.perform_under (Restraint.governs_ofCalls context lower) budget
    (.callClosure closure arguments position) machine machine.sink rfl
  rcases follows with ⟨sink, rfl, same⟩ | ⟨interrupt, last, ended, rfl, extended⟩
  · exact Or.inl (same.trans (Outcome.onMachine_sink _))
  · exact Or.inr ⟨last, ended, extended⟩

/-! ### Entry calls -/

/-- A call was refused because too many were under way. -/
def Outcome.overflowed {α : Type} : Outcome α → Bool
  | .error (.fault ⟨.stackOverflow _, _⟩) _ => true
  | _ => false

/-- With every budget and every sink: an entry call that is not refused a call comes to the same
under every higher limit, with the same variables and output; an entry call that is refused one
is refused one under every lower limit, and what it has written then is the front of what it has
written under the higher limit. -/
theorem callLimit_only_decides_overflow (program : Program) (entry : String) (sink : Sink)
    (budget limit : Nat) (outcome : Outcome Value)
    (called : (Interpreter.new ⟨entry, limit⟩ sink).entryCall? budget program = some outcome) :
    (outcome.overflowed = false → ∀ more, limit ≤ more →
      (Interpreter.new ⟨entry, more⟩ sink).entryCall? budget program = some outcome) ∧
    (outcome.overflowed = true → ∀ less, less ≤ limit → ∃ shorter,
      (Interpreter.new ⟨entry, less⟩ sink).entryCall? budget program = some shorter ∧
      shorter.overflowed = true ∧ shorter.machine.sink.Extends outcome.machine.sink) := by
  obtain ⟨closure, present, came⟩ := Option.map_eq_some_iff.mp called
  constructor
  · intro calm more higher
    refine Option.map_eq_some_iff.mpr ⟨closure, present, ?_⟩
    rcases Eval.callClosure_of_lower ((Interpreter.new ⟨entry, limit⟩ sink).load program).context
        more higher budget closure [] closure.procedure.position
        ((Interpreter.new ⟨entry, limit⟩ sink).load program).machine with same | ⟨last, refused, -⟩
    · exact same.symm.trans came
    · rw [came.symm.trans refused] at calm
      cases calm
  · intro overflowed less lower
    refine ⟨_, Option.map_eq_some_iff.mpr ⟨closure, present, rfl⟩, ?_⟩
    rcases Eval.callClosure_of_lower ((Interpreter.new ⟨entry, less⟩ sink).load program).context
        limit lower budget closure [] closure.procedure.position
        ((Interpreter.new ⟨entry, less⟩ sink).load program).machine with
      same | ⟨last, refused, extended⟩
    · rw [same.trans came]
      exact ⟨overflowed, .refl outcome.machine.sink⟩
    · rw [refused, ← came]
      exact ⟨rfl, extended⟩

/-- A program that writes and then calls itself without end. -/
def endlessProgram : Program :=
  ⟨[⟨"main", [], [
    .evaluate (.call (.identifier "print" ⟨1, 15⟩) [.literal (.int 7) ⟨1, 21⟩] ⟨1, 20⟩) ⟨1, 15⟩,
    .leave (some (.call (.identifier "main" ⟨1, 32⟩) [] ⟨1, 36⟩)) ⟨1, 25⟩], ⟨1, 1⟩⟩]⟩

/-- A program with one call, which ends. -/
def shallowProgram : Program :=
  ⟨[⟨"main", [], [.leave (some (.literal (.int 7) ⟨1, 22⟩)) ⟨1, 15⟩], ⟨1, 1⟩⟩]⟩

/-- One call is enough for the second program, and no limit is for the first. -/
theorem callLimit_only_decides_overflow_endless :
    (∃ outcome, (Interpreter.new ⟨"main", 1⟩ {}).entryCall? 9 shallowProgram = some outcome ∧
      outcome.overflowed = false ∧
      (Interpreter.new ⟨"main", 9⟩ {}).entryCall? 9 shallowProgram = some outcome) ∧
    ∃ outcome, (Interpreter.new ⟨"main", 3⟩ {}).entryCall? 50 endlessProgram = some outcome ∧
      outcome.overflowed = true ∧
      ∃ shorter, (Interpreter.new ⟨"main", 1⟩ {}).entryCall? 50 endlessProgram = some shorter ∧
        shorter.overflowed = true ∧ shorter.machine.sink.Extends outcome.machine.sink := by
  constructor
  · have ended : ((Interpreter.new ⟨"main", 1⟩ {}).entryCall? 9 shallowProgram).map
        Outcome.overflowed = some false := by decide +kernel
    obtain ⟨outcome, called, calm⟩ := Option.map_eq_some_iff.mp ended
    exact ⟨outcome, called, calm,
      (callLimit_only_decides_overflow _ _ _ _ _ _ called).1 calm 9 (by decide)⟩
  · have ended : ((Interpreter.new ⟨"main", 3⟩ {}).entryCall? 50 endlessProgram).map
        Outcome.overflowed = some true := by decide +kernel
    obtain ⟨outcome, called, overflowed⟩ := Option.map_eq_some_iff.mp ended
    exact ⟨outcome, called, overflowed,
      (callLimit_only_decides_overflow _ _ _ _ _ _ called).2 overflowed 1 (by decide)⟩

end Scriptlet
