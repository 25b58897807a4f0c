/-
This file compares a run with the same run under a restraint: a tighter limit on nested
calls or on output. The restrained run does what the free run does, step by step, until the
restraint stops it. From then on it does nothing, while the free run may go on and add to
its output.

So the outcomes of the two runs are the same but for the sink, or the restrained run has
been stopped. This is kept by every quiet step, and it is kept by plans if it is by the
tasks they start. What a restraint does is said by the two steps that are not quiet.
-/

import Scriptlet.Proofs.Assembly

namespace Scriptlet

/-- What keeps one run from doing all that another one does. -/
structure Restraint where
  /-- The sink of the restrained run and that of the free run while the runs go along. -/
  along : Sink → Sink → Prop
  /-- What has stopped the restrained run, its sink, and the sink of the free run. -/
  stopped : Interrupt → Sink → Sink → Prop
  /-- It does not matter what else the free run writes. -/
  lasting : ∀ {interrupt held free later}, stopped interrupt held free → free.Extends later →
    stopped interrupt held later

/-! ### Outcomes -/

/-- The outcome of the restrained run is that of the free run, but for the sink, or the restrained
run has been stopped. -/
def Restraint.Follows (restraint : Restraint) {α : Type} (held free : Outcome α) : Prop :=
  (∃ sink, restraint.along sink free.machine.sink ∧
    held = free.onMachine fun machine => { machine with sink }) ∨
  ∃ interrupt machine, held = .error interrupt machine ∧
    restraint.stopped interrupt machine.sink free.machine.sink

theorem Outcome.onMachine_sink {α : Type} (outcome : Outcome α) :
    (outcome.onMachine fun machine => { machine with sink := outcome.machine.sink }) = outcome := by
  cases outcome with
  | ok value machine => rfl
  | error interrupt machine => rfl

/-- An outcome follows itself if its sink may go along with itself. -/
theorem Restraint.Follows.refl {restraint : Restraint} {α : Type} {outcome : Outcome α}
    (along : restraint.along outcome.machine.sink outcome.machine.sink) :
    restraint.Follows outcome outcome :=
  Or.inl ⟨outcome.machine.sink, along, outcome.onMachine_sink.symm⟩

namespace Eval

variable {α β : Type} {restraint : Restraint}

/-- From machines with sinks that go along, the first step follows the second. -/
def Under (restraint : Restraint) (held free : Eval α) : Prop :=
  ∀ machine sink, restraint.along sink machine.sink →
    restraint.Follows (held { machine with sink }) (free machine)

namespace Under

/-- A quiet step is the same under every restraint. -/
theorem of_quiet {step : Eval α} (quiet : step.Quiet) : step.Under restraint step := by
  intro machine sink along
  refine Or.inl ⟨sink, ?_, ?_⟩
  · have same : (Outcome.machine (step machine)).sink = machine.sink :=
      (quiet.machine_eq machine).1
    rw [same]
    exact along
  · have moved := quiet machine sink machine.depth
    have sameDepth : (Outcome.machine (step machine)).depth = machine.depth :=
      (quiet.machine_eq machine).2
    rw [moved]
    cases came : step machine with
    | ok value later =>
      rw [came] at sameDepth
      rw [← sameDepth]
      rfl
    | error interrupt later =>
      rw [came] at sameDepth
      rw [← sameDepth]
      rfl

/-- Once the restrained run has been stopped, the rest of the free run only adds to the output. -/
theorem bind {held free : Eval α} {next following : α → Eval β} (first : held.Under restraint free)
    (rest : ∀ value, (next value).Under restraint (following value))
    (appends : ∀ value, (following value).Has .appending) :
    (held >>= next).Under restraint (free >>= following) := by
  intro machine sink along
  rcases first machine sink along with ⟨later, stillAlong, same⟩ | ⟨interrupt, last, ended, stopped⟩
  · cases came : free machine with
    | ok value middle =>
      rw [came] at same stillAlong
      rw [EStateM.bind_of_ok same, EStateM.bind_of_ok came]
      exact rest value middle later stillAlong
    | error interrupt middle =>
      rw [came] at same stillAlong
      rw [EStateM.bind_of_error same, EStateM.bind_of_error came]
      exact Or.inl ⟨later, stillAlong, rfl⟩
  · rw [EStateM.bind_of_error ended]
    refine Or.inr ⟨interrupt, last, rfl, ?_⟩
    cases came : free machine with
    | ok value middle =>
      rw [came] at stopped
      rw [EStateM.bind_of_ok came]
      exact restraint.lasting stopped (appends value middle).1
    | error other middle =>
      rw [came] at stopped
      rw [EStateM.bind_of_error came]
      exact stopped

theorem deeper {held free : Eval α} (under : held.Under restraint free) :
    held.deeper.Under restraint free.deeper := by
  intro machine sink along
  unfold Eval.deeper
  rcases under { machine with depth := machine.depth + 1 } sink along with
    ⟨later, stillAlong, same⟩ | ⟨interrupt, last, ended, stopped⟩
  · rw [same]
    refine Or.inl ⟨later, ?_⟩
    cases came : free { machine with depth := machine.depth + 1 } with
    | ok value middle =>
      rw [came] at stillAlong
      exact ⟨stillAlong, rfl⟩
    | error interrupt middle =>
      rw [came] at stillAlong
      exact ⟨stillAlong, rfl⟩
  · rw [ended]
    refine Or.inr ⟨interrupt, { last with depth := last.depth - 1 }, rfl, ?_⟩
    cases came : free { machine with depth := machine.depth + 1 } with
    | ok value middle =>
      rw [came] at stopped
      exact stopped
    | error other middle =>
      rw [came] at stopped
      exact stopped

end Under

end Eval

/-! ### Runs -/

/-- What a restraint does when a text is written and when a call is admitted, under the limits of
the restrained and the free run. -/
structure Restraint.Governs (restraint : Restraint) (context other : Context) : Prop where
  write : ∀ position text,
    (Eval.write position text).Under restraint (Eval.write position text)
  allowCall : (Eval.allowCall context).Under restraint (Eval.allowCall other)

theorem Plan.Matched.under {restraint : Restraint} {context other : Context} {α : Type}
    {plan second : Plan α} (matched : Plan.Matched context other plan second)
    (governs : restraint.Governs context other)
    {perform performOther : (task : Task) → Eval task.Answer}
    (each : ∀ task, (perform task).Under restraint (performOther task))
    (appends : ∀ task, (performOther task).Has .appending) :
    (plan.run perform).Under restraint (second.run performOther) := by
  induction matched with
  | quiet quiet => exact .of_quiet quiet
  | write position text => exact governs.write position text
  | allowCall => exact governs.allowCall
  | start task => exact each task
  | startDeeper task => exact (each task).deeper
  | bind _ rest firstUnder restUnder =>
    rw [run_bind, run_bind]
    exact firstUnder.bind restUnder fun value => (rest value).appends appends

/-- A task follows the same task without the restraint, whatever the budget. -/
theorem Task.perform_under {restraint : Restraint} {context : Context} {limit : Nat}
    (governs : restraint.Governs context { context with maxDepth := limit }) (budget : Nat)
    (task : Task) :
    (task.perform context budget).Under restraint
      (task.perform { context with maxDepth := limit } budget) := by
  induction budget generalizing task with
  | zero =>
    intro machine sink along
    rw [perform_zero, perform_zero]
    exact Or.inl ⟨sink, along, rfl⟩
  | succ budget inductionHypothesis =>
    rw [← plan_run, ← plan_run]
    exact (plan_matched context limit task).under governs inductionHypothesis
      (perform_appends _ budget)

end Scriptlet
