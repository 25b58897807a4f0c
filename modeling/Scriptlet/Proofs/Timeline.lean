/-
This file records runs. A moment is a point of a run at which a task starts or has come
to its end, with the machine at that point. The timeline of a task lists its moments in
the order they happen: the start, then the timelines of the tasks that its plan starts,
one after the other, and the end.

Between two moments in a row at most a few primitive steps are taken, so nothing that
happens to the machine is hidden inside a moment.
-/

import Scriptlet.Interpreter
import Scriptlet.Proofs.Course
import Scriptlet.Proofs.Effect

namespace Scriptlet

/-! ### Moments -/

/-- What happens to a task. -/
inductive Phase where
  | started
  | returned
  | interrupted
deriving DecidableEq

/-- A point of a run: what happens to a task, and the machine then. -/
structure Moment where
  phase : Phase
  task : Task
  machine : Machine

/-- The moment at which a task has come to an outcome. -/
def Moment.ofOutcome (task : Task) : Outcome task.Answer → Moment
  | .ok _ machine => ⟨.returned, task, machine⟩
  | .error _ machine => ⟨.interrupted, task, machine⟩

/-- The declaration that a task is for: the scope and the name. -/
def Task.declaration? : Task → Option (ScopeId × String)
  | .execStatement statement scope => statement.declaredName?.map fun name => (scope, name)
  | _ => none

/-- The declaration that is complete at a moment. -/
def Moment.declaration? (moment : Moment) : Option (ScopeId × String) :=
  match moment.phase with
  | .returned => moment.task.declaration?
  | _ => none

/-- At this moment a declaration of the name in the scope is complete. -/
def Moment.declares (moment : Moment) (scope : ScopeId) (name : String) : Prop :=
  moment.declaration? = some (scope, name)

instance (moment : Moment) (scope : ScopeId) (name : String) :
    Decidable (moment.declares scope name) :=
  inferInstanceAs (Decidable (moment.declaration? = some (scope, name)))

theorem Moment.machine_ofOutcome (task : Task) (step : Eval task.Answer) (machine : Machine) :
    (ofOutcome task (step machine)).machine = step.after machine := by
  rw [Eval.after]
  cases step machine with
  | ok value middle => rfl
  | error interrupt middle => rfl

/-! ### Timelines -/

/-- The moments of a course: those of the tasks it starts, of which each is recorded and
performed in some way. -/
def Course.moments {α : Type} (record : Task → Machine → List Moment)
    (perform : (task : Task) → Eval task.Answer) : Course α → List Moment
  | .ended _ => []
  | .starts task machine next =>
    record task machine ++ (next (perform task machine)).moments record perform

/-- The moments of a task that is performed with a budget. -/
def Task.timeline (context : Context) : Nat → Task → Machine → List Moment
  | 0, task, machine =>
    [⟨.started, task, machine⟩, .ofOutcome task (task.perform context 0 machine)]
  | budget + 1, task, machine =>
    let inside := (task.plan context machine).moments (Task.timeline context budget)
      (Task.perform context budget)
    ⟨.started, task, machine⟩ ::
      (inside ++ [.ofOutcome task (task.perform context (budget + 1) machine)])

/-- The moments of a run of a program, up to the flush behind it. -/
def Interpreter.timeline (interpreter : Interpreter) (budget : Nat) (program : Program) :
    List Moment :=
  let loaded := interpreter.load program
  match loaded.procedures.find? loaded.config.entry with
  | none => []
  | some entry =>
    Task.timeline loaded.context budget (.callClosure entry [] entry.procedure.position)
      loaded.machine

theorem Course.moments_andThen {α β : Type} (record : Task → Machine → List Moment)
    (perform : (task : Task) → Eval task.Answer) (course : Course α)
    (following : α → Machine → Course β) :
    (course.andThen following).moments record perform =
      course.moments record perform ++
        match course.run perform with
        | .ok value machine => (following value machine).moments record perform
        | .error _ _ => [] := by
  induction course with
  | ended outcome =>
    cases outcome with
    | ok value machine => rfl
    | error interrupt machine => rfl
  | starts task machine next inductionHypothesis =>
    rw [andThen, moments, moments, inductionHypothesis (perform task machine), List.append_assoc]
    rfl

/-- A timeline ends with what the task comes to. -/
theorem Task.getLast?_timeline (context : Context) (budget : Nat) (task : Task)
    (machine : Machine) :
    (Task.timeline context budget task machine).getLast? =
      some (.ofOutcome task (task.perform context budget machine)) := by
  cases budget with
  | zero => rfl
  | succ budget =>
    rw [Task.timeline, ← List.cons_append]
    exact List.getLast?_concat

/-! ### The end of a run -/

namespace Interpreter

theorem machine_perform {α : Type} (interpreter : Interpreter) (step : Context → Eval α) :
    (interpreter.perform step).interpreter.machine =
      (step interpreter.context).after interpreter.machine := by
  rw [perform, Eval.after, EStateM.run]
  cases step interpreter.context interpreter.machine with
  | ok value machine => rfl
  | error interrupt machine => rfl

/-- Flushing is no change of the variables. -/
theorem store_flush {α : Type} (position : Position) (next : Eval α)
    (same : ∀ machine, (next.after machine).store = machine.store) (machine : Machine) :
    ((flush position >>= fun _ => next).after machine).store = machine.store := by
  cases flushed : Sink.flush machine.sink with
  | ok value sink =>
    have yields : flush position machine = .ok () { machine with sink } := by rw [flush, flushed]
    rw [Eval.after, EStateM.bind_of_ok yields]
    exact same { machine with sink }
  | error fault sink =>
    have stops : flush position machine =
        .error (.fault ⟨fault, some position⟩) { machine with sink } := by rw [flush, flushed]
    rw [Eval.after_of_error (EStateM.bind_of_error stops)]

theorem store_runEntry (budget : Nat) (entry : Closure) (context : Context) (machine : Machine) :
    ((runEntry budget entry context).after machine).store =
      ((Eval.callClosure context budget entry [] entry.procedure.position).after machine).store := by
  unfold Eval.after runEntry
  dsimp only
  cases Eval.callClosure context budget entry [] entry.procedure.position machine with
  | ok value middle => exact store_flush entry.procedure.position (pure value) (fun _ => rfl) middle
  | error interrupt middle =>
    cases interrupt with
    | fault error =>
      exact store_flush entry.procedure.position (throw (.fault error) : Eval Value)
        (fun _ => rfl) middle
    | exhausted => rfl

/-- The timeline of a run ends with the variables that the run leaves. -/
theorem getLast?_timeline (interpreter : Interpreter) (budget : Nat) (program : Program)
    {entry : Closure}
    (present : (interpreter.load program).procedures.find?
      (interpreter.load program).config.entry = some entry) :
    ∃ last, (interpreter.timeline budget program).getLast? = some last ∧
      last.machine.store = (interpreter.run budget program).interpreter.machine.store := by
  have recorded : interpreter.timeline budget program =
      Task.timeline (interpreter.load program).context budget
        (.callClosure entry [] entry.procedure.position) (interpreter.load program).machine := by
    rw [timeline, present]
  have left : interpreter.run budget program =
      (interpreter.load program).perform (runEntry budget entry) := by
    rw [run, present]
  rw [recorded, Task.getLast?_timeline, left, machine_perform, store_runEntry]
  refine ⟨_, rfl, ?_⟩
  rw [Moment.machine_ofOutcome]
  rfl

end Interpreter

end Scriptlet
