/-
This file proves that an interrupt is never caught. Once a task of a run has been
interrupted no other task is started: the tasks around it are interrupted as well, from
the inside out, and on the way neither a variable is changed nor anything is written.
-/

import Scriptlet.Proofs.Assembly
import Scriptlet.Proofs.Timeline

namespace Scriptlet

/-- A later moment that belongs to the way out of an interrupted task: it is an interruption too,
with the same variables and the same output. -/
def Moment.Unwinds (earlier later : Moment) : Prop :=
  earlier.phase = .interrupted → later.phase = .interrupted ∧
    later.machine.store = earlier.machine.store ∧ later.machine.sink = earlier.machine.sink

/-- Behind an interruption there is only the way out. -/
def Unwinding (moments : List Moment) : Prop :=
  moments.Pairwise Moment.Unwinds

/-- The moments of a step with an outcome: an interruption among them is the outcome's, so there is
none if the step has yielded a value. -/
structure Unwound {α : Type} (moments : List Moment) (outcome : Outcome α) : Prop where
  unwinding : Unwinding moments
  interrupted : ∀ moment ∈ moments, moment.phase = .interrupted →
    (∃ interrupt machine, outcome = .error interrupt machine) ∧
      moment.machine.store = outcome.machine.store ∧ moment.machine.sink = outcome.machine.sink

namespace Unwound

variable {α β : Type} {moments : List Moment}

theorem nil (outcome : Outcome α) : Unwound [] outcome where
  unwinding := .nil
  interrupted := List.forall_mem_nil _

/-- What comes to a value has not been interrupted. -/
theorem not_interrupted {value : α} {machine : Machine}
    (unwound : Unwound moments (.ok value machine : Outcome α)) {moment : Moment}
    (member : moment ∈ moments) : moment.phase ≠ .interrupted := by
  intro interrupted
  obtain ⟨⟨interrupt, last, impossible⟩, -⟩ := unwound.interrupted moment member interrupted
  cases impossible

theorem append {value : α} {machine : Machine} {more : List Moment} {outcome : Outcome β}
    (first : Unwound moments (.ok value machine : Outcome α)) (rest : Unwound more outcome) :
    Unwound (moments ++ more) outcome where
  unwinding := by
    refine List.pairwise_append.mpr ⟨first.unwinding, rest.unwinding, ?_⟩
    exact fun earlier member later _ interrupted =>
      absurd interrupted (first.not_interrupted member)
  interrupted := by
    intro moment member interrupted
    rcases List.mem_append.mp member with before | behind
    · exact absurd interrupted (first.not_interrupted before)
    · exact rest.interrupted moment behind interrupted

/-- Another outcome that is interrupted if this one is, with the same variables and output. -/
theorem of_same {outcome : Outcome α} {other : Outcome β} (unwound : Unwound moments outcome)
    (stops : (∃ interrupt machine, outcome = .error interrupt machine) →
      ∃ interrupt machine, other = .error interrupt machine)
    (store : other.machine.store = outcome.machine.store)
    (sink : other.machine.sink = outcome.machine.sink) : Unwound moments other where
  unwinding := unwound.unwinding
  interrupted := by
    intro moment member interrupted
    obtain ⟨stopped, sameStore, sameSink⟩ := unwound.interrupted moment member interrupted
    exact ⟨stops stopped, sameStore.trans store.symm, sameSink.trans sink.symm⟩

end Unwound

/-- The last moment of a task has the machine that the task leaves. -/
theorem Moment.machine_of (task : Task) (outcome : Outcome task.Answer) :
    (Moment.ofOutcome task outcome).machine = outcome.machine := by
  cases outcome with
  | ok value last => rfl
  | error interrupt last => rfl

theorem Moment.interrupted_iff (task : Task) (outcome : Outcome task.Answer) :
    (Moment.ofOutcome task outcome).phase = .interrupted ↔
      ∃ interrupt machine, outcome = .error interrupt machine := by
  cases outcome with
  | ok value last =>
    constructor
    · intro impossible
      cases impossible
    · rintro ⟨_, _, impossible⟩
      cases impossible
  | error interrupt last => exact ⟨fun _ => ⟨interrupt, last, rfl⟩, fun _ => rfl⟩

namespace Unwound

/-- The timeline of a task from the moments between its start and its end. -/
theorem around {task : Task} {machine : Machine} {moments : List Moment}
    {outcome : Outcome task.Answer} (inside : Unwound moments outcome) :
    Unwound (⟨.started, task, machine⟩ :: (moments ++ [.ofOutcome task outcome])) outcome := by
  have ending := Moment.machine_of task outcome
  have stops := Moment.interrupted_iff task outcome
  constructor
  · refine List.pairwise_cons.mpr ⟨fun _ _ impossible => (by cases impossible), ?_⟩
    refine List.pairwise_append.mpr ⟨inside.unwinding, List.pairwise_singleton _ _, ?_⟩
    intro earlier member later last interrupted
    obtain ⟨stopped, sameStore, sameSink⟩ := inside.interrupted earlier member interrupted
    rw [List.mem_singleton.mp last]
    refine ⟨stops.mpr stopped, ?_, ?_⟩
    · rw [ending, sameStore]
    · rw [ending, sameSink]
  · intro moment member interrupted
    rcases List.mem_cons.mp member with rfl | behind
    · cases interrupted
    · rcases List.mem_append.mp behind with within | last
      · exact inside.interrupted moment within interrupted
      · rw [List.mem_singleton.mp last] at interrupted ⊢
        rw [ending]
        exact ⟨stops.mp interrupted, rfl, rfl⟩

end Unwound

/-! ### Plans and timelines -/

/-- A plan does not catch what interrupts the tasks it starts. -/
theorem Plan.Matched.unwound {context other : Context} {α : Type} {plan second : Plan α}
    (matched : Plan.Matched context other plan second)
    {record : Task → Machine → List Moment} {perform : (task : Task) → Eval task.Answer}
    (each : ∀ task machine, Unwound (record task machine) (perform task machine))
    (machine : Machine) :
    Unwound ((plan machine).moments record perform) (plan.run perform machine) := by
  induction matched generalizing machine with
  | quiet quiet => exact .nil _
  | write position text => exact .nil _
  | allowCall => exact .nil _
  | start task =>
    show Unwound (record task machine ++ []) (perform task machine)
    rw [List.append_nil]
    exact each task machine
  | startDeeper task =>
    show Unwound (record task { machine with depth := machine.depth + 1 } ++ [])
      ((perform task).deeper machine)
    rw [List.append_nil]
    have inside := each task { machine with depth := machine.depth + 1 }
    unfold Eval.deeper
    cases came : perform task { machine with depth := machine.depth + 1 } with
    | ok value last =>
      rw [came] at inside
      exact inside.of_same (fun ⟨_, _, impossible⟩ => nomatch impossible) rfl rfl
    | error interrupt last =>
      rw [came] at inside
      exact inside.of_same (fun _ => ⟨interrupt, _, rfl⟩) rfl rfl
  | @bind α β plan second following next _ _ first rest =>
    have split := Course.moments_andThen record perform (plan machine) following
    have front := first machine
    rw [run_bind]
    cases came : plan.run perform machine with
    | ok value middle =>
      rw [came] at front
      rw [show (plan machine).run perform = .ok value middle from came] at split
      rw [EStateM.bind_of_ok came]
      show Unwound (Course.moments record perform ((plan machine).andThen following)) _
      rw [split]
      exact front.append (rest value middle)
    | error interrupt middle =>
      rw [came] at front
      rw [show (plan machine).run perform = .error interrupt middle from came,
        List.append_nil] at split
      rw [EStateM.bind_of_error came]
      show Unwound (Course.moments record perform ((plan machine).andThen following)) _
      rw [split]
      exact front.of_same (fun _ => ⟨interrupt, middle, rfl⟩) rfl rfl

theorem Task.timeline_unwound (context : Context) (budget : Nat) (task : Task)
    (machine : Machine) :
    Unwound (Task.timeline context budget task machine) (task.perform context budget machine) := by
  induction budget generalizing task machine with
  | zero =>
    have inside : Unwound [] (task.perform context 0 machine) := .nil _
    exact inside.around
  | succ budget inductionHypothesis =>
    rw [Task.timeline]
    refine Unwound.around ?_
    rw [← plan_run]
    exact (plan_matched context context.maxDepth task).unwound inductionHypothesis machine

/-- In every run, behind an interruption there is only the way out. -/
theorem Interpreter.timeline_unwinding (interpreter : Interpreter) (budget : Nat)
    (program : Program) : Unwinding (interpreter.timeline budget program) := by
  unfold Interpreter.timeline
  dsimp only
  split
  · exact .nil
  · exact (Task.timeline_unwound _ _ _ _).unwinding

end Scriptlet
