/-
This file proves that a budget that is large enough does not change what a run does. A
step that used up its budget has come to nothing yet, so one step is below another one
if the other comes to the same wherever the first has come to anything. Doing steps one
after the other keeps this order, and so does every plan: what it comes to grows with
what the tasks it starts come to. Tasks are therefore ordered by their budgets.

What a family of steps settles on is what it comes to with some budget, and so with
every larger one.
-/

import Scriptlet.Proofs.Assembly

namespace Scriptlet

/-! ### Outcomes -/

/-- The budget was not used up. -/
def Settled {α : Type} : Outcome α → Prop
  | .error .exhausted _ => False
  | _ => True

theorem settled_error {α : Type} {interrupt : Interrupt} {machine : Machine} :
    Settled (.error interrupt machine : Outcome α) ↔ interrupt ≠ .exhausted := by
  cases interrupt with
  | fault error => exact ⟨fun _ => nofun, fun _ => trivial⟩
  | exhausted => exact ⟨False.elim, fun other => other rfl⟩

namespace Eval

variable {α β : Type}

/-- Wherever the first step settles, the second one comes to the same. -/
def Below (step other : Eval α) : Prop :=
  ∀ machine, Settled (step machine) → other machine = step machine

namespace Below

variable {step other third : Eval α}

theorem refl (step : Eval α) : step.Below step :=
  fun _ _ => rfl

/-- The step above comes to what the step below has settled on. -/
theorem outcome {machine : Machine} {outcome : Outcome α} (below : step.Below other)
    (came : step machine = outcome) (settled : Settled outcome) : other machine = outcome := by
  subst came
  exact below machine settled

theorem trans (lower : step.Below other) (upper : other.Below third) : step.Below third :=
  fun machine settled => upper.outcome (lower machine settled) settled

/-- A step that comes to nothing is below every step. -/
theorem of_exhausted (nothing : ∀ machine, step machine = .error .exhausted machine) :
    step.Below other := by
  intro machine settled
  rw [nothing] at settled
  exact settled.elim

/-- A sequence settles only if its first step does. -/
theorem bind {next following : α → Eval β} (first : step.Below other)
    (rest : ∀ value, (next value).Below (following value)) :
    (step >>= next).Below (other >>= following) := by
  intro machine settled
  cases came : step machine with
  | ok value middle =>
    rw [EStateM.bind_of_ok came] at settled ⊢
    rw [EStateM.bind_of_ok (first.outcome came trivial)]
    exact rest value middle settled
  | error interrupt middle =>
    rw [EStateM.bind_of_error came] at settled ⊢
    have stopped : Settled (.error interrupt middle : Outcome α) :=
      settled_error.mpr (settled_error.mp settled)
    rw [EStateM.bind_of_error (first.outcome came stopped)]

theorem deeper (below : step.Below other) : step.deeper.Below other.deeper := by
  intro machine settled
  have inside := below { machine with depth := machine.depth + 1 }
  unfold Eval.deeper at settled ⊢
  cases came : step { machine with depth := machine.depth + 1 } with
  | ok value middle =>
    rw [came] at inside
    rw [inside trivial]
  | error interrupt middle =>
    rw [came] at inside settled
    rw [inside (settled_error.mpr (settled_error.mp settled))]

end Below

end Eval

/-! ### Plans -/

namespace Plan

variable {α β : Type}

/-- A plan comes to more if the tasks it starts do. -/
def Grows (plan : Plan α) : Prop :=
  ∀ perform other : (task : Task) → Eval task.Answer,
    (∀ task, (perform task).Below (other task)) → (plan.run perform).Below (plan.run other)

namespace Grows

theorem step (taken : Eval α) : (Plan.step taken).Grows :=
  fun _ _ _ => .refl taken

theorem start (task : Task) : (Plan.start task).Grows :=
  fun _ _ below => below task

theorem startDeeper (task : Task) : (Plan.startDeeper task).Grows :=
  fun _ _ below => (below task).deeper

theorem bind {plan : Plan α} {following : α → Plan β} (first : plan.Grows)
    (rest : ∀ value, (following value).Grows) : (plan >>= following).Grows := by
  intro perform other below
  rw [run_bind, run_bind]
  exact (first perform other below).bind fun value => rest value perform other below

end Grows

/-- Every plan that is put together from steps and tasks comes to more if the tasks do. -/
theorem Matched.grows {context other : Context} {plan second : Plan α}
    (matched : Matched context other plan second) : plan.Grows := by
  induction matched with
  | quiet quiet => exact .step _
  | write position text => exact .step _
  | allowCall => exact .step _
  | start task => exact .start task
  | startDeeper task => exact .startDeeper task
  | bind _ _ first rest => exact .bind first rest

end Plan

namespace Task

variable (context : Context)

/-! ### Budgets -/

theorem perform_below_succ (budget : Nat) (task : Task) :
    (task.perform context budget).Below (task.perform context (budget + 1)) := by
  induction budget generalizing task with
  | zero => exact .of_exhausted (perform_zero context task)
  | succ budget inductionHypothesis =>
    rw [← plan_run, ← plan_run]
    exact (plan_matched context context.maxDepth task).grows _ _ inductionHypothesis

/-- A larger budget does not change what a task settles on. -/
theorem perform_below {budget more : Nat} (enough : budget ≤ more) (task : Task) :
    (task.perform context budget).Below (task.perform context more) := by
  induction enough with
  | refl => exact .refl _
  | step _ inductionHypothesis =>
    exact inductionHypothesis.trans (perform_below_succ context _ task)

end Task

namespace Eval

variable {α : Type}

/-- What steps come to with some budget. -/
def Settles (steps : Nat → Eval α) (machine : Machine) (outcome : Outcome α) : Prop :=
  Settled outcome ∧ ∃ budget, steps budget machine = outcome

/-- The steps settle on this outcome and on no other one. -/
def SettlesOnlyOn (steps : Nat → Eval α) (machine : Machine) (outcome : Outcome α) : Prop :=
  ∀ other, Settles steps machine other ↔ other = outcome

/-- A family of steps settles on all that a family below it settles on. -/
theorem Settles.of_below {steps others : Nat → Eval α} {machine : Machine} {outcome : Outcome α}
    (settles : Settles steps machine outcome) (reach : Nat → Nat)
    (below : ∀ budget, (steps budget).Below (others (reach budget))) :
    Settles others machine outcome := by
  obtain ⟨settled, budget, came⟩ := settles
  exact ⟨settled, reach budget, (below budget).outcome came settled⟩

/-- What a task settles on is what it comes to with every budget from some budget on. -/
theorem Settles.eventually {context : Context} (task : Task) {machine : Machine}
    {outcome : Outcome task.Answer}
    (settles : Settles (fun budget => task.perform context budget) machine outcome) :
    ∃ enough, ∀ budget, enough ≤ budget → task.perform context budget machine = outcome := by
  obtain ⟨settled, enough, came⟩ := settles
  exact ⟨enough, fun budget le => (Task.perform_below context le task).outcome came settled⟩

/-- A task settles on one outcome at most. -/
theorem Settles.unique {context : Context} (task : Task) {machine : Machine}
    {outcome other : Outcome task.Answer}
    (settles : Settles (fun budget => task.perform context budget) machine outcome)
    (settlesOther : Settles (fun budget => task.perform context budget) machine other) :
    other = outcome := by
  obtain ⟨enough, came⟩ := settles.eventually task
  obtain ⟨enoughOther, cameOther⟩ := settlesOther.eventually task
  rw [← came (max enough enoughOther) (Nat.le_max_left _ _)]
  exact (cameOther (max enough enoughOther) (Nat.le_max_right _ _)).symm

/-- Some units of the budget may be left out of account. -/
theorem settles_add_iff {context : Context} (task : Task) (units : Nat) {machine : Machine}
    {outcome : Outcome task.Answer} :
    Settles (fun budget => task.perform context (budget + units)) machine outcome ↔
      Settles (fun budget => task.perform context budget) machine outcome := by
  constructor
  · intro settles
    exact settles.of_below (· + units) fun budget => .refl _
  · intro settles
    exact settles.of_below id fun budget =>
      Task.perform_below context (Nat.le_add_right budget units) task

/-- A task that is one and the same step with every budget from some budget on settles on what the
step comes to. -/
theorem settlesOnlyOn_of_const {context : Context} (task : Task) {units : Nat}
    {step : Eval task.Answer} (same : ∀ budget, task.perform context (budget + units) = step)
    {machine : Machine} {outcome : Outcome task.Answer} (came : step machine = outcome)
    (settled : Settled outcome) :
    SettlesOnlyOn (fun budget => task.perform context budget) machine outcome := by
  intro other
  rw [← settles_add_iff task units]
  simp only [same]
  constructor
  · rintro ⟨_, _, cameOther⟩
    exact cameOther.symm.trans came
  · rintro rfl
    exact ⟨settled, 0, came⟩

/-- A first step that yields a value leaves the rest to settle. -/
theorem settles_bind_of_ok {β : Type} {step : Eval α} {next : Nat → α → Eval β}
    {machine middle : Machine} {value : α} (yields : step machine = .ok value middle)
    {outcome : Outcome β} :
    Settles (fun budget => step >>= next budget) machine outcome ↔
      Settles (fun budget => next budget value) middle outcome := by
  unfold Settles
  simp only [EStateM.bind_of_ok yields]

/-- A first step that is stopped by a fault settles the whole. -/
theorem settles_bind_of_error {β : Type} {step : Eval α} {next : Nat → α → Eval β}
    {machine middle : Machine} {error : RuntimeError}
    (stops : step machine = .error (.fault error) middle) {outcome : Outcome β} :
    Settles (fun budget => step >>= next budget) machine outcome ↔
      outcome = .error (.fault error) middle := by
  unfold Settles
  simp only [EStateM.bind_of_error stops]
  constructor
  · rintro ⟨_, _, came⟩
    exact came.symm
  · rintro rfl
    exact ⟨trivial, 0, rfl⟩

/-- What follows steps may depend on what they settle on, and not on the budget. -/
theorem settles_bind_iff {β : Type} {steps : Nat → Eval α} {next : α → Eval β} {machine : Machine}
    {outcome : Outcome β} :
    Settles (fun budget => steps budget >>= next) machine outcome ↔
      (∃ value middle, Settles steps machine (.ok value middle) ∧
        Settled outcome ∧ next value middle = outcome) ∨
      ∃ error middle, Settles steps machine (.error (.fault error) middle) ∧
        outcome = .error (.fault error) middle := by
  constructor
  · rintro ⟨settled, budget, came⟩
    cases first : steps budget machine with
    | ok value middle =>
      have rest := (EStateM.bind_of_ok first).symm.trans came
      exact .inl ⟨value, middle, ⟨trivial, budget, first⟩, settled, rest⟩
    | error interrupt middle =>
      obtain rfl := (EStateM.bind_of_error first).symm.trans came
      cases interrupt with
      | fault error => exact .inr ⟨error, middle, ⟨trivial, budget, first⟩, rfl⟩
      | exhausted => exact settled.elim
  · rintro (⟨value, middle, ⟨_, budget, first⟩, settled, came⟩ | ⟨error, middle, first, rfl⟩)
    · exact ⟨settled, budget, (EStateM.bind_of_ok first).trans came⟩
    · obtain ⟨_, budget, stops⟩ := first
      exact ⟨trivial, budget, EStateM.bind_of_error stops⟩

end Eval

end Scriptlet
