/-
This file proves that the errors of loop control come from misplaced jumps only. A run
raises such an error only where a function of its program has a jump that no loop of this
function takes up. In particular a loop around a call does not take up the jumps of the
function that is called: once its body has ended with a jump, the call is interrupted, and
so is everything that the call is part of.
-/

import Mathlib.Logic.Relation
import Scriptlet.Proofs.Code.Staying
import Scriptlet.Proofs.Diagnostics.Located
import Scriptlet.Proofs.Reuse

namespace Scriptlet

/-! ### Tasks that start tasks -/

/-- A task is started in a course whose tasks are performed in some way. -/
inductive Course.Starts (perform : (task : Task) → Eval task.Answer) (task : Task)
    (machine : Machine) : {α : Type} → Course α → Prop where
  | here {α : Type} (next : Outcome task.Answer → Course α) :
    Starts perform task machine (.starts task machine next)
  | later {α : Type} {first : Task} {start : Machine} {next : Outcome first.Answer → Course α} :
    Starts perform task machine (next (perform first start)) →
    Starts perform task machine (.starts first start next)

theorem Course.Starts.behind {α : Type} {perform : (task : Task) → Eval task.Answer}
    {task first : Task} {machine start : Machine} {next : Outcome first.Answer → Course α}
    {outcome : Outcome first.Answer} (came : perform first start = outcome)
    (starts : (next outcome).Starts perform task machine) :
    Starts perform task machine (.starts first start next) := by
  rw [← came] at starts
  exact .later starts

/-- A task with the budget it is performed with and the machine it starts from. -/
structure Activation where
  budget : Nat
  task : Task
  machine : Machine

namespace Activation

/-- What the task comes to. -/
def outcome (context : Context) (activation : Activation) : Outcome activation.task.Answer :=
  activation.task.perform context activation.budget activation.machine

/-- The task is interrupted. -/
def Stops (context : Context) (interrupt : Interrupt) (activation : Activation) : Prop :=
  ∃ last, activation.outcome context = .error interrupt last

/-- One task starts another one. -/
inductive Starts (context : Context) : Activation → Activation → Prop where
  | intro {budget : Nat} {task inner : Task} {machine start : Machine} :
    (task.plan context machine).Starts (Task.perform context budget) inner start →
    Starts context ⟨budget + 1, task, machine⟩ ⟨budget, inner, start⟩

/-- One task is the other one or starts it, by itself or through the tasks it starts. -/
def Involves (context : Context) : Activation → Activation → Prop :=
  Relation.ReflTransGen (Starts context)

end Activation

section

variable {α β : Type} {perform : (task : Task) → Eval task.Answer} {task : Task} {start : Machine}

theorem Course.starts_andThen {course : Course α} {following : α → Machine → Course β}
    (starts : (course.andThen following).Starts perform task start) :
    course.Starts perform task start ∨
      ∃ value middle, course.run perform = .ok value middle ∧
        (following value middle).Starts perform task start := by
  induction course with
  | ended outcome =>
    cases outcome with
    | ok value middle => exact Or.inr ⟨value, middle, rfl, starts⟩
    | error interrupt middle => cases starts
  | starts first machine next inductionHypothesis =>
    cases starts with
    | here => exact Or.inl (.here next)
    | later behind =>
      rcases inductionHypothesis _ behind with before | after
      · exact Or.inl (.later before)
      · exact Or.inr after

/-- A step starts nothing, so what is started behind it is started by the rest of the plan. -/
theorem Plan.starts_step_bind {taken : Eval α} {following : α → Plan β} {machine : Machine}
    (starts : ((step taken >>= following) machine).Starts perform task start) :
    ∃ value middle, taken machine = .ok value middle ∧
      (following value middle).Starts perform task start := by
  rcases Course.starts_andThen starts with before | after
  · cases before
  · exact after

/-! ### Interrupts -/

/-- A plan is interrupted if a task is that it starts. -/
theorem Plan.Matched.stops {context other : Context} {plan second : Plan α}
    (matched : Plan.Matched context other plan second) {machine last : Machine}
    {interrupt : Interrupt} (starts : (plan machine).Starts perform task start)
    (stopped : perform task start = .error interrupt last) :
    ∃ later, plan.run perform machine = .error interrupt later := by
  induction matched generalizing machine with
  | quiet quiet => cases starts
  | write position text => cases starts
  | allowCall => cases starts
  | start inner =>
    cases starts with
    | here => exact ⟨last, stopped⟩
    | later behind => cases behind
  | startDeeper inner =>
    cases starts with
    | here =>
      refine ⟨{ last with depth := last.depth - 1 }, ?_⟩
      show (perform task).deeper machine = _
      rw [Eval.deeper, stopped]
    | later behind => cases behind
  | @bind α β plan second following next _ _ first rest =>
    rw [run_bind]
    rcases Course.starts_andThen starts with before | ⟨value, middle, came, behind⟩
    · obtain ⟨later, interrupted⟩ := first before
      exact ⟨later, EStateM.bind_of_error interrupted⟩
    · obtain ⟨later, interrupted⟩ := rest value behind
      exact ⟨later, (EStateM.bind_of_ok came).trans interrupted⟩

end

namespace Activation

variable {context : Context}

/-- What interrupts a task interrupts every task that it is part of. -/
theorem Involves.stops {outer inner : Activation} (involves : outer.Involves context inner)
    {interrupt : Interrupt} (stopped : inner.Stops context interrupt) :
    outer.Stops context interrupt := by
  induction involves using Relation.ReflTransGen.head_induction_on with
  | refl => exact stopped
  | head starts _ inductionHypothesis =>
    obtain ⟨last, came⟩ := inductionHypothesis
    cases starts with
    | @intro budget task inner machine start starts =>
      have interrupted :=
        (Task.plan_matched context context.maxDepth task).stops starts came
      rw [Task.plan_run] at interrupted
      exact interrupted

/-- The task is a call, and the body of the function that is called ends with a jump. -/
inductive JumpsOut (context : Context) (jump : Jump) (place : Position) : Activation → Prop where
  | intro {budget : Nat} {closure : Closure} {arguments : List Value} {position : Position}
      {machine inside last : Machine} {scope : ScopeId} :
    Starts context ⟨budget + 1, .callClosure closure arguments position, machine⟩
      ⟨budget, .execBlock closure.procedure.body scope, inside⟩ →
    Eval.execBlock context budget closure.procedure.body scope inside =
      .ok (jump.signal place) last →
    JumpsOut context jump place ⟨budget + 1, .callClosure closure arguments position, machine⟩

/-- A call is interrupted if the body of the function ends with a jump. -/
theorem JumpsOut.stops {jump : Jump} {place : Position} {call : Activation}
    (jumpsOut : call.JumpsOut context jump place) :
    call.Stops context (.fault ⟨jump.fault, some place⟩) := by
  obtain @⟨budget, closure, arguments, position, machine, inside, last, scope, starts, jumps⟩ :=
    jumpsOut
  have performed := Task.plan_run context budget (.callClosure closure arguments position)
  cases starts with
  | intro starts =>
    rw [Task.plan, Task.closurePlan_eq] at starts performed
    by_cases mismatch : arguments.length ≠ closure.procedure.arity
    · rw [if_pos mismatch] at starts
      cases starts
    rw [if_neg mismatch] at starts performed
    -- The steps before the body have yielded values, or the body would not have been started.
    obtain ⟨_, admitted, allowed, starts⟩ := Plan.starts_step_bind starts
    obtain ⟨own, opened, made, starts⟩ := Plan.starts_step_bind starts
    obtain ⟨_, bound, defined, starts⟩ := Plan.starts_step_bind starts
    rcases Course.starts_andThen starts with body | ⟨_, _, _, behind⟩
    · have ended : Plan.run (Task.perform context budget)
          (.startDeeper (.execBlock closure.procedure.body own)) bound =
          .ok (jump.signal place) { last with depth := last.depth - 1 } := by
        cases body with
        | here =>
          show Eval.deeper (Eval.execBlock context budget closure.procedure.body scope) bound = _
          rw [Eval.deeper, jumps]
        | later behind => cases behind
      refine ⟨{ last with depth := last.depth - 1 }, ?_⟩
      show Task.perform context (budget + 1) (.callClosure closure arguments position) machine = _
      rw [← performed]
      simp only [Plan.run_bind, Plan.run_step]
      rw [EStateM.bind_of_ok allowed, EStateM.bind_of_ok made, EStateM.bind_of_ok defined,
        EStateM.bind_of_ok ended]
      cases jump with
      | leaveLoop => rfl
      | nextRound => rfl
    · cases behind

end Activation

/-! ### Errors of loop control -/

theorem Jump.isOfData_fault (jump : Jump) : jump.fault.isOfData = false := by
  cases jump with
  | _ => rfl

theorem Jump.fault_ne_output (jump : Jump) (details : String) : jump.fault ≠ .output details := by
  cases jump with
  | _ => nofun

theorem Jump.fault_injective {first second : Jump} (same : first.fault = second.fault) :
    first = second := by
  cases first with
  | leaveLoop =>
    cases second with
    | leaveLoop => rfl
    | nextRound => cases same
  | nextRound =>
    cases second with
    | leaveLoop => cases same
    | nextRound => rfl

/-- A codebase raises an error of loop control only for a jump that nothing takes up. -/
theorem Codebase.Raises.strays {codebase : Codebase} {error : RuntimeError}
    (raised : codebase.Raises error) {jump : Jump} (same : error.fault = jump.fault) :
    ∃ procedure position, codebase.procedures procedure ∧
      Strays procedure.jumpSites jump position ∧ error.position = some position := by
  cases raised with
  | ofData ofData =>
    rw [same, jump.isOfData_fault] at ofData
    cases ofData
  | @misplaced procedure other position known strays =>
    rw [Jump.fault_injective same] at strays
    exact ⟨procedure, position, known, strays, rfl⟩
  | notVariable known other =>
    cases jump with
    | _ => cases same

/-- A run that ends in an error of loop control has come to a jump of its program that is not
placed. -/
theorem Interpreter.run_strays {config : Config} {sink : Sink} {runs : List (Nat × Program)}
    {budget : Nat} {program : Program} {error : RuntimeError} {jump : Jump}
    (failed : (((new config sink).after runs).run budget program).outcome = .error (.fault error))
    (same : error.fault = jump.fault) :
    ∃ function ∈ program.functions, ∃ site ∈ function.jumpSites,
      site.jump = jump ∧ site.placed = false ∧ error.position = some site.position := by
  have known : ∀ procedure ∈ program.procedures,
      (Codebase.ofFunctions program.functions).procedures procedure :=
    fun procedure member function held => List.mem_flatMap.mpr ⟨procedure, member, held⟩
  have failedAfresh : ((new config {}).run budget program).outcome = .error (.fault error) :=
    error_after failed fun details => same ▸ jump.fault_ne_output details
  obtain ⟨function, position, inside, ⟨site, member, isJump, place, unplaced⟩, reported⟩ :=
    (run_raises known failedAfresh).strays same
  refine ⟨function, inside function.mem_functions, site, member, isJump, unplaced, ?_⟩
  rw [reported, place]

/-- Whatever the configuration, the output and the budget, and behind any number of other runs: a
run that ends in an error of loop control ends at a jump of its program that is not placed, so a run
of a program whose jumps are all placed does not. And wherever a call is part of a task, say of a
loop: if the body of the function that is called ends with a jump, then the task ends with the error
of this jump. -/
theorem loop_control_errors_stray (program : Program) :
    (∀ config sink runs budget error jump,
      (((Interpreter.new config sink).after runs).run budget program).outcome =
        .error (.fault error) →
      error.fault = jump.fault →
      ∃ function ∈ program.functions, ∃ site ∈ function.jumpSites,
        site.jump = jump ∧ site.placed = false ∧ error.position = some site.position) ∧
    (program.jumpsPlaced = true → ∀ config sink runs budget error,
      (((Interpreter.new config sink).after runs).run budget program).outcome =
        .error (.fault error) →
      error.fault ≠ .breakOutsideLoop ∧ error.fault ≠ .continueOutsideLoop) ∧
    (∀ context jump place (task call : Activation), task.Involves context call →
      call.JumpsOut context jump place →
      task.Stops context (.fault ⟨jump.fault, some place⟩)) := by
  refine ⟨fun _ _ _ _ _ _ failed same => Interpreter.run_strays failed same, ?_,
    fun _ _ _ _ _ involves jumpsOut => involves.stops jumpsOut.stops⟩
  intro placed config sink runs budget error failed
  have never : ∀ jump : Jump, error.fault ≠ jump.fault := by
    intro jump same
    obtain ⟨function, inside, site, member, -, unplaced, -⟩ :=
      Interpreter.run_strays failed same
    have all := List.all_eq_true.mp (List.all_eq_true.mp placed function inside) site member
    rw [unplaced] at all
    cases all
  exact ⟨never .leaveLoop, never .nextRound⟩

/-- The function `lam() -> { break; }`. -/
def jumpingFunction : Procedure :=
  ⟨Procedure.lambdaName, [], [.breakLoop ⟨1, 42⟩], ⟨1, 30⟩⟩

/-- The loop `while (true) { lam() -> { break; }(); }`, whose jump stands in a function inside the
loop. -/
def loopAroundCall : Statement :=
  .loop (.literal (.bool true) ⟨1, 22⟩)
    [.evaluate (.call (.lambda jumpingFunction ⟨1, 30⟩) [] ⟨1, 50⟩) ⟨1, 30⟩] ⟨1, 15⟩

/-- A program that runs the loop. -/
def calledJumpProgram : Program :=
  ⟨[⟨"main", [], [loopAroundCall], ⟨1, 1⟩⟩]⟩

/-- The same program with the jump in the loop itself. -/
def placedJumpProgram : Program :=
  ⟨[⟨"main", [], [.loop (.literal (.bool true) ⟨1, 22⟩) [.breakLoop ⟨1, 30⟩] ⟨1, 15⟩], ⟨1, 1⟩⟩]⟩

/-- The loop on a machine that has run nothing, and the call that it makes in its first round. -/
theorem loopAroundCall_involves :
    Activation.Involves ⟨.empty, 9⟩
      ⟨10, .execStatement loopAroundCall 0, ⟨⟨#[⟨none, []⟩]⟩, {}, 0, 0⟩⟩
      ⟨3, .callClosure ⟨0, jumpingFunction, 1⟩ [] ⟨1, 50⟩,
        ⟨⟨#[⟨none, []⟩, ⟨some 0, []⟩]⟩, {}, 0, 1⟩⟩ := by
  have condition : ∀ machine, Eval.evalCondition ⟨.empty, 9⟩ 8 (.literal (.bool true) ⟨1, 22⟩) 0
      machine = .ok true machine := by
    intro machine
    rw [Eval.evalCondition, Eval.eval]
    rfl
  have callee : ∀ machine, Eval.eval ⟨.empty, 9⟩ 4 (.lambda jumpingFunction ⟨1, 30⟩) 1 machine =
      .ok (.function ⟨machine.closures, jumpingFunction, 1⟩)
        { machine with closures := machine.closures + 1 } := by
    intro machine
    rw [Eval.eval]
    rfl
  have noArguments : ∀ machine, Eval.evalAll ⟨.empty, 9⟩ 4 [] 1 machine = .ok [] machine := by
    intro machine
    rw [Eval.evalAll]
    rfl
  refine .head (.intro (.here _)) ?_
  refine .head (.intro (.behind (condition _) (.here _))) ?_
  refine .head (.intro (.here _)) ?_
  refine .head (.intro (.here _)) ?_
  refine .head (.intro (.here _)) ?_
  refine .head (.intro (.behind (callee _) (.behind (noArguments _) (.here _)))) ?_
  exact .single (.intro (.here _))

theorem jumpingFunction_jumpsOut :
    Activation.JumpsOut ⟨.empty, 9⟩ .leaveLoop ⟨1, 42⟩
      ⟨3, .callClosure ⟨0, jumpingFunction, 1⟩ [] ⟨1, 50⟩,
        ⟨⟨#[⟨none, []⟩, ⟨some 0, []⟩]⟩, {}, 0, 1⟩⟩ := by
  have body : ∀ machine, Eval.execBlock ⟨.empty, 9⟩ 2 [.breakLoop ⟨1, 42⟩] 2 machine =
      .ok (.breaking ⟨1, 42⟩) machine := by
    intro machine
    simp only [Eval.execBlock_cons, Eval.execStatement]
    rfl
  exact .intro (.intro (.here _)) (body _)

/-- The loop does not take up the jump of the function, which is reported, also behind a run of the
other program; the jump in the loop itself is not. -/
theorem loop_control_errors_stray_called :
    ((((Interpreter.new ⟨"main", 9⟩ {}).after [(30, placedJumpProgram)]).run 30
        calledJumpProgram).outcome = .error (.fault ⟨.breakOutsideLoop, some ⟨1, 42⟩⟩) ∧
      ∃ function ∈ calledJumpProgram.functions, ∃ site ∈ function.jumpSites,
        site.jump = .leaveLoop ∧ site.placed = false ∧ some site.position = some ⟨1, 42⟩) ∧
    (placedJumpProgram.jumpsPlaced = true ∧ ∀ config sink runs budget error,
      (((Interpreter.new config sink).after runs).run budget placedJumpProgram).outcome =
        .error (.fault error) →
      error.fault ≠ .breakOutsideLoop ∧ error.fault ≠ .continueOutsideLoop) ∧
    Activation.Stops ⟨.empty, 9⟩ (.fault ⟨.breakOutsideLoop, some ⟨1, 42⟩⟩)
      ⟨10, .execStatement loopAroundCall 0, ⟨⟨#[⟨none, []⟩]⟩, {}, 0, 0⟩⟩ := by
  have failed : (((Interpreter.new ⟨"main", 9⟩ {}).after [(30, placedJumpProgram)]).run 30
      calledJumpProgram).outcome = .error (.fault ⟨.breakOutsideLoop, some ⟨1, 42⟩⟩) :=
    Interpreter.Run.outcome_of_error? (by decide +kernel)
  have placed : placedJumpProgram.jumpsPlaced = true := by decide
  obtain ⟨errors, -, calls⟩ := loop_control_errors_stray calledJumpProgram
  obtain ⟨function, inside, site, member, isJump, unplaced, reported⟩ :=
    errors _ _ _ _ _ .leaveLoop failed rfl
  exact ⟨⟨failed, function, inside, site, member, isJump, unplaced, reported.symm⟩,
    ⟨placed, (loop_control_errors_stray placedJumpProgram).2.1 placed⟩,
    calls _ _ _ _ _ loopAroundCall_involves jumpingFunction_jumpsOut⟩

end Scriptlet
