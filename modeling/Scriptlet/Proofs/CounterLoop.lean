/-
This file proves that a loop over a counter does what its written form says. Such a loop
has no node of its own; it stands for a block with a plain loop inside, whose body is
shielded so that the update still runs when the body asks for the next round. Here the
loop is also run as it is written: initializer, condition, body, update, and the
condition again, with the scopes opened where the parts say so. Both ways settle on the
same outcome from every machine, if they settle at all.

The nodes that the loop stands for spend their budgets at different depths, so the two
ways are compared by the order of steps: each is below the other one with a somewhat
larger budget.
-/

import Scriptlet.Proofs.Budget
import Scriptlet.Proofs.Effect
import Scriptlet.Proofs.Grammar.Tables
import Scriptlet.Proofs.Kept
import Scriptlet.Tree.Sugar

namespace Scriptlet

/-! ### Loops as they are written -/

/-- The parts of the loop `for (initializer; condition; update) body`. -/
structure CounterLoop where
  initializer : Statement
  condition : Expr
  update : Statement
  body : List Statement

/-- The statement that a loop stands for. -/
def CounterLoop.statement (loop : CounterLoop) (position bodyPosition : Position) : Statement :=
  .forLoop loop.initializer loop.condition loop.update loop.body position bodyPosition

/-- The statements of a round of the plain loop. -/
def CounterLoop.round (loop : CounterLoop) (bodyPosition : Position) : List Statement :=
  [.loopBody loop.body bodyPosition, loop.update]

theorem Grammar.Advances.declaredName?_eq_none {statement : Statement}
    (advances : Advances statement) : statement.declaredName? = none := by
  cases advances with
  | _ => rfl

namespace Eval

/-- The rounds of a loop over a counter, in the scope of the loop. A round has a scope of its own,
in which the update runs, and the body has one inside it. -/
def counterRounds (context : Context) (loop : CounterLoop) (scope : ScopeId) : Nat → Eval Signal
  | 0 => exhausted
  | budget + 1 => do
    match ← eval context budget loop.condition scope with
    | .bool true =>
      let round ← newChild scope
      match ← execBlock context budget loop.body (← newChild round) with
      | .breaking _ => return .normal
      | .returning value => return .returning value
      | .normal | .continuing _ =>
        let _ ← execStatement context budget loop.update round
        counterRounds context loop scope budget
    | .bool false => return .normal
    | other => fail (.expectedBoolean other.type) loop.condition.position

/-- A loop over a counter, run in a scope as it is written. -/
def counterLoop (context : Context) (loop : CounterLoop) (scope : ScopeId) (budget : Nat) :
    Eval Signal := do
  let inner ← newChild scope
  let _ ← execStatement context budget loop.initializer inner
  counterRounds context loop inner budget

/-! ### Statements that end normally -/

/-- The step yields the normal signal only. -/
def EndsNormally (step : Eval Signal) : Prop :=
  ∀ machine signal last, step machine = .ok signal last → signal = .normal

theorem EndsNormally.of_bind {α : Type} {step : Eval α} {next : α → Eval Signal}
    (normal : ∀ value, (next value).EndsNormally) : (step >>= next).EndsNormally := by
  intro machine signal last yields
  obtain ⟨value, middle, _, rest⟩ := EStateM.of_bind_ok yields
  exact normal value middle signal last rest

theorem EndsNormally.pure : (pure .normal : Eval Signal).EndsNormally :=
  fun _ _ _ yields => (EStateM.of_pure_ok yields).1.symm

/-- What follows such a step need not look at its signal. -/
theorem EndsNormally.bind {α : Type} {step : Eval Signal} (normal : step.EndsNormally)
    (next : Signal → Eval α) : step >>= next = step >>= fun _ => next .normal := by
  funext machine
  cases came : step machine with
  | ok signal middle =>
    rw [EStateM.bind_of_ok came, EStateM.bind_of_ok came, normal machine signal middle came]
  | error interrupt middle => rw [EStateM.bind_of_error came, EStateM.bind_of_error came]

section

variable (context : Context) (budget : Nat) (scope : ScopeId)

theorem execStatement_advances {statement : Statement} (advances : Grammar.Advances statement) :
    (execStatement context budget statement scope).EndsNormally := by
  cases budget with
  | zero =>
    rw [execStatement]
    exact fun _ _ _ yields => by cases yields
  | succ budget =>
    cases advances with
    | assign name value position =>
      rw [execStatement]
      exact .of_bind fun result => .of_bind fun _ => .pure
    | update step yield operand place position =>
      rw [execStatement]
      exact .of_bind fun _ => .pure

theorem execStatement_initializes {statement : Statement}
    (initializes : Grammar.Initializes statement) :
    (execStatement context budget statement scope).EndsNormally := by
  cases initializes with
  | advances advances => exact execStatement_advances context budget scope advances
  | declare name value mutability position =>
    cases budget with
    | zero =>
      rw [execStatement]
      exact fun _ _ _ yields => by cases yields
    | succ budget =>
      rw [execStatement]
      exact .of_bind fun result => .of_bind fun _ => .pure

end

/-! ### Blocks -/

/-- A block of one statement that declares nothing is the statement. -/
theorem execBlock_single (context : Context) (budget : Nat) {statement : Statement}
    (plain : statement.declaredName? = none) (scope : ScopeId) :
    execBlock context (budget + 1) [statement] scope =
      execStatement context budget statement scope := by
  rw [execBlock_cons, scopeFor, plain]
  show execStatement context budget statement scope >>= _ = _
  cases budget with
  | zero =>
    rw [execStatement]
    rfl
  | succ budget =>
    refine (bind_congr fun signal => ?_).trans (bind_pure _)
    cases signal with
    | normal => rw [execBlock]
    | _ => rfl

/-- A fresh scope binds nothing, so the first declaration in it takes place there. -/
theorem newChild_scopeFor {α : Type} (statement : Statement) (parent : ScopeId)
    (next : ScopeId → Eval α) :
    (newChild parent >>= fun scope => scopeFor statement scope >>= next) =
      newChild parent >>= next := by
  funext machine
  rw [EStateM.bind_of_ok (newChild_apply parent machine),
    EStateM.bind_of_ok (newChild_apply parent machine)]
  refine EStateM.bind_of_ok ?_
  unfold scopeFor
  cases statement.declaredName? with
  | none => rfl
  | some name =>
    show scopeForDeclaration machine.store.scopes.size name _ = _
    rw [scopeForDeclaration, EStateM.bind_of_ok (EStateM.get_apply _),
      Store.binds_newChild_self machine.store parent name]
    rfl

/-! ### The two ways compared -/

section

variable (context : Context) (loop : CounterLoop) (advances : Grammar.Advances loop.update)
  (position bodyPosition : Position)

include advances

/-- A round of the plain loop: the body, shielded, and the update. -/
theorem execBlock_round (budget : Nat) (round : ScopeId) :
    execBlock context (budget + 2) (loop.round bodyPosition) round = (do
      match ← execBlock context budget loop.body (← newChild round) with
      | .normal => execStatement context budget loop.update round
      | .continuing _ => execStatement context budget loop.update round
      | signal => return signal) := by
  have updated : execBlock context (budget + 1) [loop.update] round =
      execStatement context budget loop.update round :=
    execBlock_single context budget advances.declaredName?_eq_none round
  rw [CounterLoop.round, execBlock_cons, scopeFor]
  simp only [Statement.declaredName?, pure_bind, updated, execStatement, bind_assoc]
  refine bind_congr fun inner => bind_congr fun signal => ?_
  cases signal with
  | _ => rfl

/-- The rounds as they are written, told by the statements of the plain loop. -/
theorem counterRounds_succ (budget : Nat) (scope : ScopeId) :
    counterRounds context loop scope (budget + 1) = (do
      if ← evalCondition context (budget + 1) loop.condition scope then
        match ← execBlock context (budget + 2) (loop.round bodyPosition) (← newChild scope) with
        | .normal => counterRounds context loop scope budget
        | .continuing _ => counterRounds context loop scope budget
        | .breaking _ => return .normal
        | .returning value => return .returning value
      else return .normal) := by
  rw [counterRounds, evalCondition]
  simp only [execBlock_round context loop advances bodyPosition, bind_assoc]
  refine bind_congr fun value => ?_
  cases value with
  | bool truth =>
    cases truth with
    | false => rfl
    | true =>
      have holds : resultAt loop.condition.position (Value.bool true).expectBool = pure true := rfl
      rw [holds, pure_bind, if_pos rfl]
      refine bind_congr fun round => bind_congr fun inner => bind_congr fun signal => ?_
      have updated := execStatement_advances context budget round advances
      symm
      cases signal with
      | normal => exact updated.bind _
      | continuing position => exact updated.bind _
      | _ => rfl
  | _ => rfl

theorem execLoop_below (budget : Nat) (scope : ScopeId) :
    (execLoop context budget loop.condition (loop.round bodyPosition) scope).Below
      (counterRounds context loop scope budget) := by
  induction budget with
  | zero => exact .of_exhausted fun _ => by rw [execLoop]; rfl
  | succ budget inductionHypothesis =>
    rw [execLoop, counterRounds_succ context loop advances bodyPosition]
    have tested := Task.perform_below context (Nat.le_succ budget)
      (.evalCondition loop.condition scope)
    refine tested.bind fun holds => ?_
    split
    · refine (Below.refl _).bind fun round => ?_
      have ran := Task.perform_below context (Nat.le_add_right budget 2)
        (.execBlock (loop.round bodyPosition) round)
      refine ran.bind fun signal => ?_
      cases signal with
      | normal => exact inductionHypothesis
      | continuing position => exact inductionHypothesis
      | _ => exact .refl _
    · exact .refl _

theorem counterRounds_below (budget : Nat) (scope : ScopeId) :
    (counterRounds context loop scope budget).Below
      (execLoop context (budget + 3) loop.condition (loop.round bodyPosition) scope) := by
  induction budget with
  | zero => exact .of_exhausted fun _ => rfl
  | succ budget inductionHypothesis =>
    rw [counterRounds_succ context loop advances bodyPosition, execLoop]
    have tested := Task.perform_below context (show budget + 1 ≤ budget + 1 + 2 by omega)
      (.evalCondition loop.condition scope)
    refine tested.bind fun holds => ?_
    split
    · refine (Below.refl _).bind fun round => ?_
      have ran := Task.perform_below context (show budget + 2 ≤ budget + 1 + 2 by omega)
        (.execBlock (loop.round bodyPosition) round)
      refine ran.bind fun signal => ?_
      cases signal with
      | normal => exact inductionHypothesis
      | continuing position => exact inductionHypothesis
      | _ => exact .refl _
    · exact .refl _

omit advances in
/-- The statement that a loop stands for: the initializer and the plain loop, in a scope. -/
theorem execStatement_forLoop (initializes : Grammar.Initializes loop.initializer) (budget : Nat)
    (scope : ScopeId) :
    execStatement context (budget + 4) (loop.statement position bodyPosition) scope = (do
      let inner ← newChild scope
      let _ ← execStatement context (budget + 2) loop.initializer inner
      execLoop context budget loop.condition (loop.round bodyPosition) inner) := by
  have plainLoop : ∀ inner, execBlock context (budget + 2)
      [.loop loop.condition (loop.round bodyPosition) position] inner =
      execLoop context budget loop.condition (loop.round bodyPosition) inner := by
    intro inner
    rw [execBlock_single context (budget + 1) rfl, execStatement]
  rw [CounterLoop.statement, Statement.forLoop, execStatement]
  simp only [execBlock_cons context (budget + 2) loop.initializer, newChild_scopeFor]
  refine bind_congr fun inner => ?_
  refine ((execStatement_initializes context (budget + 2) inner initializes).bind _).trans ?_
  exact bind_congr fun _ => plainLoop inner

end

/-- Both ways of running a loop over a counter settle on the same. -/
theorem settles_forLoop_iff (context : Context) (loop : CounterLoop)
    (initializes : Grammar.Initializes loop.initializer) (advances : Grammar.Advances loop.update)
    (position bodyPosition : Position) (scope : ScopeId) (machine : Machine)
    (outcome : Outcome Signal) :
    Settles (fun budget =>
        execStatement context budget (loop.statement position bodyPosition) scope)
        machine outcome ↔
      Settles (counterLoop context loop scope) machine outcome := by
  constructor
  · intro settles
    refine settles.of_below (· + 2) fun budget => ?_
    have larger := Task.perform_below context (Nat.le_add_right budget 4)
      (.execStatement (loop.statement position bodyPosition) scope)
    refine larger.trans ?_
    rw [Task.perform, execStatement_forLoop context loop position bodyPosition initializes]
    refine (Below.refl _).bind fun inner => (Below.refl _).bind fun _ => ?_
    have plain := Task.perform_below context (Nat.le_add_right budget 2)
      (.execLoop loop.condition (loop.round bodyPosition) inner)
    exact plain.trans (execLoop_below context loop advances bodyPosition (budget + 2) inner)
  · intro settles
    refine settles.of_below (· + 3 + 4) fun budget => ?_
    rw [execStatement_forLoop context loop position bodyPosition initializes]
    refine (Below.refl _).bind fun inner => ?_
    have started := Task.perform_below context (show budget ≤ budget + 3 + 2 by omega)
      (.execStatement loop.initializer inner)
    refine started.bind fun _ => ?_
    exact counterRounds_below context loop advances bodyPosition budget inner

end Eval

/-! ### Jumps -/

/-- The statements that end a round of a loop before its end. -/
inductive Jump where
  | leaveLoop
  | nextRound

/-- The statement that makes a jump. -/
def Jump.statement : Jump → Position → Statement
  | .leaveLoop => .breakLoop
  | .nextRound => .continueLoop

/-- The signal of a jump. -/
def Jump.signal : Jump → Position → Signal
  | .leaveLoop => .breaking
  | .nextRound => .continuing

/-- The scope that is made next. -/
def Machine.fresh (machine : Machine) : ScopeId := machine.store.scopes.size

/-- The machine once a scope has been made inside another one. -/
def Machine.opened (machine : Machine) (parent : ScopeId) : Machine :=
  { machine with store := (machine.store.newChild parent).2 }

namespace Eval

/-- Statements that run in a scope from a machine on come to a jump at a place, with this last
machine. The jump may stand in nested blocks and branches, but not in a loop or a function. -/
inductive Reaches (context : Context) (jump : Jump) (position : Position) (last : Machine) :
    List Statement → ScopeId → Machine → Prop where
  | here (rest : List Statement) (scope : ScopeId) :
    Reaches context jump position last (jump.statement position :: rest) scope last
  | later {statement : Statement} {rest : List Statement} {scope inner : ScopeId}
      {machine declared middle : Machine} :
    scopeFor statement scope machine = .ok inner declared →
    Settles (fun budget => execStatement context budget statement inner) declared
      (.ok .normal middle) →
    Reaches context jump position last rest inner middle →
    Reaches context jump position last (statement :: rest) scope machine
  | inBlock {statements rest : List Statement} {scope : ScopeId} {machine : Machine}
      (place : Position) :
    Reaches context jump position last statements machine.fresh (machine.opened scope) →
    Reaches context jump position last (.block statements place :: rest) scope machine
  | inThen {condition : Expr} {statements rest : List Statement}
      {other : Option (List Statement)} {scope : ScopeId} {machine tested : Machine}
      (place : Position) :
    Settles (fun budget => evalCondition context budget condition scope) machine
      (.ok true tested) →
    Reaches context jump position last statements tested.fresh (tested.opened scope) →
    Reaches context jump position last (.branch condition statements other place :: rest) scope
      machine
  | inElse {condition : Expr} {first statements rest : List Statement} {scope : ScopeId}
      {machine tested : Machine} (place : Position) :
    Settles (fun budget => evalCondition context budget condition scope) machine
      (.ok false tested) →
    Reaches context jump position last statements tested.fresh (tested.opened scope) →
    Reaches context jump position last (.branch condition first (some statements) place :: rest)
      scope machine

section

variable {context : Context} {jump : Jump} {position : Position} {last machine : Machine}

/-- A block whose first statement jumps does nothing else. -/
theorem execBlock_of_jump {statement : Statement} {scope : ScopeId} {budget : Nat}
    (plain : statement.declaredName? = none)
    (jumps : execStatement context budget statement scope machine =
      .ok (jump.signal position) last) (rest : List Statement) :
    execBlock context (budget + 1) (statement :: rest) scope machine =
      .ok (jump.signal position) last := by
  rw [execBlock_cons, scopeFor, plain]
  refine (EStateM.bind_of_ok (EStateM.pure_apply scope machine)).trans ?_
  refine (EStateM.bind_of_ok jumps).trans ?_
  cases jump with
  | _ => rfl

/-- Blocks and branches pass a jump on, so statements that come to one end with its signal. -/
theorem Reaches.settles {statements : List Statement} {scope : ScopeId}
    (reaches : Reaches context jump position last statements scope machine) :
    Settles (fun budget => execBlock context budget statements scope) machine
      (.ok (jump.signal position) last) := by
  refine ⟨trivial, ?_⟩
  induction reaches with
  | here rest scope =>
    refine ⟨2, execBlock_of_jump ?_ ?_ rest⟩
    · cases jump with
      | _ => rfl
    · cases jump with
      | leaveLoop => rw [Jump.statement, execStatement]; rfl
      | nextRound => rw [Jump.statement, execStatement]; rfl
  | @later statement rest scope inner machine declared middle placed ends _
      inductionHypothesis =>
    obtain ⟨budget, jumps⟩ := inductionHypothesis
    obtain ⟨enough, came⟩ := ends.eventually (.execStatement statement inner)
    have rests := (Task.perform_below context (Nat.le_max_right enough budget)
      (.execBlock rest inner)).outcome jumps trivial
    refine ⟨max enough budget + 1, ?_⟩
    dsimp only
    rw [execBlock_cons, EStateM.bind_of_ok placed]
    exact (EStateM.bind_of_ok (came _ (Nat.le_max_left enough budget))).trans rests
  | @inBlock statements rest scope machine place _ inductionHypothesis =>
    obtain ⟨budget, jumps⟩ := inductionHypothesis
    refine ⟨budget + 2, execBlock_of_jump rfl ?_ rest⟩
    rw [execStatement]
    exact (EStateM.bind_of_ok (newChild_apply scope machine)).trans jumps
  | @inThen condition statements rest other scope machine tested place holds _
      inductionHypothesis =>
    obtain ⟨budget, jumps⟩ := inductionHypothesis
    obtain ⟨enough, came⟩ := holds.eventually (.evalCondition condition scope)
    have branch := (Task.perform_below context (Nat.le_max_right enough budget)
      (.execBlock statements tested.fresh)).outcome jumps trivial
    refine ⟨max enough budget + 2, execBlock_of_jump rfl ?_ rest⟩
    rw [execStatement.eq_def]
    refine (EStateM.bind_of_ok (came _ (Nat.le_max_left enough budget))).trans ?_
    exact (EStateM.bind_of_ok (newChild_apply scope tested)).trans branch
  | @inElse condition first statements rest scope machine tested place fails _
      inductionHypothesis =>
    obtain ⟨budget, jumps⟩ := inductionHypothesis
    obtain ⟨enough, came⟩ := fails.eventually (.evalCondition condition scope)
    have branch := (Task.perform_below context (Nat.le_max_right enough budget)
      (.execBlock statements tested.fresh)).outcome jumps trivial
    refine ⟨max enough budget + 2, execBlock_of_jump rfl ?_ rest⟩
    rw [execStatement]
    refine (EStateM.bind_of_ok (came _ (Nat.le_max_left enough budget))).trans ?_
    exact (EStateM.bind_of_ok (newChild_apply scope tested)).trans branch

end

end Eval

/-- The body of a round comes to a jump, once the condition has been tested in the scope of the
loop. -/
def CounterLoop.Jumps (loop : CounterLoop) (context : Context) (jump : Jump) (position : Position)
    (scope : ScopeId) (tested last : Machine) : Prop :=
  Eval.Reaches context jump position last loop.body (tested.opened scope).fresh
    ((tested.opened scope).opened tested.fresh)

namespace Eval

/-- What a round does that comes to a jump: nothing but to end the loop, or to run the update and
go on with the next round. -/
theorem execLoop_of_jump {context : Context} {loop : CounterLoop}
    (advances : Grammar.Advances loop.update) (bodyPosition : Position) {jump : Jump}
    {position : Position} {scope : ScopeId} {machine tested last : Machine}
    (holds : Settles (fun budget => evalCondition context budget loop.condition scope) machine
      (.ok true tested))
    (jumps : loop.Jumps context jump position scope tested last) :
    ∃ enough, ∀ budget, enough ≤ budget →
      execLoop context (budget + 3) loop.condition (loop.round bodyPosition) scope machine =
        (match jump with
          | .leaveLoop => (pure .normal : Eval Signal)
          | .nextRound => do
            let _ ← execStatement context budget loop.update tested.fresh
            execLoop context (budget + 2) loop.condition (loop.round bodyPosition) scope) last := by
  obtain ⟨first, came⟩ := holds.eventually (.evalCondition loop.condition scope)
  obtain ⟨second, ends⟩ := jumps.settles.eventually
    (.execBlock loop.body (tested.opened scope).fresh)
  refine ⟨max first second, fun budget enough => ?_⟩
  have tests := came (budget + 2) (by omega)
  have jumped := ends budget (by omega)
  rw [execLoop]
  simp only [execBlock_round context loop advances bodyPosition, bind_assoc]
  refine (EStateM.bind_of_ok tests).trans ?_
  refine (EStateM.bind_of_ok (newChild_apply scope tested)).trans ?_
  refine (EStateM.bind_of_ok (newChild_apply tested.fresh (tested.opened scope))).trans ?_
  refine (EStateM.bind_of_ok jumped).trans ?_
  cases jump with
  | leaveLoop => rfl
  | nextRound =>
    have updated := execStatement_advances context budget tested.fresh advances
    exact congrFun (updated.bind _) last

/-- A round whose body breaks out ends the loop, and the update does not run. -/
theorem settles_execLoop_of_break {context : Context} {loop : CounterLoop}
    (advances : Grammar.Advances loop.update) (bodyPosition : Position) {position : Position}
    {scope : ScopeId} {machine tested last : Machine}
    (holds : Settles (fun budget => evalCondition context budget loop.condition scope) machine
      (.ok true tested))
    (jumps : loop.Jumps context .leaveLoop position scope tested last)
    (outcome : Outcome Signal) :
    Settles (fun budget => execLoop context budget loop.condition (loop.round bodyPosition) scope)
        machine outcome ↔ outcome = .ok .normal last := by
  obtain ⟨enough, came⟩ := execLoop_of_jump advances bodyPosition holds jumps
  constructor
  · rintro ⟨settled, budget, ended⟩
    have larger := (Task.perform_below context (show budget ≤ max enough budget + 3 by omega)
      (.execLoop loop.condition (loop.round bodyPosition) scope)).outcome ended settled
    exact larger.symm.trans (came _ (Nat.le_max_left enough budget))
  · rintro rfl
    exact ⟨trivial, enough + 3, came enough (Nat.le_refl enough)⟩

/-- A round whose body asks for the next one runs the update, once, and then the loop goes on. -/
theorem settles_execLoop_of_continue {context : Context} {loop : CounterLoop}
    (advances : Grammar.Advances loop.update) (bodyPosition : Position) {position : Position}
    {scope : ScopeId} {machine tested last : Machine}
    (holds : Settles (fun budget => evalCondition context budget loop.condition scope) machine
      (.ok true tested))
    (jumps : loop.Jumps context .nextRound position scope tested last)
    (outcome : Outcome Signal) :
    Settles (fun budget => execLoop context budget loop.condition (loop.round bodyPosition) scope)
        machine outcome ↔
      Settles (fun budget => do
        let _ ← execStatement context budget loop.update tested.fresh
        execLoop context budget loop.condition (loop.round bodyPosition) scope) last outcome := by
  obtain ⟨enough, came⟩ := execLoop_of_jump advances bodyPosition holds jumps
  constructor
  · rintro ⟨settled, budget, ended⟩
    have larger := (Task.perform_below context (show budget ≤ max enough budget + 3 by omega)
      (.execLoop loop.condition (loop.round bodyPosition) scope)).outcome ended settled
    have split := (came _ (Nat.le_max_left enough budget)).symm.trans larger
    have updated := Task.perform_below context (Nat.le_add_right (max enough budget) 2)
      (.execStatement loop.update tested.fresh)
    exact ⟨settled, max enough budget + 2,
      (updated.bind fun _ => Below.refl _).outcome split settled⟩
  · rintro ⟨settled, budget, ended⟩
    refine ⟨settled, max enough budget + 3, (came _ (Nat.le_max_left enough budget)).trans ?_⟩
    have updated := Task.perform_below context (Nat.le_max_right enough budget)
      (.execStatement loop.update tested.fresh)
    have rests := Task.perform_below context (show budget ≤ max enough budget + 2 by omega)
      (.execLoop loop.condition (loop.round bodyPosition) scope)
    exact (updated.bind fun _ => rests).outcome ended settled

end Eval

/-! ### Loops run as they are written -/

/-- A loop over a counter settles on what running it as it is written settles on, with the same
variables, output and identities, or neither settles. When the body of a round comes to a jump to
the next round, the update runs once, in the scope of the round, before the loop goes on with the
condition; when it comes to a jump out of the loop, nothing else runs. -/
theorem forLoop_runs_as_written (context : Context) (loop : CounterLoop)
    (position bodyPosition : Position) (initializes : loop.initializer.canInitialize = true)
    (advances : loop.update.canAdvance = true) :
    (∀ scope machine outcome,
      Eval.Settles (fun budget => Eval.execStatement context budget
          (.forLoop loop.initializer loop.condition loop.update loop.body position bodyPosition)
          scope) machine outcome ↔
        Eval.Settles (Eval.counterLoop context loop scope) machine outcome) ∧
    ∀ scope machine tested place last,
      Eval.Settles (fun budget => Eval.evalCondition context budget loop.condition scope) machine
        (.ok true tested) →
      (loop.Jumps context .nextRound place scope tested last → ∀ outcome,
        Eval.Settles (fun budget => Eval.execLoop context budget loop.condition
            (loop.round bodyPosition) scope) machine outcome ↔
          Eval.Settles (fun budget => do
            let _ ← Eval.execStatement context budget loop.update tested.fresh
            Eval.execLoop context budget loop.condition (loop.round bodyPosition) scope)
            last outcome) ∧
      (loop.Jumps context .leaveLoop place scope tested last → ∀ outcome,
        Eval.Settles (fun budget => Eval.execLoop context budget loop.condition
            (loop.round bodyPosition) scope) machine outcome ↔ outcome = .ok .normal last) := by
  have opens := (Grammar.canInitialize_iff loop.initializer).mp initializes
  have closes := (Grammar.canAdvance_iff loop.update).mp advances
  refine ⟨fun scope machine outcome => ?_, fun scope machine tested place last holds => ⟨?_, ?_⟩⟩
  · exact Eval.settles_forLoop_iff context loop opens closes position bodyPosition scope machine
      outcome
  · exact Eval.settles_execLoop_of_continue closes bodyPosition holds
  · exact Eval.settles_execLoop_of_break closes bodyPosition holds

/-- The loop `for (let i = 0; true; i++) body`. -/
def CounterLoop.forever (body : List Statement) : CounterLoop where
  initializer := .declare "i" (.literal (.int 0) .start) .mutable .start
  condition := .literal (.bool true) .start
  update := .evaluate (.unary (.update .increment .previous) (.identifier "i" .start) .start) .start
  body

/-- The body `{ break; }` leaves the loop at once, and nothing but the two scopes of the round has
been made. -/
theorem forLoop_runs_as_written_forever :
    let loop := CounterLoop.forever [.block [.breakLoop .start] .start]
    let context : Context := ⟨.empty, 1⟩
    let machine : Machine := ⟨⟨#[⟨none, []⟩]⟩, {}, 0, 0⟩
    loop.initializer.canInitialize = true ∧ loop.update.canAdvance = true ∧
      Eval.Settles (fun budget => Eval.evalCondition context budget loop.condition 0) machine
        (.ok true machine) ∧
      loop.Jumps context .leaveLoop .start 0 machine (((machine.opened 0).opened 1).opened 2) ∧
      Eval.Settles (fun budget => Eval.execLoop context budget loop.condition (loop.round .start) 0)
        machine (.ok .normal (((machine.opened 0).opened 1).opened 2)) := by
  intro loop context machine
  have holds : Eval.Settles (fun budget => Eval.evalCondition context budget loop.condition 0)
      machine (.ok true machine) := by
    refine ⟨trivial, 2, ?_⟩
    simp only [loop, CounterLoop.forever, Eval.evalCondition, Eval.eval]
    rfl
  have jumps : loop.Jumps context .leaveLoop .start 0 machine
      (((machine.opened 0).opened 1).opened 2) :=
    .inBlock .start (.here [] _)
  have written := forLoop_runs_as_written context loop .start .start rfl rfl
  exact ⟨rfl, rfl, holds, jumps, ((written.2 0 machine machine .start _ holds).2 jumps _).mpr rfl⟩

end Scriptlet
