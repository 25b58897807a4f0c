/-
This file says which code a fault can come from. A run whose code belongs to a codebase
raises a fault of code only where the codebase has such code.

A jump travels as a signal. A block passes on the signals of its statements, a shielded
body takes up jumps to the next round, a loop takes up both jumps, and the call of a
function passes on none. So a signal that a statement ends with is that of a jump in the
statement that is not placed there, which holds along every plan and by induction on the
budget of every task.
-/

import Scriptlet.Proofs.Code.Faults
import Scriptlet.Proofs.Code.Parts
import Scriptlet.Proofs.EntryCall
import Scriptlet.Proofs.Stored

namespace Scriptlet

/-! ### What a codebase raises -/

/-- Among these sites there is one of this jump at this place that nothing takes up. -/
def Strays (sites : List JumpSite) (jump : Jump) (position : Position) : Prop :=
  ∃ site ∈ sites, site.jump = jump ∧ site.position = position ∧ site.placed = false

namespace Codebase

variable (codebase : Codebase)

/-- The faults that a run of code of the codebase may end with. -/
inductive Raises : RuntimeError → Prop where
  | ofData {error : RuntimeError} : error.fault.isOfData = true → Raises error
  | misplaced {procedure : Procedure} {jump : Jump} {position : Position} :
    codebase.procedures procedure → Strays procedure.jumpSites jump position →
    Raises ⟨jump.fault, some position⟩
  | notVariable {step : Step} {yield : Yield} {operand : Expr} {position : Position} :
    codebase.expressions (.unary (.update step yield) operand position) →
    ¬ Grammar.Variable operand → Raises ⟨.invalidAssignmentTarget, some position⟩

/-- The procedure of a function value belongs to the codebase. -/
def Knows (closure : Closure) : Prop :=
  codebase.procedures closure.procedure

/-- The function values that a value holds belong to the codebase. -/
abbrev KnowsValue (value : Value) : Prop :=
  value.Holds codebase.Knows

/-- The procedures of a run belong to the codebase. -/
def KnowsTable (table : ProcedureTable) : Prop :=
  ∀ closure ∈ table.entries, codebase.Knows closure

/-- What may come of statements with some jumps: a value of the codebase, or the signal of one of
the jumps that nothing takes up. -/
def KnowsSignal (sites : List JumpSite) : Signal → Prop
  | .normal => True
  | .returning value => codebase.KnowsValue value
  | .breaking position => Strays sites .leaveLoop position
  | .continuing position => Strays sites .nextRound position

/-- What a step may come to, given what may be said of its value. -/
def Allows {α : Type} (good : α → Prop) : Outcome α → Prop
  | .ok value machine => good value ∧ machine.store.All codebase.KnowsValue
  | .error (.fault error) _ => codebase.Raises error
  | .error .exhausted _ => True

variable {codebase}

/-- What statements may come to, others may come to that have their jumps. -/
theorem KnowsSignal.mono {sites more : List JumpSite} {signal : Signal}
    (known : codebase.KnowsSignal sites signal) (subset : sites ⊆ more) :
    codebase.KnowsSignal more signal := by
  have wider : ∀ {jump position}, Strays sites jump position → Strays more jump position :=
    fun ⟨site, member, strays⟩ => ⟨site, subset member, strays⟩
  cases signal with
  | normal => trivial
  | returning value => exact known
  | breaking position => exact wider known
  | continuing position => exact wider known

end Codebase

/-! ### Steps -/

namespace Eval

variable {α β : Type} {codebase : Codebase}

/-- Wherever variables hold functions of the codebase only, the step comes to what the codebase
allows. -/
def Stays (codebase : Codebase) (good : α → Prop) (step : Eval α) : Prop :=
  ∀ machine, machine.store.All codebase.KnowsValue → codebase.Allows good (step machine)

namespace Stays

theorem pure {good : α → Prop} {value : α} (holds : good value) :
    (pure value : Eval α).Stays codebase good :=
  fun _ known => ⟨holds, known⟩

theorem bind {good : α → Prop} {better : β → Prop} {step : Eval α} {next : α → Eval β}
    (first : step.Stays codebase good)
    (second : ∀ value, good value → (next value).Stays codebase better) :
    (step >>= next).Stays codebase better := by
  intro machine known
  have allowed := first machine known
  cases result : step machine with
  | ok value middle =>
    rw [result] at allowed
    rw [EStateM.bind_of_ok result]
    exact second value allowed.1 middle allowed.2
  | error interrupt middle =>
    rw [result] at allowed
    rw [EStateM.bind_of_error result]
    cases interrupt with
    | _ => exact allowed

theorem throw {good : α → Prop} {error : RuntimeError} (raises : codebase.Raises error) :
    (throw (.fault error) : Eval α).Stays codebase good :=
  fun _ _ => raises

theorem fail {good : α → Prop} {fault : RuntimeFault} (ofData : fault.isOfData = true)
    (position : Position) : (fail fault position : Eval α).Stays codebase good :=
  throw (.ofData ofData)

theorem resultAt {good : α → Prop} {result : Except RuntimeFault α} (position : Position)
    (ofData : OfData result) (holds : ∀ value, result = .ok value → good value) :
    (resultAt position result).Stays codebase good := by
  cases result with
  | ok value => exact pure (holds value rfl)
  | error fault => exact fail (ofData fault rfl) position

/-- A name stands for a value whose functions are of the codebase. -/
theorem lookup? {context : Context} (table : codebase.KnowsTable context.procedures)
    (scope : ScopeId) (name : String) :
    (lookup? context scope name).Stays codebase fun found =>
      ∀ value, found = some value → codebase.KnowsValue value := by
  intro machine known
  rw [Eval.lookup?, EStateM.bind_of_ok (EStateM.get_apply machine)]
  cases found : machine.store.get? scope name with
  | some value =>
    refine ⟨fun other same => ?_, known⟩
    injection same with same
    rw [← same]
    exact known.get? found
  | none =>
    refine ⟨fun other same => ?_, known⟩
    obtain ⟨closure, present, rfl⟩ := Option.map_eq_some_iff.mp same
    exact .function (table closure (List.mem_of_find?_eq_some present))

theorem readName {context : Context} (table : codebase.KnowsTable context.procedures)
    (scope : ScopeId) (name : String) (position : Position) :
    (readName context scope name position).Stays codebase codebase.KnowsValue := by
  refine bind (lookup? table scope name) fun found known => ?_
  cases found with
  | some value => exact pure (known value rfl)
  | none => exact fail rfl position

theorem newChild (parent : ScopeId) : (newChild parent).Stays codebase fun _ => True :=
  fun _ known => ⟨trivial, known.newChild parent⟩

theorem define (scope : ScopeId) {binding : Binding} (holds : codebase.KnowsValue binding.value) :
    (define scope binding).Stays codebase fun _ => True :=
  fun _ known => ⟨trivial, known.define scope holds⟩

theorem defineAll (scope : ScopeId) {pairs : List (String × Value)}
    (holds : ∀ pair ∈ pairs, codebase.KnowsValue pair.2) :
    (defineAll scope pairs).Stays codebase fun _ => True := by
  induction pairs with
  | nil => exact pure trivial
  | cons pair rest inductionHypothesis =>
    obtain ⟨here, there⟩ := List.forall_mem_cons.mp holds
    have now : (Eval.define scope ⟨pair.1, pair.2, .constant⟩).Stays codebase fun _ => True :=
      define scope here
    exact bind now fun _ _ => inductionHypothesis there

theorem scopeFor (statement : Statement) (scope : ScopeId) :
    (scopeFor statement scope).Stays codebase fun _ => True := by
  unfold Eval.scopeFor
  cases statement.declaredName? with
  | none => exact pure trivial
  | some name =>
    intro machine known
    show codebase.Allows _
      ((if machine.store.binds scope name then Eval.newChild scope else Pure.pure scope) machine)
    split
    · exact newChild scope machine known
    · exact ⟨trivial, known⟩

theorem assign (context : Context) (scope : ScopeId) (name : String) {value : Value}
    (position : Position) (holds : codebase.KnowsValue value) :
    (assign context scope name value position).Stays codebase fun _ => True := by
  intro machine known
  rw [assign_apply]
  cases machine.store.target scope name with
  | ok found => exact ⟨trivial, known.write found name holds⟩
  | error fault => exact .ofData (isOfData_assignFault context name fault)

theorem newClosure {procedure : Procedure} (scope : ScopeId)
    (holds : codebase.procedures procedure) :
    (newClosure procedure scope).Stays codebase codebase.KnowsValue :=
  fun _ known => ⟨.function holds, known⟩

theorem writeAll (position : Position) (texts : List String) :
    (writeAll position texts).Stays codebase fun _ => True := by
  induction texts with
  | nil => exact pure trivial
  | cons text rest inductionHypothesis =>
    refine bind (fun machine known => ?_) fun _ (_ : True) => inductionHypothesis
    have applied := Sink.write_apply text machine.sink
    split at applied
    · rw [Eval.write, onSink_of_ok applied]
      exact ⟨trivial, known⟩
    · rw [Eval.write, onSink_of_error applied]
      exact .ofData rfl

theorem callBuiltin (builtin : Builtin) {arguments : List Value} (position : Position)
    (holds : ∀ value ∈ arguments, codebase.KnowsValue value) :
    (callBuiltin builtin arguments position).Stays codebase codebase.KnowsValue := by
  intro machine known
  cases ran : builtin.run arguments machine.sink with
  | ok value sink =>
    rw [callBuiltin_apply, ran]
    exact ⟨.builtin holds ran, known⟩
  | error fault sink =>
    -- The value plays no part here, so nothing has to be known of it.
    have failed : (Eval.callBuiltin builtin arguments position).Stays codebase fun _ => True := by
      rw [callBuiltin_eq]
      exact bind (writeAll position _) fun _ _ =>
        resultAt position (.builtin builtin arguments) fun _ _ => trivial
    have raised := failed machine known
    rw [callBuiltin_apply, ran] at raised ⊢
    exact raised

/-- The call of a function passes on no signal of its body. -/
theorem callResult {procedure : Procedure} {signal : Signal}
    (known : codebase.procedures procedure)
    (holds : codebase.KnowsSignal procedure.jumpSites signal) :
    (callResult signal).Stays codebase codebase.KnowsValue := by
  cases signal with
  | normal => exact pure (.of_closureless rfl)
  | returning value => exact pure holds
  | breaking position => exact throw (.misplaced known holds)
  | continuing position => exact throw (.misplaced known holds)

theorem allowCall (context : Context) : (allowCall context).Stays codebase fun _ => True := by
  intro machine known
  rw [allowCall_apply]
  split
  · exact .ofData rfl
  · exact ⟨trivial, known⟩

theorem deeper {good : α → Prop} {step : Eval α} (stays : step.Stays codebase good) :
    step.deeper.Stays codebase good := by
  intro machine known
  have allowed := stays { machine with depth := machine.depth + 1 } known
  unfold Eval.deeper
  cases came : step { machine with depth := machine.depth + 1 } with
  | ok value later =>
    rw [came] at allowed
    exact allowed
  | error interrupt later =>
    rw [came] at allowed
    cases interrupt with
    | _ => exact allowed

end Stays

end Eval

/-! ### Tasks and plans -/

namespace Codebase

variable (codebase : Codebase)

/-- What a task is given belongs to the codebase. -/
def Covers : Task → Prop
  | .eval expression _ => codebase.expressions expression
  | .evalCondition condition _ => codebase.expressions condition
  | .evalAll expressions _ => ∀ expression ∈ expressions, codebase.expressions expression
  | .evalCall callee arguments _ _ =>
    codebase.expressions callee ∧ ∀ argument ∈ arguments, codebase.expressions argument
  | .callValue function arguments _ =>
    codebase.KnowsValue function ∧ ∀ value ∈ arguments, codebase.KnowsValue value
  | .callClosure closure arguments _ =>
    codebase.Knows closure ∧ ∀ value ∈ arguments, codebase.KnowsValue value
  | .execBlock statements _ => ∀ statement ∈ statements, codebase.statements statement
  | .execStatement statement _ => codebase.statements statement
  | .execLoop condition body _ =>
    codebase.expressions condition ∧ ∀ statement ∈ body, codebase.statements statement

/-- What a task yields belongs to the codebase, and a signal is that of a jump in its statements
that nothing takes up there. A loop takes up every jump. -/
def Good : (task : Task) → task.Answer → Prop
  | .eval _ _, value => codebase.KnowsValue value
  | .evalCondition _ _, _ => True
  | .evalAll _ _, values => ∀ value ∈ values, codebase.KnowsValue value
  | .evalCall _ _ _ _, value => codebase.KnowsValue value
  | .callValue _ _ _, value => codebase.KnowsValue value
  | .callClosure _ _ _, value => codebase.KnowsValue value
  | .execBlock statements _, signal => codebase.KnowsSignal (statementJumpSites statements) signal
  | .execStatement statement _, signal => codebase.KnowsSignal statement.jumpSites signal
  | .execLoop _ _ _, signal => codebase.KnowsSignal [] signal

end Codebase

namespace Plan

variable {α β : Type} {codebase : Codebase}

/-- The plan stays in the codebase if the tasks it starts do, and it starts tasks that the codebase
covers only. -/
def Stays (codebase : Codebase) (good : α → Prop) (plan : Plan α) : Prop :=
  ∀ perform : (task : Task) → Eval task.Answer,
    (∀ task, codebase.Covers task → (perform task).Stays codebase (codebase.Good task)) →
    (plan.run perform).Stays codebase good

namespace Stays

theorem step {good : α → Prop} {taken : Eval α} (stays : taken.Stays codebase good) :
    (Plan.step taken).Stays codebase good :=
  fun _ _ => stays

theorem pure {good : α → Prop} {value : α} (holds : good value) :
    (pure value : Plan α).Stays codebase good :=
  step (.pure holds)

theorem start (task : Task) (covered : codebase.Covers task) :
    (Plan.start task).Stays codebase (codebase.Good task) :=
  fun _ each => each task covered

theorem startDeeper (task : Task) (covered : codebase.Covers task) :
    (Plan.startDeeper task).Stays codebase (codebase.Good task) :=
  fun _ each => (each task covered).deeper

theorem bind {good : α → Prop} {better : β → Prop} {plan : Plan α} {following : α → Plan β}
    (before : plan.Stays codebase good)
    (behind : ∀ value, good value → (following value).Stays codebase better) :
    (plan >>= following).Stays codebase better := by
  intro perform each
  rw [run_bind]
  exact (before perform each).bind fun value holds => behind value holds perform each

theorem mono {good better : α → Prop} {plan : Plan α} (stays : plan.Stays codebase good)
    (implies : ∀ value, good value → better value) : plan.Stays codebase better := by
  intro perform each machine known
  have allowed := stays perform each machine known
  cases came : plan.run perform machine with
  | ok value middle =>
    rw [came] at allowed
    exact ⟨implies value allowed.1, allowed.2⟩
  | error interrupt middle =>
    rw [came] at allowed
    cases interrupt with
    | _ => exact allowed

theorem ite {condition : Prop} [Decidable condition] {good : α → Prop} {plan other : Plan α}
    (whenTrue : plan.Stays codebase good) (whenFalse : other.Stays codebase good) :
    (if condition then plan else other).Stays codebase good := by
  split
  · exact whenTrue
  · exact whenFalse

end Stays

end Plan

namespace Task

open Plan Codebase

variable {codebase : Codebase} {context : Context}

/-- The operands of an expression are expressions of the codebase, too. -/
theorem evalPlan_stays (table : codebase.KnowsTable context.procedures) (scope : ScopeId)
    {expression : Expr} (known : codebase.expressions expression) :
    (evalPlan context scope expression).Stays codebase codebase.KnowsValue := by
  have part : ∀ {operand : Expr}, operand ∈ expression.operands → codebase.expressions operand :=
    fun member => codebase.operand known member
  cases expression with
  | literal value position => exact .pure (.of_closureless (closures_ofLiteral value))
  | identifier name position => exact .step (.readName table scope name position)
  | unary op operand position =>
    have plain : (do
        let value ← start (.eval operand scope)
        Plan.step (Eval.resultAt position (op.apply value))).Stays codebase
          codebase.KnowsValue := by
      refine .bind (.start _ (part List.mem_cons_self)) fun value _ => ?_
      exact .step (.resultAt position (.unary op value) fun result applied => .unary applied)
    cases op with
    | update kind yield =>
      cases operand with
      | identifier name namePosition =>
        refine .step (.bind (.readName table scope name namePosition) ?_)
        intro previous knownPrevious
        have knownUpdated : ∀ value, (UnaryOp.update kind yield).apply previous = .ok value →
            codebase.KnowsValue value := fun value applied => .unary applied
        refine .bind (.resultAt position (.unary _ previous) knownUpdated) fun updated held => ?_
        refine .bind (.assign context scope name position held) fun _ _ => ?_
        cases yield with
        | updated => exact .pure held
        | previous => exact .pure knownPrevious
      | _ => exact .step (.throw (.notVariable known nofun))
    | _ => exact plain
  | binary op left right position =>
    refine .bind (.start _ (part List.mem_cons_self)) fun one knownOne => ?_
    refine .bind (.start _ (part (List.mem_cons_of_mem _ List.mem_cons_self))) ?_
    intro two knownTwo
    refine .step (.resultAt position (.binary op one two) fun result applied => ?_)
    exact .binary knownOne knownTwo applied
  | logical op left right position =>
    refine .bind (.start _ (part List.mem_cons_self)) fun one _ => ?_
    refine .ite (.pure (.of_closureless rfl)) ?_
    refine .bind (.start _ (part (List.mem_cons_of_mem _ List.mem_cons_self))) fun two _ => ?_
    exact .pure (.of_closureless rfl)
  | call callee arguments position =>
    exact .start (.evalCall callee arguments position scope)
      ⟨part List.mem_cons_self, fun argument member => part (List.mem_cons_of_mem _ member)⟩
  | lambda procedure position => exact .step (.newClosure scope (codebase.lambda known))
  | index target place position =>
    refine .bind (.start _ (part List.mem_cons_self)) fun container knownContainer => ?_
    refine .bind (.start _ (part (List.mem_cons_of_mem _ List.mem_cons_self))) fun key _ => ?_
    refine .ite ?_ (.step (.fail rfl position))
    cases key with
    | int number =>
      refine .step (.resultAt position (.element container number) fun result found => ?_)
      exact .of_subset (closures_element found) knownContainer
    | _ => exact .step (.fail rfl _)

theorem applyPlan_stays {arguments : List Expr} {position : Position} {scope : ScopeId}
    {function : Value} (known : codebase.KnowsValue function)
    (covered : ∀ argument ∈ arguments, codebase.expressions argument) :
    (applyPlan arguments position scope function).Stays codebase codebase.KnowsValue :=
  .bind (.start (.evalAll arguments scope) covered) fun values knownValues =>
    .start (.callValue function values position) ⟨known, knownValues⟩

theorem callPlan_stays (table : codebase.KnowsTable context.procedures) {callee : Expr}
    {arguments : List Expr} {position : Position} {scope : ScopeId}
    (known : codebase.expressions callee)
    (covered : ∀ argument ∈ arguments, codebase.expressions argument) :
    (callPlan context arguments position scope callee).Stays codebase codebase.KnowsValue := by
  cases callee with
  | identifier name namePosition =>
    refine .bind (.step (.lookup? table scope name)) fun found knownFound => ?_
    cases found with
    | some function => exact applyPlan_stays (knownFound function rfl) covered
    | none =>
      dsimp only
      cases Builtin.ofName? name with
      | none => exact .step (.fail rfl namePosition)
      | some builtin =>
        refine .bind (.start (.evalAll arguments scope) covered) fun values knownValues => ?_
        exact .step (.callBuiltin builtin position knownValues)
  | _ =>
    refine .bind (.start (.eval _ scope) known) fun function knownFunction => ?_
    exact applyPlan_stays knownFunction covered

/-- A call runs the body of a function of the codebase and takes up its returns only. -/
theorem closurePlan_stays {closure : Closure} {arguments : List Value} {position : Position}
    (known : codebase.Knows closure)
    (knownArguments : ∀ value ∈ arguments, codebase.KnowsValue value) :
    (closurePlan context closure arguments position).Stays codebase codebase.KnowsValue := by
  rw [closurePlan_eq]
  refine .ite (.step (.fail rfl position)) (.bind (.step (.allowCall context)) fun _ _ => ?_)
  refine .bind (.step (.newChild closure.scope)) fun scope _ => ?_
  have pairs : ∀ pair ∈ closure.procedure.parameters.zip arguments, codebase.KnowsValue pair.2 :=
    fun pair member => knownArguments pair.2 (List.of_mem_zip member).2
  refine .bind (.step (.defineAll scope pairs)) fun _ _ => ?_
  refine .bind (.startDeeper (.execBlock closure.procedure.body scope) ?_) ?_
  · exact fun statement member => codebase.body known member
  · exact fun signal knownSignal => .step (.callResult known knownSignal)

theorem innerPlan_stays {statements : List Statement} {scope : ScopeId}
    (known : ∀ statement ∈ statements, codebase.statements statement) :
    (innerPlan statements scope).Stays codebase
      (codebase.KnowsSignal (statementJumpSites statements)) :=
  .bind (.step (.newChild scope)) fun inner _ => .start (.execBlock statements inner) known

/-- A shielded body takes up jumps to the next round and leaves the others as they are. -/
theorem strays_enterLoopBody {sites : List JumpSite} {position : Position}
    (strays : Strays sites .leaveLoop position) :
    Strays (sites.map JumpSite.enterLoopBody) .leaveLoop position := by
  obtain ⟨⟨jump, place, inLoop, inLoopBody⟩, member, rfl, rfl, unplaced⟩ := strays
  exact ⟨_, List.mem_map_of_mem member, rfl, rfl, unplaced⟩

/-- What a statement ends with is one of the jumps that stand in it. -/
theorem statementPlan_stays {statement : Statement} {scope : ScopeId}
    (known : codebase.statements statement) :
    (statementPlan context scope statement).Stays codebase
      (codebase.KnowsSignal statement.jumpSites) := by
  have evaluated : ∀ {expression : Expr}, expression ∈ statement.expressions →
      codebase.expressions expression := fun member => codebase.expression known member
  have inside : ∀ {part : Statement}, part ∈ statement.inner → codebase.statements part :=
    fun member => codebase.inner known member
  cases statement with
  | declare name value mutability position =>
    refine .bind (.start _ (evaluated List.mem_cons_self)) fun result held => ?_
    exact .bind (.step (.define scope held)) fun _ _ => .pure trivial
  | assign name value position =>
    refine .bind (.start _ (evaluated List.mem_cons_self)) fun result held => ?_
    exact .bind (.step (.assign context scope name position held)) fun _ _ => .pure trivial
  | leave value position =>
    cases value with
    | none => exact .pure (Value.Holds.of_closureless rfl)
    | some value =>
      exact .bind (.start _ (evaluated List.mem_cons_self)) fun result held => .pure held
  | branch condition thenBranch elseBranch position =>
    refine .bind (.start _ (evaluated List.mem_cons_self)) fun holds _ => ?_
    have inThen : ∀ part ∈ thenBranch, codebase.statements part :=
      fun part member => inside (List.mem_append_left _ member)
    cases elseBranch with
    | none => exact .ite (innerPlan_stays inThen) (.pure trivial)
    | some statements =>
      have inElse : ∀ part ∈ statements, codebase.statements part :=
        fun part member => inside (List.mem_append_right _ member)
      refine .ite ((innerPlan_stays inThen).mono fun signal good => ?_)
        ((innerPlan_stays inElse).mono fun signal good => ?_)
      · exact good.mono (List.subset_append_left _ _)
      · exact good.mono (List.subset_append_right _ _)
  | loop condition body position =>
    refine .mono (.start (.execLoop condition body scope)
      ⟨evaluated List.mem_cons_self, fun part member => inside member⟩) fun signal good => ?_
    exact KnowsSignal.mono good (List.nil_subset _)
  | block statements position => exact innerPlan_stays fun part member => inside member
  | loopBody statements position =>
    refine .bind (innerPlan_stays fun part member => inside member) fun signal good => ?_
    cases signal with
    | breaking place => exact .pure (strays_enterLoopBody good)
    | continuing place => exact .pure trivial
    | _ => exact .pure good
  | evaluate expression position =>
    exact .bind (.start _ (evaluated List.mem_cons_self)) fun result _ => .pure trivial
  | breakLoop position => exact .pure ⟨_, List.mem_singleton_self _, rfl, rfl, rfl⟩
  | continueLoop position => exact .pure ⟨_, List.mem_singleton_self _, rfl, rfl, rfl⟩

/-- The plan of a task that a codebase covers stays in the codebase. -/
theorem plan_stays (table : codebase.KnowsTable context.procedures) (task : Task)
    (covered : codebase.Covers task) :
    (task.plan context).Stays codebase (codebase.Good task) := by
  cases task with
  | eval expression scope => exact evalPlan_stays table scope covered
  | evalCondition condition scope =>
    refine .bind (.start (.eval condition scope) covered) fun value _ => ?_
    exact .step (.resultAt condition.position (.expectBool value) fun _ _ => trivial)
  | evalAll expressions scope =>
    cases expressions with
    | nil => exact .pure fun value member => by cases member
    | cons expression rest =>
      obtain ⟨here, there⟩ := List.forall_mem_cons.mp covered
      refine .bind (.start (.eval expression scope) here) fun value held => ?_
      refine .bind (.start (.evalAll rest scope) there) fun values all => ?_
      exact .pure (List.forall_mem_cons.mpr ⟨held, all⟩)
  | evalCall callee arguments position scope => exact callPlan_stays table covered.1 covered.2
  | callValue function arguments position =>
    cases function with
    | function closure =>
      exact .start (.callClosure closure arguments position)
        ⟨covered.1 closure (List.mem_singleton_self closure), covered.2⟩
    | _ => exact .step (.fail rfl position)
  | callClosure closure arguments position => exact closurePlan_stays covered.1 covered.2
  | execBlock statements scope =>
    cases statements with
    | nil => exact .pure trivial
    | cons statement rest =>
      obtain ⟨here, there⟩ := List.forall_mem_cons.mp covered
      refine .bind (.step (.scopeFor statement scope)) fun inner _ => ?_
      refine .bind (.start (.execStatement statement inner) here) fun signal good => ?_
      have whole : codebase.KnowsSignal (statementJumpSites (statement :: rest)) signal :=
        KnowsSignal.mono good (List.subset_append_left _ _)
      cases signal with
      | normal =>
        refine .mono (.start (.execBlock rest inner) there) fun last goodLast => ?_
        exact KnowsSignal.mono goodLast (List.subset_append_right _ _)
      | _ => exact .step (.pure whole)
  | execStatement statement scope => exact statementPlan_stays covered
  | execLoop condition body scope =>
    refine .bind (.start (.evalCondition condition scope) covered.1) fun holds _ => ?_
    refine .ite (.bind (innerPlan_stays covered.2) fun signal good => ?_) (.step (.pure trivial))
    cases signal with
    | normal => exact .start (.execLoop condition body scope) covered
    | continuing position => exact .start (.execLoop condition body scope) covered
    | breaking position => exact .step (.pure trivial)
    | returning value => exact .step (.pure good)

/-- A task that a codebase covers stays in the codebase, whatever the budget. -/
theorem perform_stays (table : codebase.KnowsTable context.procedures) (budget : Nat) (task : Task)
    (covered : codebase.Covers task) :
    (task.perform context budget).Stays codebase (codebase.Good task) := by
  induction budget generalizing task with
  | zero =>
    intro machine known
    rw [perform_zero]
    trivial
  | succ budget inductionHypothesis =>
    rw [← plan_run]
    exact plan_stays table task covered _ inductionHypothesis

end Task

/-! ### Runs -/

namespace Interpreter

variable {codebase : Codebase}

/-- A run of a program raises what the codebases raise that have its procedures. -/
theorem run_raises {config : Config} {sink : Sink} {budget : Nat} {program : Program}
    {error : RuntimeError}
    (known : ∀ procedure ∈ program.procedures, codebase.procedures procedure)
    (failed : ((new config sink).run budget program).outcome = .error (.fault error)) :
    codebase.Raises error := by
  have table : codebase.KnowsTable ((new config sink).load program).context.procedures := by
    intro closure member
    obtain ⟨place, inside, rfl⟩ := List.mem_mapIdx.mp (List.mem_reverse.mp member)
    exact known _ (List.getElem_mem inside)
  cases called : (new config sink).entryCall? budget program with
  | none =>
    rw [run_of_entryCall?_none called] at failed
    cases failed
    exact .ofData rfl
  | some outcome =>
    obtain ⟨entry, present, came⟩ := Option.map_eq_some_iff.mp called
    have allowed := Task.perform_stays table budget (.callClosure entry [] entry.procedure.position)
      ⟨table entry (List.mem_of_find?_eq_some present), List.forall_mem_nil _⟩
      ((new config sink).load program).machine Store.All.newRoot
    rw [Task.perform, came] at allowed
    obtain ⟨-, same | ⟨details, position, output⟩⟩ := run_cases_of_entryCall?_some called
    · rw [same] at failed
      cases outcome with
      | ok value last => cases failed
      | error interrupt last =>
        cases failed
        exact allowed
    · rw [output] at failed
      cases failed
      exact .ofData rfl

end Interpreter

end Scriptlet
