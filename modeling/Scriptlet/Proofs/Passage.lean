/-
This file follows the variables along timelines. From one moment to the next every
scope that is there is kept, and it gains a name only if the later moment is the end of
a declaration of this name in this scope. So whatever a scope has gained between two
moments of a run has been declared there in between, and what has been declared there is
bound.

The tasks of a run are ready when they start: statements run in a scope that exists, and
a declaration runs in a scope that does not bind its name. Plans start only tasks that
are ready, which is the step of the induction on the budget.
-/

import Scriptlet.Proofs.Bindings
import Scriptlet.Proofs.Timeline

namespace Scriptlet

/-! ### Passages -/

/-- What a moment declares is bound then. -/
def Moment.Bound (moment : Moment) : Prop :=
  ∀ scope name, moment.declares scope name → moment.machine.store.binds scope name = true

/-- A way from a store through moments to a last store. Each moment gains the names that it
declares at most, and the last store gains names only as allowed. -/
def Passage (gains : ScopeId → String → Prop) : Store → List Moment → Store → Prop
  | first, [], last => first.Kept gains last
  | first, moment :: rest, last =>
    first.Kept moment.declares moment.machine.store ∧ moment.Bound ∧
      Passage gains moment.machine.store rest last

namespace Passage

variable {gains : ScopeId → String → Prop} {first second last : Store} {moments : List Moment}

theorem anyNames (passage : Passage noNames first moments last) :
    Passage gains first moments last := by
  induction moments generalizing first with
  | nil => exact Store.Kept.anyNames passage
  | cons moment rest inductionHypothesis =>
    exact ⟨passage.1, passage.2.1, inductionHypothesis passage.2.2⟩

/-- Steps that gain no name may stand before a passage. -/
theorem of_kept (kept : first.Kept noNames second) (passage : Passage gains second moments last) :
    Passage gains first moments last := by
  cases moments with
  | nil => exact kept.anyNames.trans passage
  | cons moment rest => exact ⟨kept.anyNames.trans passage.1, passage.2⟩

theorem append {more : List Moment} (earlier : Passage noNames first moments second)
    (later : Passage gains second more last) : Passage gains first (moments ++ more) last := by
  induction moments generalizing first with
  | nil => exact of_kept earlier later
  | cons moment rest inductionHypothesis =>
    exact ⟨earlier.1, earlier.2.1, inductionHypothesis earlier.2.2⟩

theorem size_le (passage : Passage gains first moments last) :
    first.scopes.size ≤ last.scopes.size := by
  induction moments generalizing first with
  | nil => exact Store.Kept.size_le passage
  | cons moment rest inductionHypothesis =>
    exact Nat.le_trans passage.1.size_le (inductionHypothesis passage.2.2)

/-- The passage of a task from its passage between its start and its end. -/
theorem around {task : Task} {machine : Machine} {ending : Moment}
    (inside : Passage ending.declares machine.store moments ending.machine.store)
    (bound : ending.Bound) :
    Passage noNames machine.store (⟨.started, task, machine⟩ :: (moments ++ [ending]))
      ending.machine.store := by
  refine ⟨.refl machine.store, (fun scope name impossible => by cases impossible), ?_⟩
  generalize machine.store = start at inside
  induction moments generalizing start with
  | nil => exact ⟨inside, bound, .refl ending.machine.store⟩
  | cons moment rest inductionHypothesis =>
    exact ⟨inside.1, inside.2.1, inductionHypothesis _ inside.2.2⟩

/-- From one moment to the next. -/
theorem link (passage : Passage gains first moments last) {place : Nat} {earlier later : Moment}
    (earlierAt : moments[place]? = some earlier) (laterAt : moments[place + 1]? = some later) :
    earlier.machine.store.Kept later.declares later.machine.store := by
  induction moments generalizing first place with
  | nil => cases earlierAt
  | cons moment rest inductionHypothesis =>
    rw [List.getElem?_cons_succ] at laterAt
    cases place with
    | zero =>
      cases earlierAt
      cases rest with
      | nil => cases laterAt
      | cons next others =>
        cases laterAt
        exact passage.2.2.1
    | succ place =>
      rw [List.getElem?_cons_succ] at earlierAt
      exact inductionHypothesis passage.2.2 earlierAt laterAt

theorem bound_of_mem (passage : Passage gains first moments last) {moment : Moment}
    (member : moment ∈ moments) : moment.Bound := by
  induction moments generalizing first with
  | nil => cases member
  | cons head rest inductionHypothesis =>
    cases member with
    | head => exact passage.2.1
    | tail _ inRest => exact inductionHypothesis passage.2.2 inRest

end Passage

/-! ### Plans -/

/-- When a task may start: statements run in a scope that exists, and a declaration does not find
its name there. -/
def Task.Ready : Task → Store → Prop
  | .execBlock _ scope, store => scope < store.scopes.size
  | .execStatement statement scope, store =>
    scope < store.scopes.size ∧
      ∀ name, statement.declaredName? = some name → store.binds scope name = false
  | _, _ => True

/-- Every task that is ready is recorded as a passage. -/
def Follows (record : Task → Machine → List Moment) (perform : (task : Task) → Eval task.Answer) :
    Prop :=
  ∀ task machine, task.Ready machine.store →
    Passage noNames machine.store (record task machine) ((perform task).after machine).store

namespace Plan

variable {α β : Type} {gains : ScopeId → String → Prop} {first : Store} {machine : Machine}
  {record : Task → Machine → List Moment} {perform : (task : Task) → Eval task.Answer}

/-- What is done from a machine according to a plan is a passage that starts at a store. -/
def Passes (record : Task → Machine → List Moment) (perform : (task : Task) → Eval task.Answer)
    (gains : ScopeId → String → Prop) (first : Store) (plan : Plan α) (machine : Machine) : Prop :=
  Passage gains first ((plan machine).moments record perform)
    ((plan.run perform).after machine).store

namespace Passes

theorem step {taken : Eval α} (kept : first.Kept gains (taken.after machine).store) :
    Passes record perform gains first (.step taken) machine := kept

/-- A step whose effect is known to gain no name. -/
theorem stepOf {taken : Eval α} (has : taken.Has (.keeping gains)) :
    Passes record perform gains machine.store (.step taken) machine := has machine

theorem anyNames {plan : Plan α} (passes : Passes record perform noNames first plan machine) :
    Passes record perform gains first plan machine :=
  Passage.anyNames passes

theorem start (follows : Follows record perform) {task : Task}
    (kept : first.Kept noNames machine.store) (ready : task.Ready machine.store) :
    Passes record perform gains first (.start task) machine := by
  show Passage gains first (record task machine ++ []) ((perform task).after machine).store
  rw [List.append_nil]
  exact .of_kept kept (follows task machine ready).anyNames

theorem startDeeper (follows : Follows record perform) {task : Task}
    (kept : first.Kept noNames machine.store) (ready : task.Ready machine.store) :
    Passes record perform gains first (.startDeeper task) machine := by
  show Passage gains first (record task { machine with depth := machine.depth + 1 } ++ [])
    ((perform task).deeper.after machine).store
  rw [List.append_nil, Eval.store_deeper]
  exact .of_kept kept
    (follows task { machine with depth := machine.depth + 1 } ready).anyNames

/-- A step that is known to yield a value, before the rest of a plan. -/
theorem stepThen {taken : Eval α} {following : α → Plan β} {value : α} {middle : Machine}
    (yields : taken machine = .ok value middle)
    (rest : Passes record perform gains first (following value) middle) :
    Passes record perform gains first (.step taken >>= following) machine := by
  have moments : ((Plan.step taken >>= following) machine).moments record perform =
      (following value middle).moments record perform := by
    show (Course.andThen following (.ended (taken machine))).moments record perform = _
    rw [yields]
    rfl
  rw [Passes, moments, run_bind, run_step, Eval.after, EStateM.bind_of_ok yields]
  exact rest

theorem bind {plan : Plan α} {following : α → Plan β}
    (start : Passes record perform noNames first plan machine)
    (rest : ∀ value middle, plan.run perform machine = .ok value middle →
      Passes record perform gains middle.store (following value) middle) :
    Passes record perform gains first (plan >>= following) machine := by
  have moments := Course.moments_andThen record perform (plan machine) following
  cases result : plan.run perform machine with
  | ok value middle =>
    have shape : ((plan >>= following) machine).moments record perform =
        (plan machine).moments record perform ++
          (following value middle).moments record perform := by
      rw [show (plan machine).run perform = .ok value middle from result] at moments
      exact moments
    rw [Passes, shape, run_bind, Eval.after, EStateM.bind_of_ok result]
    rw [Passes, Eval.after_of_ok result] at start
    exact start.append (rest value middle result)
  | error interrupt middle =>
    have shape : ((plan >>= following) machine).moments record perform =
        (plan machine).moments record perform := by
      rw [show (plan machine).run perform = .error interrupt middle from result,
        List.append_nil] at moments
      exact moments
    rw [Passes, shape, run_bind, Eval.after_of_error (EStateM.bind_of_error result)]
    rw [Passes, Eval.after_of_error result] at start
    exact start.anyNames

theorem ite {condition : Prop} [Decidable condition] {whenTrue whenFalse : Plan α}
    (onTrue : Passes record perform gains first whenTrue machine)
    (onFalse : Passes record perform gains first whenFalse machine) :
    Passes record perform gains first (if condition then whenTrue else whenFalse) machine := by
  by_cases holds : condition
  · rw [if_pos holds]
    exact onTrue
  · rw [if_neg holds]
    exact onFalse

/-- A task that may start anywhere. -/
theorem startAnywhere (follows : Follows record perform) {task : Task}
    (anywhere : ∀ store, task.Ready store) :
    Passes record perform gains machine.store (.start task) machine :=
  start follows (.refl machine.store) (anywhere machine.store)

end Passes

end Plan

/-! ### The plans of tasks -/

namespace Task

open Plan Plan.Passes

variable {context : Context} {record : Task → Machine → List Moment}
  {perform : (task : Task) → Eval task.Answer} {machine : Machine}

theorem evalPlan_passes (follows : Follows record perform) (expression : Expr) (scope : ScopeId) :
    Passes record perform noNames machine.store (evalPlan context scope expression) machine := by
  cases expression with
  | literal value position => exact stepOf (.pure _)
  | identifier name position => exact stepOf (.readName context scope name position)
  | unary op operand position =>
    cases op with
    | update kind yield =>
      cases operand with
      | identifier name namePosition =>
        refine stepOf (.bind (.readName context scope name namePosition) fun previous => ?_)
        refine .bind (.resultAt position _) fun updated => ?_
        refine .bind (.assign context scope name updated position) fun _ => ?_
        cases yield with
        | _ => exact .pure _
      | _ => exact stepOf (.fail _ position)
    | _ =>
      exact bind (startAnywhere follows fun _ => trivial) fun value middle _ =>
        stepOf (.resultAt position _)
  | binary op left right position =>
    refine bind (startAnywhere follows fun _ => trivial) fun first middle _ => ?_
    exact bind (startAnywhere follows fun _ => trivial) fun second last _ =>
      stepOf (.resultAt position _)
  | logical op left right position =>
    refine bind (startAnywhere follows fun _ => trivial) fun first middle _ =>
      ite (stepOf (.pure _)) ?_
    exact bind (startAnywhere follows fun _ => trivial) fun second last _ => stepOf (.pure _)
  | call callee arguments position => exact startAnywhere follows fun _ => trivial
  | lambda procedure position => exact stepOf (.newClosure procedure scope)
  | index target index position =>
    refine bind (startAnywhere follows fun _ => trivial) fun container middle _ => ?_
    refine bind (startAnywhere follows fun _ => trivial) fun place last _ =>
      ite ?_ (stepOf (.fail _ position))
    cases place with
    | int number => exact stepOf (.resultAt position _)
    | _ => exact stepOf (.fail _ _)

theorem applyPlan_passes (follows : Follows record perform) (arguments : List Expr)
    (position : Position) (scope : ScopeId) (function : Value) :
    Passes record perform noNames machine.store (applyPlan arguments position scope function)
      machine :=
  bind (startAnywhere follows fun _ => trivial) fun _ _ _ =>
    startAnywhere follows fun _ => trivial

theorem callPlan_passes (follows : Follows record perform) (callee : Expr)
    (arguments : List Expr) (position : Position) (scope : ScopeId) :
    Passes record perform noNames machine.store
      (callPlan context arguments position scope callee) machine := by
  cases callee with
  | identifier name namePosition =>
    refine bind (stepOf (.lookup? context scope name)) fun found middle _ => ?_
    cases found with
    | some function => exact applyPlan_passes follows arguments position scope function
    | none =>
      dsimp only
      cases Builtin.ofName? name with
      | none => exact stepOf (.fail _ namePosition)
      | some builtin =>
        exact bind (startAnywhere follows fun _ => trivial) fun values last _ =>
          stepOf (.callBuiltin builtin values position)
  | _ =>
    exact bind (startAnywhere follows fun _ => trivial) fun function middle _ =>
      applyPlan_passes follows arguments position scope function

/-- The body of a function starts in a scope that was not there before the call. -/
theorem closurePlan_passes (follows : Follows record perform) (closure : Closure)
    (arguments : List Value) (position : Position) :
    Passes record perform noNames machine.store
      (closurePlan context closure arguments position) machine := by
  rw [closurePlan]
  refine ite (stepOf (.fail _ position)) (bind (stepOf .get) fun seen middle _ => ?_)
  refine ite (stepOf (.failNowhere _)) (stepThen (Eval.newChild_apply closure.scope middle) ?_)
  obtain ⟨store, bound, sameSize, kept⟩ := Eval.defineAll_fresh
    (Nat.le_refl middle.store.scopes.size) (closure.procedure.parameters.zip arguments)
    { middle with store := (middle.store.newChild closure.scope).2 }
    (Store.Kept.newChild middle.store closure.scope)
  refine stepThen bound (bind (startDeeper follows kept ?_) fun signal last _ =>
    stepOf (.callResult signal))
  show middle.store.scopes.size < store.scopes.size
  rw [sameSize, Store.size_newChild]
  exact Nat.lt_succ_self _

theorem innerPlan_passes (follows : Follows record perform) (statements : List Statement)
    (scope : ScopeId) :
    Passes record perform noNames machine.store (innerPlan statements scope) machine := by
  refine stepThen (Eval.newChild_apply scope machine)
    (start follows (.newChild machine.store scope) ?_)
  show machine.store.scopes.size < (machine.store.newChild scope).2.scopes.size
  rw [Store.size_newChild]
  exact Nat.lt_succ_self _

theorem statementPlan_passes (follows : Follows record perform) (statement : Statement)
    (scope : ScopeId) (plain : statement.declaredName? = none) :
    Passes record perform noNames machine.store (plan context (.execStatement statement scope))
      machine := by
  cases statement with
  | declare name value mutability position => cases plain
  | assign name value position =>
    refine bind (startAnywhere follows fun _ => trivial) fun result middle _ => ?_
    exact bind (stepOf (.assign context scope name result position)) fun _ _ _ =>
      stepOf (.pure _)
  | leave value position =>
    cases value with
    | none => exact stepOf (.pure _)
    | some value =>
      exact bind (startAnywhere follows fun _ => trivial) fun result middle _ => stepOf (.pure _)
  | branch condition thenBranch elseBranch position =>
    refine bind (startAnywhere follows fun _ => trivial) fun holds middle _ =>
      ite (innerPlan_passes follows thenBranch scope) ?_
    cases elseBranch with
    | none => exact stepOf (.pure _)
    | some statements => exact innerPlan_passes follows statements scope
  | loop condition body position => exact startAnywhere follows fun _ => trivial
  | block statements position => exact innerPlan_passes follows statements scope
  | loopBody statements position =>
    refine bind (innerPlan_passes follows statements scope) fun signal middle _ => ?_
    cases signal with
    | _ => exact stepOf (.pure _)
  | evaluate expression position =>
    exact bind (startAnywhere follows fun _ => trivial) fun result middle _ => stepOf (.pure _)
  | breakLoop position => exact stepOf (.pure _)
  | continueLoop position => exact stepOf (.pure _)

/-- A statement and the rest of its block. The rest starts in the scope of the statement, which
still exists then. -/
theorem restPlan_passes (follows : Follows record perform) (statement : Statement)
    (rest : List Statement) {inner : ScopeId} {first : Store}
    (kept : first.Kept noNames machine.store)
    (ready : Task.Ready (.execStatement statement inner) machine.store) :
    Passes record perform noNames first (do
      match ← Plan.start (.execStatement statement inner) with
      | .normal => Plan.start (.execBlock rest inner)
      | signal => Plan.step (pure signal)) machine := by
  refine bind (start follows kept ready) fun signal middle yields => ?_
  have passage := follows (.execStatement statement inner) machine ready
  rw [run_start] at yields
  rw [Eval.after_of_ok yields] at passage
  cases signal with
  | normal =>
    exact start follows (.refl middle.store) (Nat.lt_of_lt_of_le ready.1 passage.size_le)
  | _ => exact stepOf (.pure _)

theorem blockPlan_passes (follows : Follows record perform) (statements : List Statement)
    (scope : ScopeId) (old : scope < machine.store.scopes.size) :
    Passes record perform noNames machine.store (plan context (.execBlock statements scope))
      machine := by
  cases statements with
  | nil => exact stepOf (.pure _)
  | cons statement rest =>
    rcases Eval.scopeFor_cases statement scope machine with ⟨same, free⟩ | opened
    · exact stepThen same (restPlan_passes follows statement rest (.refl machine.store)
        ⟨old, free⟩)
    · refine stepThen opened (restPlan_passes follows statement rest
        (.newChild machine.store scope) ⟨?_, fun name _ => ?_⟩)
      · rw [Store.size_newChild]
        exact Nat.lt_succ_self _
      · exact Store.binds_newChild_self machine.store scope name

theorem loopPlan_passes (follows : Follows record perform) (condition : Expr)
    (body : List Statement) (scope : ScopeId) :
    Passes record perform noNames machine.store (plan context (.execLoop condition body scope))
      machine := by
  refine bind (startAnywhere follows fun _ => trivial) fun holds middle _ =>
    ite (bind (innerPlan_passes follows body scope) fun signal last _ => ?_) (stepOf (.pure _))
  cases signal with
  | normal => exact startAnywhere follows fun _ => trivial
  | continuing position => exact startAnywhere follows fun _ => trivial
  | breaking position => exact stepOf (.pure _)
  | returning value => exact stepOf (.pure _)

/-- A declaration is complete once its value is there, and then its scope has gained the name. -/
theorem declarePlan_passes (follows : Follows record perform) {name : String} {value : Expr}
    {mutability : Mutability} {position : Position} {scope : ScopeId}
    (keeps : (perform (.eval value scope)).Has (.keeping noNames))
    (ready : Task.Ready (.execStatement (.declare name value mutability position) scope)
      machine.store) {ending : Moment}
    (ends : ending = .ofOutcome (.execStatement (.declare name value mutability position) scope)
      ((plan context (.execStatement (.declare name value mutability position) scope)).run perform
        machine)) :
    Passes record perform ending.declares machine.store
      (plan context (.execStatement (.declare name value mutability position) scope)) machine ∧
    ending.Bound := by
  have kept : machine.store.Kept noNames ((perform (.eval value scope)).after machine).store :=
    keeps machine
  rw [plan, statementPlan, run_bind, run_start] at ends
  cases result : perform (.eval value scope) machine with
  | ok found middle =>
    rw [Eval.after_of_ok result] at kept
    rw [EStateM.bind_of_ok result] at ends
    have free : middle.store.binds scope name = false := by
      refine Bool.eq_false_iff.mpr fun bound => ?_
      exact kept.gained ready.1 (ready.2 name rfl) bound
    have gained : middle.store.Kept (namesIn scope [name])
        (middle.store.define scope ⟨name, found, mutability⟩) :=
      (Store.Kept.refl middle.store).define ⟨name, found, mutability⟩ free
    have old : scope < middle.store.scopes.size := Nat.lt_of_lt_of_le ready.1 kept.size_le
    subst ends
    refine ⟨bind (startAnywhere follows fun _ => trivial) fun yielded last yields => ?_, ?_⟩
    · rw [run_start, result] at yields
      cases yields
      refine stepThen (Eval.define_apply scope _ middle) (step ?_)
      refine gained.restrict fun target other _ allowed => ?_
      obtain ⟨rfl, member⟩ := allowed
      cases List.mem_singleton.mp member
      rfl
    · intro target other declared
      cases declared
      exact Store.binds_define_self middle.store ⟨name, found, mutability⟩ old
  | error interrupt middle =>
    rw [EStateM.bind_of_error result] at ends
    subst ends
    refine ⟨bind (startAnywhere follows fun _ => trivial) fun found last yields => ?_,
      fun _ _ impossible => by cases impossible⟩
    rw [run_start, result] at yields
    cases yields

/-- A task that declares nothing itself gains no name and has none to account for. -/
theorem passes_of_plain {task : Task} {ending : Moment}
    (passes : Passes record perform noNames machine.store (task.plan context) machine)
    (ends : ending = .ofOutcome task ((task.plan context).run perform machine))
    (plain : task.declaration? = none) :
    Passes record perform ending.declares machine.store (task.plan context) machine ∧
      ending.Bound := by
  refine ⟨passes.anyNames, fun scope name declared => ?_⟩
  rw [Moment.declares, ends] at declared
  cases outcome : (task.plan context).run perform machine with
  | ok value middle =>
    rw [outcome] at declared
    cases plain.symm.trans declared
  | error interrupt middle =>
    rw [outcome] at declared
    cases declared

/-- One level: between the start and the end of a task there is a passage, if there is one
through each task that it starts. -/
theorem plan_passes (follows : Follows record perform)
    (keeps : ∀ value scope, (perform (.eval value scope)).Has (.keeping noNames)) (task : Task)
    (ready : task.Ready machine.store) {ending : Moment}
    (ends : ending = .ofOutcome task ((task.plan context).run perform machine)) :
    Passes record perform ending.declares machine.store (task.plan context) machine ∧
      ending.Bound := by
  cases task with
  | eval expression scope =>
    exact passes_of_plain (evalPlan_passes follows expression scope) ends rfl
  | evalCondition condition scope =>
    refine passes_of_plain ?_ ends rfl
    exact bind (startAnywhere follows fun _ => trivial) fun value middle _ =>
      stepOf (.resultAt condition.position _)
  | evalAll expressions scope =>
    refine passes_of_plain ?_ ends rfl
    cases expressions with
    | nil => exact stepOf (.pure _)
    | cons expression rest =>
      refine bind (startAnywhere follows fun _ => trivial) fun value middle _ => ?_
      exact bind (startAnywhere follows fun _ => trivial) fun values last _ => stepOf (.pure _)
  | evalCall callee arguments position scope =>
    exact passes_of_plain (callPlan_passes follows callee arguments position scope) ends rfl
  | callValue function arguments position =>
    refine passes_of_plain ?_ ends rfl
    cases function with
    | function closure => exact startAnywhere follows fun _ => trivial
    | _ => exact stepOf (.fail _ position)
  | callClosure closure arguments position =>
    exact passes_of_plain (closurePlan_passes follows closure arguments position) ends rfl
  | execBlock statements scope =>
    exact passes_of_plain (blockPlan_passes follows statements scope ready) ends rfl
  | execStatement statement scope =>
    cases statement with
    | declare name value mutability position =>
      exact declarePlan_passes follows (keeps value scope) ready ends
    | _ => exact passes_of_plain (statementPlan_passes follows _ scope rfl) ends rfl
  | execLoop condition body scope =>
    exact passes_of_plain (loopPlan_passes follows condition body scope) ends rfl

end Task

/-! ### Timelines -/

/-- With every budget, the timeline of a task that is ready is a passage from its start to its
end. -/
theorem Task.timeline_follows (context : Context) (budget : Nat) :
    Follows (Task.timeline context budget) (Task.perform context budget) := by
  induction budget with
  | zero =>
    intro task machine ready
    rw [Task.timeline, Eval.after_of_error (perform_zero context task machine), perform_zero]
    have inside : Passage (Moment.ofOutcome task (.error .exhausted machine)).declares
        machine.store [] machine.store := Store.Kept.refl machine.store
    exact inside.around fun scope name impossible => by cases impossible
  | succ budget follows =>
    intro task machine ready
    have ends : Moment.ofOutcome task (task.perform context (budget + 1) machine) =
        .ofOutcome task ((task.plan context).run (Task.perform context budget) machine) := by
      rw [plan_run]
    obtain ⟨passes, bound⟩ := plan_passes follows
      (fun value scope machine =>
        keepsBindings context budget (.eval value scope) machine trivial) task ready ends
    rw [Task.timeline, ← Moment.machine_ofOutcome]
    refine Passage.around ?_ bound
    rw [Plan.Passes, plan_run, ← Moment.machine_ofOutcome] at passes
    exact passes

end Scriptlet
