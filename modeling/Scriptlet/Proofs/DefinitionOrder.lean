/-
This file proves that the order of definitions does not matter. Procedures that are listed
in another order have other identities, and that is all there is to it: if no two have one
name, each name stands for the same procedure as before. So the plans of a task correspond
one for one, with exchanged values passed along, and by induction on the budget a run of
the other program comes to what the run of the first one comes to, at every budget: to the
same error, or to the same value with the identities of its functions exchanged, and always
with the same output.
-/

import Scriptlet.Proofs.Exchange
import Scriptlet.Proofs.ProcedureTable

namespace Scriptlet

/-! ### Tasks -/

namespace Exchange

variable (exchange : Exchange)

/-- A task with the values it is given exchanged. -/
def task : Task → Task
  | .callValue function arguments position =>
    .callValue (exchange.value function) (arguments.map exchange.value) position
  | .callClosure closure arguments position =>
    .callClosure (exchange.closure closure) (arguments.map exchange.value) position
  | .eval expression scope => .eval expression scope
  | .evalCondition condition scope => .evalCondition condition scope
  | .evalAll expressions scope => .evalAll expressions scope
  | .evalCall callee arguments position scope => .evalCall callee arguments position scope
  | .execBlock statements scope => .execBlock statements scope
  | .execStatement statement scope => .execStatement statement scope
  | .execLoop condition body scope => .execLoop condition body scope

/-- What a task yields, exchanged. -/
def answer : (task : Task) → task.Answer → (exchange.task task).Answer
  | .eval _ _, value => exchange.value value
  | .evalCondition _ _, truth => truth
  | .evalAll _ _, values => List.map exchange.value values
  | .evalCall _ _ _ _, value => exchange.value value
  | .callValue _ _ _, value => exchange.value value
  | .callClosure _ _ _, value => exchange.value value
  | .execBlock _ _, signal => exchange.signal signal
  | .execStatement _ _, signal => exchange.signal signal
  | .execLoop _ _ _, signal => exchange.signal signal

end Exchange

/-! ### Plans -/

namespace Plan

variable {α β γ δ : Type} {exchange : Exchange}

/-- The second plan does what the first does, exchanged, if the tasks they start do. -/
def Exchanged (exchange : Exchange) (change : α → β) (plan : Plan α) (second : Plan β) : Prop :=
  ∀ perform performSecond : (task : Task) → Eval task.Answer,
    (∀ task, (perform task).Exchanged exchange (exchange.answer task)
      (performSecond (exchange.task task))) →
    (plan.run perform).Exchanged exchange change (second.run performSecond)

namespace Exchanged

theorem step {change : α → β} {taken : Eval α} {second : Eval β}
    (exchanged : taken.Exchanged exchange change second) :
    (Plan.step taken).Exchanged exchange change (Plan.step second) :=
  fun _ _ _ => exchanged

theorem pure {change : α → β} {value : α} {result : β} (same : change value = result) :
    (Pure.pure value : Plan α).Exchanged exchange change (Pure.pure result) :=
  step (.pure same)

theorem start (task : Task) :
    (Plan.start task).Exchanged exchange (exchange.answer task)
      (Plan.start (exchange.task task)) :=
  fun _ _ each => each task

theorem startDeeper (task : Task) :
    (Plan.startDeeper task).Exchanged exchange (exchange.answer task)
      (Plan.startDeeper (exchange.task task)) :=
  fun _ _ each => (each task).deeper

theorem bind {change : α → β} {changeNext : γ → δ} {plan : Plan α} {second : Plan β}
    {following : α → Plan γ} {next : β → Plan δ} (first : plan.Exchanged exchange change second)
    (rest : ∀ value, (following value).Exchanged exchange changeNext (next (change value))) :
    (plan >>= following).Exchanged exchange changeNext (second >>= next) := by
  intro perform performSecond each
  rw [run_bind, run_bind]
  exact (first perform performSecond each).bind fun value => rest value perform performSecond each

theorem ite {condition : Prop} [Decidable condition] {change : α → β} {first second : Plan α}
    {third fourth : Plan β} (whenTrue : first.Exchanged exchange change third)
    (whenFalse : second.Exchanged exchange change fourth) :
    (if condition then first else second).Exchanged exchange change
      (if condition then third else fourth) := by
  split
  · exact whenTrue
  · exact whenFalse

end Exchanged

end Plan

namespace Task

open Plan

variable {exchange : Exchange} {context other : Context}

theorem evalPlan_exchanged (matching : exchange.Matches context other) (scope : ScopeId)
    (expression : Expr) :
    (evalPlan context scope expression).Exchanged exchange exchange.value
      (evalPlan other scope expression) := by
  cases expression with
  | literal value position =>
    refine .pure ?_
    cases value with
    | _ => rfl
  | identifier name position => exact .step (.readName matching scope name position)
  | unary op operand position =>
    have plain : (do
        let value ← start (.eval operand scope)
        step (Eval.resultAt position (op.apply value))).Exchanged exchange exchange.value (do
        let value ← start (.eval operand scope)
        step (Eval.resultAt position (op.apply value))) := by
      refine .bind (.start (.eval operand scope)) fun value => ?_
      exact .step (.resultAt position (exchange.relabeling.unary_value op value))
    cases op with
    | update kind yield =>
      cases operand with
      | identifier name namePosition =>
        refine .step (.bind (.readName matching scope name namePosition) fun previous => ?_)
        refine .bind (.resultAt position (exchange.relabeling.unary_value _ previous)) ?_
        intro updated
        refine .bind (.assign matching scope name updated position) fun _ => ?_
        cases yield with
        | _ => exact .pure rfl
      | _ => exact .step (.fail _ position)
    | _ => exact plain
  | binary op left right position =>
    refine .bind (.start (.eval left scope)) fun one => ?_
    refine .bind (.start (.eval right scope)) fun two => ?_
    exact .step (.resultAt position (exchange.relabeling.binary_value op one two))
  | logical op left right position =>
    refine .bind (.start (.evalCondition left scope)) fun one => .ite (.pure rfl) ?_
    exact .bind (.start (.evalCondition right scope)) fun two => .pure rfl
  | call callee arguments position => exact .start (.evalCall callee arguments position scope)
  | lambda procedure position => exact .step (.newClosure procedure scope)
  | index target index position =>
    refine .bind (.start (.eval target scope)) fun container => ?_
    refine .bind (.start (.eval index scope)) fun place => ?_
    have indexable : (exchange.value container).isIndexable = container.isIndexable :=
      exchange.relabeling.isIndexable_value container
    have kind : (exchange.value container).type = container.type :=
      exchange.relabeling.type_value container
    show Plan.Exchanged exchange _ (if container.isIndexable then _ else _)
      (if (exchange.value container).isIndexable then _
        else step (Eval.fail (.notIndexable (exchange.value container).type) position))
    rw [indexable, kind]
    refine .ite ?_ (.step (.fail _ position))
    cases place with
    | int number =>
      exact .step (.resultAt position (exchange.relabeling.element_value container number))
    | _ => exact .step (.fail _ index.position)

theorem applyPlan_exchanged (arguments : List Expr) (position : Position) (scope : ScopeId)
    (function : Value) :
    (applyPlan arguments position scope function).Exchanged exchange exchange.value
      (applyPlan arguments position scope (exchange.value function)) :=
  .bind (.start (.evalAll arguments scope)) fun values =>
    .start (.callValue function values position)

theorem callPlan_exchanged (matching : exchange.Matches context other) (arguments : List Expr)
    (position : Position) (scope : ScopeId) (callee : Expr) :
    (callPlan context arguments position scope callee).Exchanged exchange exchange.value
      (callPlan other arguments position scope callee) := by
  cases callee with
  | identifier name namePosition =>
    refine .bind (.step (.lookup? matching scope name)) fun found => ?_
    cases found with
    | some function => exact applyPlan_exchanged arguments position scope function
    | none =>
      dsimp only [Option.map_none]
      cases Builtin.ofName? name with
      | none => exact .step (.fail _ namePosition)
      | some builtin =>
        refine .bind (.start (.evalAll arguments scope)) fun values => ?_
        exact .step (.callBuiltin builtin values position)
  | _ =>
    exact .bind (.start (.eval _ scope)) fun function =>
      applyPlan_exchanged arguments position scope function

theorem closurePlan_exchanged (matching : exchange.Matches context other) (closure : Closure)
    (arguments : List Value) (position : Position) :
    (closurePlan context closure arguments position).Exchanged exchange exchange.value
      (closurePlan other (exchange.closure closure) (arguments.map exchange.value) position) := by
  have zipped : (exchange.closure closure).procedure.parameters.zip
      (arguments.map exchange.value) =
      (closure.procedure.parameters.zip arguments).map (Prod.map id exchange.value) := by
    rw [← List.zip_map, List.map_id]
    rfl
  rw [closurePlan_eq, closurePlan_eq, List.length_map, zipped]
  refine .ite (.step (.fail _ position)) (.bind (.step (.allowCall matching)) fun _ => ?_)
  refine .bind (.step (.newChild closure.scope)) fun scope => ?_
  refine .bind (.step (.defineAll scope _)) fun _ => ?_
  refine .bind (.startDeeper (.execBlock closure.procedure.body scope)) fun signal => ?_
  exact .step (.callResult signal)

theorem innerPlan_exchanged (statements : List Statement) (scope : ScopeId) :
    (innerPlan statements scope).Exchanged exchange exchange.signal
      (innerPlan statements scope) :=
  .bind (.step (.newChild scope)) fun inner => .start (.execBlock statements inner)

theorem statementPlan_exchanged (matching : exchange.Matches context other) (scope : ScopeId)
    (statement : Statement) :
    (statementPlan context scope statement).Exchanged exchange exchange.signal
      (statementPlan other scope statement) := by
  cases statement with
  | declare name value mutability position =>
    refine .bind (.start (.eval value scope)) fun result => ?_
    exact .bind (.step (.define scope ⟨name, result, mutability⟩)) fun _ => .pure rfl
  | assign name value position =>
    refine .bind (.start (.eval value scope)) fun result => ?_
    exact .bind (.step (.assign matching scope name result position)) fun _ => .pure rfl
  | leave value position =>
    cases value with
    | none => exact .pure rfl
    | some value => exact .bind (.start (.eval value scope)) fun result => .pure rfl
  | branch condition thenBranch elseBranch position =>
    refine .bind (.start (.evalCondition condition scope)) fun holds => ?_
    refine .ite (innerPlan_exchanged thenBranch scope) ?_
    cases elseBranch with
    | none => exact .pure rfl
    | some statements => exact innerPlan_exchanged statements scope
  | loop condition body position => exact .start (.execLoop condition body scope)
  | block statements position => exact innerPlan_exchanged statements scope
  | loopBody statements position =>
    refine .bind (innerPlan_exchanged statements scope) fun signal => ?_
    cases signal with
    | _ => exact .pure rfl
  | evaluate expression position =>
    exact .bind (.start (.eval expression scope)) fun result => .pure rfl
  | breakLoop position => exact .pure rfl
  | continueLoop position => exact .pure rfl

theorem plan_exchanged (matching : exchange.Matches context other) (task : Task) :
    (task.plan context).Exchanged exchange (exchange.answer task)
      ((exchange.task task).plan other) := by
  cases task with
  | eval expression scope => exact evalPlan_exchanged matching scope expression
  | evalCondition condition scope =>
    refine .bind (.start (.eval condition scope)) fun value => ?_
    have same : (exchange.value value).expectBool = value.expectBool.map id := by
      refine (exchange.relabeling.expectBool_value value).trans ?_
      cases value.expectBool with
      | _ => rfl
    exact .step (.resultAt condition.position same)
  | evalAll expressions scope =>
    cases expressions with
    | nil => exact .pure rfl
    | cons expression rest =>
      refine .bind (.start (.eval expression scope)) fun value => ?_
      exact .bind (.start (.evalAll rest scope)) fun values => .pure rfl
  | evalCall callee arguments position scope =>
    exact callPlan_exchanged matching arguments position scope callee
  | callValue function arguments position =>
    cases function with
    | function closure => exact .start (.callClosure closure arguments position)
    | _ => exact .step (.fail _ position)
  | callClosure closure arguments position =>
    exact closurePlan_exchanged matching closure arguments position
  | execBlock statements scope =>
    cases statements with
    | nil => exact .pure rfl
    | cons statement rest =>
      refine .bind (.step (.scopeFor statement scope)) fun inner => ?_
      refine .bind (.start (.execStatement statement inner)) fun signal => ?_
      cases signal with
      | normal => exact .start (.execBlock rest inner)
      | _ => exact .step (.pure rfl)
  | execStatement statement scope => exact statementPlan_exchanged matching scope statement
  | execLoop condition body scope =>
    refine .bind (.start (.evalCondition condition scope)) fun holds => ?_
    refine .ite (.bind (innerPlan_exchanged body scope) fun signal => ?_) (.step (.pure rfl))
    cases signal with
    | normal => exact .start (.execLoop condition body scope)
    | continuing position => exact .start (.execLoop condition body scope)
    | breaking position => exact .step (.pure rfl)
    | returning value => exact .step (.pure rfl)

/-- A task and the exchanged task come to the same, exchanged, whatever the budget. -/
theorem perform_exchanged (matching : exchange.Matches context other) (budget : Nat)
    (task : Task) :
    (task.perform context budget).Exchanged exchange (exchange.answer task)
      ((exchange.task task).perform other budget) := by
  induction budget generalizing task with
  | zero =>
    intro machine enough
    rw [Eval.after, perform_zero, perform_zero]
    exact ⟨rfl, enough⟩
  | succ budget inductionHypothesis =>
    rw [← plan_run, ← plan_run]
    exact plan_exchanged matching task _ _ inductionHypothesis

end Task

/-! ### Programs in another order -/

/-- Where the second list has the name that the first one has at a place. -/
def placeIn (names others : List String) (place : Nat) : Nat :=
  match names[place]? with
  | some name => others.idxOf name
  | none => place

theorem placeIn_of_some {names others : List String} {place : Nat} {name : String}
    (here : names[place]? = some name) : placeIn names others place = others.idxOf name := by
  rw [placeIn, here]

theorem placeIn_of_le {names others : List String} {place : Nat} (behind : names.length ≤ place) :
    placeIn names others place = place := by
  rw [placeIn, List.getElem?_eq_none behind]

theorem idxOf_of_getElem? {names : List String} (distinct : names.Nodup) {place : Nat}
    {name : String} (here : names[place]? = some name) : names.idxOf name = place := by
  obtain ⟨inside, rfl⟩ := List.getElem?_eq_some_iff.mp here
  exact distinct.idxOf_getElem place inside

/-- A name is found again from the place where the other list has it. -/
theorem placeIn_placeIn {names others : List String} (distinct : names.Nodup)
    (permuted : names.Perm others) (place : Nat) :
    placeIn others names (placeIn names others place) = place := by
  cases here : names[place]? with
  | none =>
    have behind := List.getElem?_eq_none_iff.mp here
    rw [placeIn_of_le behind, placeIn_of_le (permuted.length_eq ▸ behind)]
  | some name =>
    have there := List.getElem?_idxOf (permuted.mem_iff.mp (List.mem_of_getElem? here))
    rw [placeIn_of_some here, placeIn_of_some there, idxOf_of_getElem? distinct here]

namespace Program

variable {program other : Program}

/-- The exchange that gives each procedure of a program the identity it has in another order. -/
def reordering (distinct : (program.procedures.map Procedure.name).Nodup)
    (permuted : program.procedures.Perm other.procedures) : Exchange where
  identity := placeIn (program.procedures.map Procedure.name) (other.procedures.map Procedure.name)
  limit := program.procedures.length
  injective :=
    Function.LeftInverse.injective (placeIn_placeIn distinct (permuted.map Procedure.name))
  later made behind := placeIn_of_le (by rwa [List.length_map])

theorem reordering_identity (distinct : (program.procedures.map Procedure.name).Nodup)
    (permuted : program.procedures.Perm other.procedures) {place there : Nat}
    {procedure : Procedure} (here : program.procedures[place]? = some procedure)
    (found : other.procedures[there]? = some procedure) :
    (reordering distinct permuted).identity place = there := by
  have named : (program.procedures.map Procedure.name)[place]? = some procedure.name := by
    rw [List.getElem?_map, here, Option.map_some]
  have namedThere : (other.procedures.map Procedure.name)[there]? = some procedure.name := by
    rw [List.getElem?_map, found, Option.map_some]
  have otherDistinct := (permuted.map Procedure.name).nodup_iff.mp distinct
  exact (placeIn_of_some named).trans (idxOf_of_getElem? otherDistinct namedThere)

/-- In both orders a name stands for the same procedure. -/
theorem find?_reordered (distinct : (program.procedures.map Procedure.name).Nodup)
    (permuted : program.procedures.Perm other.procedures) (scope : ScopeId) (name : String) :
    (ProcedureTable.build 0 scope other.procedures).find? name =
      ((ProcedureTable.build 0 scope program.procedures).find? name).map
        (reordering distinct permuted).closure := by
  have otherDistinct := (permuted.map Procedure.name).nodup_iff.mp distinct
  have same : ∀ {place there : Nat} {procedure : Procedure},
      program.procedures[place]? = some procedure → other.procedures[there]? = some procedure →
      (reordering distinct permuted).closure ⟨0 + place, procedure, scope⟩ =
        ⟨0 + there, procedure, scope⟩ := by
    intro place there procedure here found
    rw [Exchange.closure, Nat.zero_add, Nat.zero_add,
      reordering_identity distinct permuted here found]
  refine Option.ext fun closure => ?_
  rw [ProcedureTable.find?_build otherDistinct, Option.map_eq_some_iff]
  constructor
  · rintro ⟨⟨there, found, isThere⟩, named⟩
    obtain ⟨place, here⟩ :=
      List.mem_iff_getElem?.mp (permuted.mem_iff.mpr (List.mem_of_getElem? found))
    exact ⟨⟨0 + place, closure.procedure, scope⟩,
      (ProcedureTable.find?_build distinct).mpr ⟨⟨place, here, rfl⟩, named⟩,
      (same here found).trans isThere.symm⟩
  · rintro ⟨original, isOriginal, rfl⟩
    obtain ⟨⟨place, here, isHere⟩, named⟩ := (ProcedureTable.find?_build distinct).mp isOriginal
    obtain ⟨there, found⟩ :=
      List.mem_iff_getElem?.mp (permuted.mem_iff.mp (List.mem_of_getElem? here))
    refine ⟨⟨there, found, ?_⟩, named⟩
    rw [isHere]
    exact same here found

end Program

/-! ### Runs -/

namespace Interpreter

variable {exchange : Exchange} {context other : Context}

theorem flush_eq_onSink (position : Position) :
    flush position = Eval.onSink position Sink.flush := by
  funext machine
  rw [flush, Eval.onSink]
  cases Sink.flush machine.sink with
  | ok _ sink => rfl
  | error fault sink => rfl

theorem flush_exchanged (position : Position) :
    (flush position).Exchanged exchange id (flush position) := by
  rw [flush_eq_onSink]
  exact Eval.Exchanged.onSink position Sink.flush

/-- The entry call is followed by the same flush. -/
theorem runEntry_exchanged (matching : exchange.Matches context other) (budget : Nat)
    (entry : Closure) :
    (runEntry budget entry context).Exchanged exchange exchange.value
      (runEntry budget (exchange.closure entry) other) := by
  intro machine enough
  have position : (exchange.closure entry).procedure.position = entry.procedure.position := rfl
  obtain ⟨same, still⟩ := Task.perform_exchanged matching budget
    (.callClosure entry [] entry.procedure.position) machine enough
  have called : Eval.callClosure other budget (exchange.closure entry) []
      entry.procedure.position (exchange.machine machine) =
      exchange.outcome exchange.value
        (Eval.callClosure context budget entry [] entry.procedure.position machine) := same
  rw [Eval.after]
  unfold runEntry
  dsimp only
  rw [position, called]
  cases came : Eval.callClosure context budget entry [] entry.procedure.position machine with
  | ok value later =>
    have flushed : (flush entry.procedure.position >>= fun _ => pure value).Exchanged exchange
        exchange.value (flush entry.procedure.position >>= fun _ =>
          pure (exchange.value value)) :=
      .bind (flush_exchanged _) fun _ => .pure rfl
    exact flushed later (Eval.after_of_ok came ▸ still)
  | error interrupt later =>
    have counted : exchange.limit ≤ later.closures := Eval.after_of_error came ▸ still
    cases interrupt with
    | exhausted => exact ⟨rfl, counted⟩
    | fault error =>
      have failed : (throw (.fault error) : Eval Value).Exchanged exchange exchange.value
          (throw (.fault error)) := fun _ enough => ⟨rfl, enough⟩
      exact Eval.Exchanged.bind (flush_exchanged entry.procedure.position)
        (fun _ => failed) later counted

/-- Interpreters whose machines correspond and that take corresponding steps. -/
theorem perform_exchanged {α β : Type} {change : α → β} {interpreter second : Interpreter}
    {step : Context → Eval α} {following : Context → Eval β}
    (machines : second.machine = exchange.machine interpreter.machine)
    (enough : exchange.limit ≤ interpreter.machine.closures)
    (steps : (step interpreter.context).Exchanged exchange change (following second.context)) :
    (second.perform following).outcome = (interpreter.perform step).outcome.map change ∧
    (second.perform following).interpreter.machine =
      exchange.machine (interpreter.perform step).interpreter.machine := by
  obtain ⟨same, -⟩ := steps interpreter.machine enough
  unfold perform EStateM.run
  rw [machines, same]
  cases step interpreter.context interpreter.machine with
  | ok value machine => exact ⟨rfl, rfl⟩
  | error interrupt machine => exact ⟨rfl, rfl⟩

section Reordered

variable {program second : Program} (distinct : (program.procedures.map Procedure.name).Nodup)
  (permuted : program.procedures.Perm second.procedures) (config : Config) (sink : Sink)

theorem context_reordered :
    (Program.reordering distinct permuted).Matches ((new config sink).load program).context
      ((new config sink).load second).context :=
  ⟨Program.find?_reordered distinct permuted 0, rfl⟩

/-- A new interpreter has no variables yet, and has counted as many procedures in both orders. -/
theorem machine_reordered :
    ((new config sink).load second).machine =
      (Program.reordering distinct permuted).machine ((new config sink).load program).machine := by
  have counted : second.procedures.length = program.procedures.length := permuted.length_eq.symm
  have nothing : (Program.reordering distinct permuted).store Store.empty.newRoot.2 =
      Store.empty.newRoot.2 := by
    rw [Exchange.store, Store.newRoot, Store.empty, Array.map_push, Array.map_empty]
    rfl
  unfold load Exchange.machine
  dsimp only [new]
  rw [counted, nothing]

/-- On a new interpreter a program in another order comes to the same, exchanged. -/
theorem run_reordered (budget : Nat) :
    ((new config sink).run budget second).outcome =
      ((new config sink).run budget program).outcome.map
        (Program.reordering distinct permuted).value ∧
    ((new config sink).run budget second).interpreter.machine =
      (Program.reordering distinct permuted).machine
        ((new config sink).run budget program).interpreter.machine := by
  have matching := context_reordered distinct permuted config sink
  have machines := machine_reordered distinct permuted config sink
  have enough : (Program.reordering distinct permuted).limit ≤
      ((new config sink).load program).machine.closures :=
    Nat.le_add_left _ _
  have found : ((new config sink).load second).procedures.find?
      ((new config sink).load second).config.entry =
      (((new config sink).load program).procedures.find?
        ((new config sink).load program).config.entry).map
          (Program.reordering distinct permuted).closure :=
    matching.procedures config.entry
  unfold run
  dsimp only
  rw [found]
  cases ((new config sink).load program).procedures.find?
    ((new config sink).load program).config.entry with
  | none => exact ⟨rfl, machines⟩
  | some entry =>
    exact perform_exchanged machines enough (runEntry_exchanged matching budget entry)

end Reordered

/-- The run of a program comes to an end: with some budget it is not cut short. -/
def Halts (interpreter : Interpreter) (program : Program) : Prop :=
  ∃ budget, (interpreter.run budget program).outcome ≠ .error .exhausted

end Interpreter

/-- For every program in which no two procedures have one name, and every order of its procedures:
whatever the entry name, the limit on nested calls and the sink, the program in that order halts
exactly if the program does, and at every budget it comes to the same error or to the same value,
writes the same and leaves the same variables, where only function values have other identities. -/
theorem definition_order_ignored (program other : Program)
    (distinct : (program.procedures.map Procedure.name).Nodup)
    (permuted : program.procedures.Perm other.procedures) :
    ∃ exchange : Exchange, ∀ config sink,
      let interpreter := Interpreter.new config sink
      (interpreter.Halts program ↔ interpreter.Halts other) ∧
      ∀ budget,
        let run := interpreter.run budget program
        let reordered := interpreter.run budget other
        reordered.outcome = run.outcome.map exchange.value ∧
        reordered.interpreter.machine.sink = run.interpreter.machine.sink ∧
        reordered.interpreter.machine.store = exchange.store run.interpreter.machine.store := by
  refine ⟨Program.reordering distinct permuted, fun config sink => ?_⟩
  have same := Interpreter.run_reordered distinct permuted config sink
  refine ⟨exists_congr fun budget => not_congr ?_, fun budget => ?_⟩
  · rw [(same budget).1]
    cases ((Interpreter.new config sink).run budget program).outcome with
    | ok value => exact ⟨nofun, nofun⟩
    | error interrupt => exact Iff.rfl
  · obtain ⟨outcome, machine⟩ := same budget
    exact ⟨outcome, by rw [machine]; rfl, by rw [machine]; rfl⟩

/-- The procedure `proc main() { println(helper, helper == main); return helper; }`. -/
def comparingMain : Procedure :=
  ⟨"main", [], [
    .evaluate (.call (.identifier "println" ⟨1, 15⟩) [.identifier "helper" ⟨1, 23⟩,
      .binary .equal (.identifier "helper" ⟨1, 31⟩) (.identifier "main" ⟨1, 41⟩) ⟨1, 38⟩] ⟨1, 22⟩)
      ⟨1, 15⟩,
    .leave (some (.identifier "helper" ⟨1, 55⟩)) ⟨1, 48⟩], ⟨1, 1⟩⟩

/-- The procedure `proc helper() { }`. -/
def idleHelper : Procedure :=
  ⟨"helper", [], [], ⟨2, 1⟩⟩

/-- The function that is yielded is the second one made, or the first if the order is the other,
and an exchange accounts for that. -/
theorem definition_order_ignored_swapped :
    ([comparingMain, idleHelper].map Procedure.name).Nodup ∧
    [comparingMain, idleHelper].Perm [idleHelper, comparingMain] ∧
    ((Interpreter.new ⟨"main", 3⟩ {}).run 9 ⟨[comparingMain, idleHelper]⟩).outcome =
      .ok (.function ⟨1, idleHelper, 0⟩) ∧
    ((Interpreter.new ⟨"main", 3⟩ {}).run 9 ⟨[idleHelper, comparingMain]⟩).outcome =
      .ok (.function ⟨0, idleHelper, 0⟩) ∧
    ∃ exchange : Exchange,
      ((Interpreter.new ⟨"main", 3⟩ {}).run 9 ⟨[idleHelper, comparingMain]⟩).outcome =
        ((Interpreter.new ⟨"main", 3⟩ {}).run 9 ⟨[comparingMain, idleHelper]⟩).outcome.map
          exchange.value := by
  have distinct : ([comparingMain, idleHelper].map Procedure.name).Nodup := by decide
  have permuted : [comparingMain, idleHelper].Perm [idleHelper, comparingMain] :=
    .swap idleHelper comparingMain []
  refine ⟨distinct, permuted, by with_unfolding_all rfl, by with_unfolding_all rfl, ?_⟩
  obtain ⟨exchange, same⟩ := definition_order_ignored ⟨_⟩ ⟨_⟩ distinct permuted
  exact ⟨exchange, ((same ⟨"main", 3⟩ {}).2 9).1⟩

end Scriptlet
