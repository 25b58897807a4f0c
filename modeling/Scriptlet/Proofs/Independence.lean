/-
This file proves that runs on one interpreter do not influence each other. An interpreter
keeps its store, its output and its count of function values from run to run, also after a
run that was interrupted inside nested calls. But between runs no call is under way, and
the scope that all procedures see is empty: a run declares names only in scopes that it
has made itself. So a program starts in a store that mirrors the store of an interpreter
that has run nothing, and does there what it does on such an interpreter.
-/

import Scriptlet.Proofs.CallLimit
import Scriptlet.Proofs.Passage
import Scriptlet.Proofs.Reachability
import Scriptlet.Proofs.Rerun

namespace Scriptlet

/-! ### The scope that all procedures see -/

/-- An empty scope that gains no names stays as it is. -/
theorem Scope.Kept.eq_of_empty {kept : Scope} (keeps : (⟨none, []⟩ : Scope).Kept (noNames 0) kept) :
    kept = ⟨none, []⟩ := by
  obtain ⟨parent, bindings⟩ := kept
  cases bindings with
  | nil =>
    have outer : parent = none := keeps.parent
    rw [outer]
  | cons binding rest =>
    have free : (Scope.mk parent (binding :: rest)).find? binding.name = none :=
      (keeps.gained rfl).resolve_right id
    simp [Scope.find?] at free

namespace Passage

variable {gains : ScopeId → String → Prop} {first last : Store} {moments : List Moment}
  {scope : ScopeId} {name : String}

/-- What is bound at the start is bound at the end. -/
theorem binds_of_first (passage : Passage gains first moments last)
    (bound : first.binds scope name = true) : last.binds scope name = true := by
  induction moments generalizing first with
  | nil => exact Store.Kept.binds passage bound
  | cons moment rest inductionHypothesis =>
    exact inductionHypothesis passage.2.2 (passage.1.binds bound)

/-- What is bound at a moment is bound at the end. -/
theorem binds_of_mem (passage : Passage gains first moments last) {moment : Moment}
    (member : moment ∈ moments) (bound : moment.machine.store.binds scope name = true) :
    last.binds scope name = true := by
  induction moments generalizing first with
  | nil => cases member
  | cons head rest inductionHypothesis =>
    cases member with
    | head => exact passage.2.2.binds_of_first bound
    | tail _ inRest => exact inductionHypothesis passage.2.2 inRest

end Passage

namespace Interpreter

/-! ### Between runs -/

/-- An interpreter before and after a run: no call is under way, the scope that procedures see is
empty, and there has been some output. -/
structure Idle (config : Config) (sink : Sink) (interpreter : Interpreter) : Prop where
  config : interpreter.config = config
  globals : interpreter.globals = 0
  root : interpreter.machine.store.scopes[0]? = some ⟨none, []⟩
  depth : interpreter.machine.depth = 0
  output : sink.Extends interpreter.machine.sink

/-- The interpreter behind runs, one after the other, each with a budget. -/
def after (interpreter : Interpreter) (runs : List (Nat × Program)) : Interpreter :=
  runs.foldl (fun current run => (current.run run.1 run.2).interpreter) interpreter

end Interpreter

/-- A sink that takes all that is written and can be flushed. -/
structure Sink.Unfailing (sink : Sink) : Prop where
  limit : sink.limit = none
  flushFailure : sink.flushFailure = none

theorem Sink.Unfailing.extends {sink later : Sink} (unfailing : sink.Unfailing)
    (more : sink.Extends later) : later.Unfailing := by
  obtain ⟨bytes, rfl⟩ := more
  exact ⟨unfailing.limit, unfailing.flushFailure⟩

namespace Interpreter.Idle

variable {config : Config} {sink : Sink} {interpreter : Interpreter}

theorem new (config : Config) (sink : Sink) : (Interpreter.new config sink).Idle config sink :=
  ⟨rfl, rfl, rfl, rfl, .refl sink⟩

theorem load (idle : interpreter.Idle config sink) (program : Program) :
    (interpreter.load program).Idle config sink :=
  ⟨idle.config, idle.globals, idle.root, idle.depth, idle.output⟩

/-- A call leaves the scope that procedures see empty, however it ends. -/
theorem call (idle : interpreter.Idle config sink) {context : Context} {budget : Nat}
    {closure : Closure} {arguments : List Value} {position : Position} {outcome : Outcome Value}
    (came : Eval.callClosure context budget closure arguments position interpreter.machine =
      outcome) :
    Idle config sink { interpreter with machine := outcome.machine } := by
  have kept : interpreter.machine.store.Kept noNames outcome.machine.store := by
    rw [← came]
    exact Task.keepsBindings context budget (.callClosure closure arguments position)
      interpreter.machine trivial
  obtain ⟨added, sameDepth⟩ : interpreter.machine.sink.Extends outcome.machine.sink ∧
      outcome.machine.depth = interpreter.machine.depth := by
    rw [← came]
    exact Task.perform_appends context budget (.callClosure closure arguments position)
      interpreter.machine
  obtain ⟨root, present, rootKept⟩ := kept idle.root
  rw [rootKept.eq_of_empty] at present
  exact ⟨idle.config, idle.globals, present, sameDepth.trans idle.depth, idle.output.trans added⟩

theorem run (idle : interpreter.Idle config sink) (unfailing : sink.Unfailing) (budget : Nat)
    (program : Program) : (interpreter.run budget program).interpreter.Idle config sink := by
  cases called : interpreter.entryCall? budget program with
  | none =>
    rw [run_of_entryCall?_none called]
    exact idle.load program
  | some outcome =>
    rw [run_of_entryCall?_some (unfailing.extends idle.output).flushFailure called]
    obtain ⟨entry, present, came⟩ := Option.map_eq_some_iff.mp called
    exact (idle.load program).call came

theorem after (idle : interpreter.Idle config sink) (unfailing : sink.Unfailing)
    (runs : List (Nat × Program)) : (interpreter.after runs).Idle config sink := by
  induction runs generalizing interpreter with
  | nil => exact idle
  | cons first rest inductionHypothesis =>
    exact inductionHypothesis (idle.run unfailing first.1 first.2)

theorem rooted (idle : interpreter.Idle config sink) : 0 < interpreter.machine.store.scopes.size :=
  (Array.getElem?_eq_some_iff.mp idle.root).1

/-- At every moment of a run the scope that procedures see is empty. A name that was bound there
would be bound at the end. -/
theorem globals_free (idle : interpreter.Idle config sink) (budget : Nat) (program : Program) :
    ∀ moment ∈ interpreter.timeline budget program, ∀ name,
      moment.machine.store.binds interpreter.globals name = false := by
  intro moment member name
  rw [idle.globals]
  unfold timeline at member
  dsimp only at member
  split at member
  · cases member
  · rename_i entry present
    have passage := Task.timeline_follows (interpreter.load program).context budget
      (.callClosure entry [] entry.procedure.position) (interpreter.load program).machine trivial
    have kept : Store.Kept noNames _ _ :=
      Task.keepsBindings (interpreter.load program).context budget
        (.callClosure entry [] entry.procedure.position) (interpreter.load program).machine trivial
    have free : (interpreter.load program).machine.store.binds 0 name = false := by
      rw [Store.binds, (idle.load program).root]
      rfl
    refine Bool.eq_false_iff.mpr fun bound => ?_
    exact kept.gained (idle.load program).rooted free (passage.binds_of_mem member bound)

end Interpreter.Idle

/-! ### Running behind other runs -/

namespace Interpreter

/-- Where an interpreter puts what another one, which has run nothing, puts first. -/
def relocation (interpreter : Interpreter) : Relocation where
  scopes := interpreter.machine.store.scopes.size - 1
  closures := interpreter.machine.closures

/-- The run of a program on the first interpreter is its run on the second one, relocated: it comes
to the same, writes the same and leaves the same variables. -/
structure Repeats (interpreter fresh : Interpreter) (budget : Nat) (program : Program) : Prop where
  outcome : (interpreter.run budget program).outcome =
    (fresh.run budget program).outcome.map interpreter.relocation.value
  output : ∃ bytes,
    (fresh.run budget program).interpreter.machine.sink = fresh.machine.sink.appending bytes ∧
    (interpreter.run budget program).interpreter.machine.sink =
      interpreter.machine.sink.appending bytes
  scopes : ∀ scope,
    (interpreter.run budget program).interpreter.machine.store.scopes[
        interpreter.relocation.scope scope]? =
      (fresh.run budget program).interpreter.machine.store.scopes[scope]?.map
        interpreter.relocation.contents

/-- The pairing of a run on an interpreter with a run on one that has run nothing. -/
def pairing (interpreter : Interpreter) {other : Sink} (unfailing : other.Unfailing)
    (mirror : interpreter.machine.sink.Unfailing) : Pairing where
  toRelocation := interpreter.relocation
  sink := other
  mirrorSink := interpreter.machine.sink
  unlimited := unfailing.limit
  mirrorUnlimited := mirror.limit

namespace Idle

variable {config : Config} {sink other : Sink} {interpreter : Interpreter}

/-- The procedures that an idle interpreter loads are those that a new one loads, relocated. -/
theorem procedures_load (idle : interpreter.Idle config sink) (program : Program) :
    (interpreter.load program).procedures =
      interpreter.relocation.table ((Interpreter.new config other).load program).procedures := by
  show ProcedureTable.build _ interpreter.globals program.procedures =
    interpreter.relocation.table (.build 0 0 program.procedures)
  rw [Relocation.table_build, idle.globals]
  rfl

theorem context_load (idle : interpreter.Idle config sink) (program : Program) :
    (interpreter.load program).context =
      interpreter.relocation.context ((Interpreter.new config other).load program).context := by
  have limit : (interpreter.load program).config.maxDepth = config.maxDepth :=
    congrArg Config.maxDepth idle.config
  unfold context
  rw [idle.procedures_load program, limit]
  rfl

/-- The machines that the two runs start with are paired. -/
theorem pairs_load (idle : interpreter.Idle config sink) (unfailing : other.Unfailing)
    (mirror : interpreter.machine.sink.Unfailing) (program : Program) :
    (interpreter.pairing unfailing mirror).Pairs
      ((Interpreter.new config other).load program).machine
      (interpreter.load program).machine where
  store := {
    rooted := Nat.succ_pos 0
    size := (Nat.add_sub_cancel' (Nat.succ_le_of_lt idle.rooted)).symm
    scopes := by
      intro scope
      cases scope with
      | zero => exact idle.root
      | succ place =>
        refine Array.getElem?_eq_none ?_
        show interpreter.machine.store.scopes.size ≤
          place + 1 + (interpreter.machine.store.scopes.size - 1)
        omega }
  closed := .newRoot
  output := ⟨.empty, other.appending_empty.symm, (Sink.appending_empty _).symm⟩
  depth := idle.depth
  closures := by
    show interpreter.machine.closures + program.procedures.length =
      0 + program.procedures.length + interpreter.machine.closures
    rw [Nat.zero_add, Nat.add_comm]

/-- A program does on an idle interpreter what it does on a new one. -/
theorem repeats (idle : interpreter.Idle config sink) (unfailing : other.Unfailing)
    (mirror : interpreter.machine.sink.Unfailing) (budget : Nat) (program : Program) :
    interpreter.Repeats (Interpreter.new config other) budget program := by
  have pairs := idle.pairs_load unfailing mirror program
  suffices paired : (interpreter.run budget program).outcome =
        ((Interpreter.new config other).run budget program).outcome.map
          interpreter.relocation.value ∧
      (interpreter.pairing unfailing mirror).Pairs
        ((Interpreter.new config other).run budget program).interpreter.machine
        (interpreter.run budget program).interpreter.machine from
    ⟨paired.1, paired.2.output, paired.2.store.scopes⟩
  have found : (interpreter.load program).procedures.find? (interpreter.load program).config.entry =
      (((Interpreter.new config other).load program).procedures.find? config.entry).map
        interpreter.relocation.closure := by
    rw [idle.procedures_load program, (idle.load program).config]
    exact Relocation.find?_table _ _ _
  cases present : ((Interpreter.new config other).load program).procedures.find? config.entry with
  | none =>
    have missing : (Interpreter.new config other).entryCall? budget program = none :=
      Option.map_eq_none_iff.mpr present
    have missingHere : interpreter.entryCall? budget program = none := by
      rw [present] at found
      exact Option.map_eq_none_iff.mpr found
    rw [run_of_entryCall?_none missing, run_of_entryCall?_none missingHere, idle.config]
    exact ⟨rfl, pairs⟩
  | some entry =>
    have rooted : ((Interpreter.new config other).load program).context.procedures.Rooted :=
      ProcedureTable.rooted_build _ program.procedures
    have within : (Task.callClosure entry [] entry.procedure.position).Within 1 := by
      refine ⟨?_, nofun⟩
      rw [rooted entry (List.mem_of_find?_eq_some present)]
      exact Nat.one_pos
    have paired := Task.perform_tracks rooted budget _ within _ _ pairs (Nat.le_refl 1)
    have called : (Interpreter.new config other).entryCall? budget program = some _ :=
      Option.map_eq_some_iff.mpr ⟨entry, present, rfl⟩
    have calledHere : interpreter.entryCall? budget program =
        some (Eval.callClosure
          (interpreter.relocation.context ((Interpreter.new config other).load program).context)
          budget (interpreter.relocation.closure entry) [] entry.procedure.position
          (interpreter.load program).machine) := by
      rw [present] at found
      refine Option.map_eq_some_iff.mpr ⟨_, found, ?_⟩
      rw [idle.context_load program]
      rfl
    rw [run_of_entryCall?_some unfailing.flushFailure called,
      run_of_entryCall?_some mirror.flushFailure calledHere]
    exact paired.machines

end Idle

end Interpreter

/-- On one interpreter, behind any number of runs and however these have ended: a program comes to
what it comes to on a new interpreter, writes the same bytes and leaves the same variables, up to
the places of scopes and the identities of functions. No name is bound in the scope that all
procedures see, at any moment of the run, and no call is under way behind it. -/
theorem runs_are_independent (config : Config) (sink other : Sink) (unfailing : sink.Unfailing)
    (otherUnfailing : other.Unfailing) (runs : List (Nat × Program)) (budget : Nat)
    (program : Program) :
    let interpreter := (Interpreter.new config sink).after runs
    interpreter.Repeats (Interpreter.new config other) budget program ∧
    (Function.Injective interpreter.relocation.scope ∧
      Function.Injective interpreter.relocation.identity) ∧
    (∀ moment ∈ interpreter.timeline budget program, ∀ name,
      moment.machine.store.binds interpreter.globals name = false) ∧
    (interpreter.run budget program).interpreter.machine.depth = 0 := by
  intro interpreter
  have idle : interpreter.Idle config sink :=
    (Interpreter.Idle.new config sink).after unfailing runs
  exact ⟨idle.repeats otherUnfailing (unfailing.extends idle.output) budget program,
    ⟨interpreter.relocation.scope_injective, interpreter.relocation.identity_injective⟩,
    idle.globals_free budget program, (idle.run unfailing budget program).depth⟩

/-- The program `proc main() { println(main); return lam() -> { main(); }; }`. -/
def yieldingProgram : Program :=
  ⟨[⟨"main", [], [
    .evaluate (.call (.identifier "println" ⟨1, 15⟩) [.identifier "main" ⟨1, 23⟩] ⟨1, 22⟩) ⟨1, 15⟩,
    .leave (some (.lambda ⟨Procedure.lambdaName, [], [
      .evaluate (.call (.identifier "main" ⟨1, 51⟩) [] ⟨1, 55⟩) ⟨1, 51⟩], ⟨1, 37⟩⟩ ⟨1, 37⟩))
      ⟨1, 30⟩], ⟨1, 1⟩⟩]⟩

/-- A program without procedures, and one that is refused a call inside three others. -/
def failingRuns : List (Nat × Program) :=
  [(5, ⟨[]⟩), (50, endlessProgram)]

/-- The function that the program yields behind the two failing runs sees the scope made next, and
it is the function that a new interpreter yields, relocated. -/
theorem runs_are_independent_yielding :
    (((Interpreter.new ⟨"main", 3⟩ {}).after failingRuns).run 9
      yieldingProgram).outcome.toOption.map Value.captured = some [4] ∧
    ((Interpreter.new ⟨"main", 3⟩ {}).run 9
      yieldingProgram).outcome.toOption.map Value.captured = some [1] ∧
    ((Interpreter.new ⟨"main", 3⟩ {}).after failingRuns).Repeats (Interpreter.new ⟨"main", 3⟩ {}) 9
      yieldingProgram :=
  ⟨by decide +kernel, by decide +kernel,
    (runs_are_independent ⟨"main", 3⟩ {} {} ⟨rfl, rfl⟩ ⟨rfl, rfl⟩ failingRuns 9 yieldingProgram).1⟩

end Scriptlet
