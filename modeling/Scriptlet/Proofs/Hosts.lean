/-
This file proves that chains of scopes are well founded, whatever is done with an interpreter. A
host makes scopes, binds names and assigns to them, reads names, makes functions, has tasks
performed and runs programs, in any order and however these end. It can name only scopes and
function values that it has been handed before, and so it never names a scope that has not been
made: this is an invariant of every operation, together with the same for parents, for functions
in bindings and in lists, and for the procedures.

During an operation the invariant holds at every moment of its timeline. No operation takes a scope
out of the scope it was made in, so the chains that a block runs in stay as they are to its end.
-/

import Scriptlet.Proofs.Allocated
import Scriptlet.Proofs.EntryCall
import Scriptlet.Proofs.Reachability
import Scriptlet.Proofs.ScopeChains

namespace Scriptlet

/-! ### What results hold -/

/-- The function values that a signal carries. -/
def Signal.closures : Signal → List Closure
  | .returning value => value.closures
  | _ => []

/-- The function values in the answer of a task. -/
def Task.closures : (task : Task) → task.Answer → List Closure
  | .eval _ _, value => Value.closures value
  | .evalCondition _ _, _ => []
  | .evalAll _ _, values => closuresOf values
  | .evalCall _ _ _ _, value => Value.closures value
  | .callValue _ _ _, value => Value.closures value
  | .callClosure _ _ _, value => Value.closures value
  | .execBlock _ _, signal => Signal.closures signal
  | .execStatement _ _, signal => Signal.closures signal
  | .execLoop _ _ _, signal => Signal.closures signal

theorem Signal.Within.closures {size : Nat} {signal : Signal} (within : signal.Within size) :
    ∀ closure ∈ signal.closures, closure.scope < size := by
  cases signal with
  | returning value => exact within
  | _ => exact List.forall_mem_nil _

theorem Task.scope_of_yields {task : Task} {size : Nat} {answer : task.Answer}
    (yields : task.Yields size answer) :
    ∀ closure ∈ task.closures answer, closure.scope < size := by
  cases task with
  | evalCondition condition scope => exact List.forall_mem_nil _
  | evalAll expressions scope =>
    intro closure held
    rw [Task.closures, closuresOf_eq] at held
    obtain ⟨value, member, heldThere⟩ := List.mem_flatMap.mp held
    exact yields value member closure heldThere
  | execBlock statements scope => exact Signal.Within.closures yields
  | execStatement statement scope => exact Signal.Within.closures yields
  | execLoop condition body scope => exact Signal.Within.closures yields
  | _ => exact yields

/-! ### Hosts -/

/-- An interpreter with the scopes and the function values that its host has been handed. -/
structure Host where
  interpreter : Interpreter
  scopes : List ScopeId
  closures : List Closure

namespace Host

/-- What a host may do. -/
inductive Operation where
  | newRoot
  | newChild (parent : ScopeId)
  | define (scope : ScopeId) (binding : Binding)
  | assign (scope : ScopeId) (name : String) (value : Value)
  | lookup (scope : ScopeId) (name : String)
  | newClosure (procedure : Procedure) (scope : ScopeId)
  | perform (budget : Nat) (task : Task)
  | run (budget : Nat) (program : Program)

/-- The scopes of the host's interpreter. -/
abbrev store (host : Host) : Store :=
  host.interpreter.machine.store

/-- The host has been handed the scope, by itself or with a function value. -/
def Holds (host : Host) (scope : ScopeId) : Prop :=
  scope ∈ host.scopes ∨ ∃ closure ∈ host.closures, closure.scope = scope

/-- The host has been handed all function values that the value is made of. -/
def Knows (host : Host) (value : Value) : Prop :=
  ∀ closure ∈ value.closures, closure ∈ host.closures

/-- What the task is given the host has been handed. -/
def Grants (host : Host) : Task → Prop
  | .eval _ scope => host.Holds scope
  | .evalCondition _ scope => host.Holds scope
  | .evalAll _ scope => host.Holds scope
  | .evalCall _ _ _ scope => host.Holds scope
  | .callValue function arguments _ => host.Knows function ∧ ∀ value ∈ arguments, host.Knows value
  | .callClosure closure arguments _ =>
    closure ∈ host.closures ∧ ∀ value ∈ arguments, host.Knows value
  | .execBlock _ scope => host.Holds scope
  | .execStatement _ scope => host.Holds scope
  | .execLoop _ _ scope => host.Holds scope

/-- What the operation names the host has been handed. -/
def Permits (host : Host) : Operation → Prop
  | .newRoot => True
  | .newChild parent => host.Holds parent
  | .define scope binding => host.Holds scope ∧ host.Knows binding.value
  | .assign scope _ value => host.Holds scope ∧ host.Knows value
  | .lookup scope _ => host.Holds scope
  | .newClosure _ scope => host.Holds scope
  | .perform _ task => host.Grants task
  | .run _ _ => True

/-- The host with another state of its interpreter, once it has been handed scopes and functions. -/
def handed (host : Host) (interpreter : Interpreter) (scopes : List ScopeId)
    (closures : List Closure) : Host :=
  ⟨interpreter, scopes ++ host.scopes, closures ++ host.closures⟩

/-- The host behind a run, which hands it the functions in what it comes to. -/
def behind {α : Type} (host : Host) (run : Interpreter.Run α) (closures : α → List Closure) :
    Host :=
  host.handed run.interpreter [] (run.outcome.toOption.elim [] closures)

/-- The host behind an operation. -/
def apply (host : Host) : Operation → Host
  | .newRoot =>
    let made := host.interpreter.newRoot
    host.handed made.2 [made.1] []
  | .newChild parent =>
    let made := host.interpreter.newChild parent
    host.handed made.2 [made.1] []
  | .define scope binding => host.handed (host.interpreter.define scope binding) [] []
  | .assign scope name value =>
    match host.interpreter.assign scope name value with
    | .ok interpreter => host.handed interpreter [] []
    | .error _ => host
  | .lookup scope name =>
    host.handed host.interpreter []
      ((host.interpreter.lookup? scope name).elim [] Value.closures)
  | .newClosure procedure scope =>
    host.behind (host.interpreter.perform fun _ => Eval.newClosure procedure scope) Value.closures
  | .perform budget task =>
    host.behind (host.interpreter.perform fun context => task.perform context budget) task.closures
  | .run budget program => host.behind (host.interpreter.run budget program) Value.closures

/-- The moments of an operation. -/
def moments (host : Host) : Operation → List Moment
  | .perform budget task =>
    Task.timeline host.interpreter.context budget task host.interpreter.machine
  | .run budget program => host.interpreter.timeline budget program
  | _ => []

/-- What a host comes to that starts with a new interpreter and nothing in its hands. -/
inductive Reached (config : Config) (sink : Sink) : Host → Prop where
  | start : Reached config sink ⟨.new config sink, [], []⟩
  | next {host : Host} {operation : Operation} : Reached config sink host →
    host.Permits operation → Reached config sink (host.apply operation)

/-! ### The invariant -/

/-- No scope is named that has not been made. -/
structure Sound (host : Host) : Prop where
  closed : host.store.Closed
  rooted : host.interpreter.procedures.Rooted
  globals : host.interpreter.globals = 0
  filled : 0 < host.store.scopes.size
  scopes : ∀ scope ∈ host.scopes, scope < host.store.scopes.size
  closures : ∀ closure ∈ host.closures, closure.scope < host.store.scopes.size

namespace Sound

variable {host : Host}

theorem start (config : Config) (sink : Sink) : Sound ⟨.new config sink, [], []⟩ where
  closed := .newRoot
  rooted := List.forall_mem_nil _
  globals := rfl
  filled := Nat.one_pos
  scopes := List.forall_mem_nil _
  closures := List.forall_mem_nil _

/-! #### Handles -/

theorem lt_of_holds (sound : host.Sound) {scope : ScopeId} (holds : host.Holds scope) :
    scope < host.store.scopes.size := by
  rcases holds with handed | ⟨closure, handed, rfl⟩
  · exact sound.scopes scope handed
  · exact sound.closures closure handed

theorem within_of_knows (sound : host.Sound) {value : Value} (knows : host.Knows value) :
    value.Within host.store.scopes.size :=
  fun closure held => sound.closures closure (knows closure held)

theorem within_of_grants (sound : host.Sound) {task : Task} (grants : host.Grants task) :
    task.Within host.store.scopes.size := by
  cases task with
  | callValue function arguments position =>
    exact ⟨sound.within_of_knows grants.1,
      fun value member => sound.within_of_knows (grants.2 value member)⟩
  | callClosure closure arguments position =>
    exact ⟨sound.closures closure grants.1,
      fun value member => sound.within_of_knows (grants.2 value member)⟩
  | _ => exact sound.lt_of_holds grants

/-- A name stands for a value of a binding or for a procedure. -/
theorem within_of_lookup? (sound : host.Sound) {scope : ScopeId} {name : String} {value : Value}
    (found : host.interpreter.lookup? scope name = some value) :
    value.Within host.store.scopes.size := by
  unfold Interpreter.lookup? at found
  split at found
  · rename_i held bound
    cases found
    exact sound.closed.values.get? bound
  · obtain ⟨closure, present, rfl⟩ := Option.map_eq_some_iff.mp found
    exact .function (sound.rooted.scope_lt_of_find? sound.filled present)

/-! #### Operations -/

/-- A change of the interpreter that leaves its procedures alone. -/
theorem handed (sound : host.Sound) {interpreter : Interpreter} {scopes : List ScopeId}
    {closures : List Closure} (leads : host.store.Leads interpreter.machine.store)
    (procedures : interpreter.procedures = host.interpreter.procedures)
    (globals : interpreter.globals = host.interpreter.globals)
    (made : ∀ scope ∈ scopes, scope < interpreter.machine.store.scopes.size)
    (held : ∀ closure ∈ closures, closure.scope < interpreter.machine.store.scopes.size) :
    (host.handed interpreter scopes closures).Sound where
  closed := leads.closed
  rooted := by
    show interpreter.procedures.Rooted
    rw [procedures]
    exact sound.rooted
  globals := globals.trans sound.globals
  filled := Nat.lt_of_lt_of_le sound.filled leads.size_le
  scopes := by
    intro scope member
    rcases List.mem_append.mp member with new | old
    · exact made scope new
    · exact Nat.lt_of_lt_of_le (sound.scopes scope old) leads.size_le
  closures := by
    intro closure member
    rcases List.mem_append.mp member with new | old
    · exact held closure new
    · exact Nat.lt_of_lt_of_le (sound.closures closure old) leads.size_le

/-- A step that arrives hands out functions whose scopes are there. -/
theorem behind {α : Type} (sound : host.Sound) {step : Context → Eval α} {moments : List Moment}
    {known : Nat → α → Prop} {closures : α → List Closure}
    (arrives : Arrives host.store.scopes.size known host.store moments
      (step host.interpreter.context host.interpreter.machine))
    (holds : ∀ {bound value}, known bound value → ∀ closure ∈ closures value,
      closure.scope < bound) :
    Route host.store moments (host.behind (host.interpreter.perform step) closures).store ∧
      (host.behind (host.interpreter.perform step) closures).Sound := by
  unfold Interpreter.perform EStateM.run
  cases came : step host.interpreter.context host.interpreter.machine with
  | ok value last =>
    rw [came] at arrives
    obtain ⟨route, bound, -, present, yields⟩ := arrives
    refine ⟨route, sound.handed route.leads rfl rfl (List.forall_mem_nil _) ?_⟩
    exact fun closure held => Nat.lt_of_lt_of_le (holds yields closure held) present
  | error interrupt last =>
    rw [came] at arrives
    exact ⟨arrives, sound.handed (Route.leads arrives) rfl rfl (List.forall_mem_nil _)
      (List.forall_mem_nil _)⟩

/-- The procedures of a program see the first scope. -/
theorem load (sound : host.Sound) (program : Program) :
    Sound { host with interpreter := host.interpreter.load program } where
  closed := sound.closed
  rooted := by
    show (ProcedureTable.build _ host.interpreter.globals program.procedures).Rooted
    rw [sound.globals]
    exact ProcedureTable.rooted_build _ _
  globals := sound.globals
  filled := sound.filled
  scopes := sound.scopes
  closures := sound.closures

/-- The flush behind the entry call is no moment, and it hands out nothing. -/
theorem run (sound : host.Sound) (budget : Nat) (program : Program) :
    Route host.store (host.interpreter.timeline budget program)
        (host.behind (host.interpreter.run budget program) Value.closures).store ∧
      (host.behind (host.interpreter.run budget program) Value.closures).Sound := by
  have loaded := sound.load program
  rw [Interpreter.timeline, Interpreter.run]
  cases present : (host.interpreter.load program).procedures.find?
      (host.interpreter.load program).config.entry with
  | none => exact ⟨.refl loaded.closed, loaded⟩
  | some entry =>
    have within : (Task.callClosure entry [] entry.procedure.position).Within
        host.store.scopes.size :=
      ⟨loaded.rooted.scope_lt_of_find? sound.filled present, List.forall_mem_nil _⟩
    have table : (host.interpreter.load program).context.procedures.Rooted := loaded.rooted
    have arrives := Task.timeline_recorded table budget _ _ _ within loaded.closed (Nat.le_refl _)
    have flushed : Arrives host.store.scopes.size Value.Within host.store
        (Task.timeline (host.interpreter.load program).context budget
          (.callClosure entry [] entry.procedure.position) (host.interpreter.load program).machine)
        (Interpreter.runEntry budget entry (host.interpreter.load program).context
          (host.interpreter.load program).machine) := by
      rcases Interpreter.runEntry_cases rfl with same | ⟨details, failed⟩
      · rw [same]
        exact arrives
      · rw [failed]
        exact arrives.route
    exact loaded.behind flushed fun within => within

/-- Every operation that names only what the host has been handed keeps the invariant, and there is
a route through its moments. -/
theorem apply (sound : host.Sound) {operation : Operation} (permits : host.Permits operation) :
    Route host.store (host.moments operation) (host.apply operation).store ∧
      (host.apply operation).Sound := by
  cases operation with
  | newRoot =>
    have leads : host.store.Leads host.store.newRoot.2 := .newRoot sound.closed
    refine ⟨leads, sound.handed leads rfl rfl (fun scope made => ?_) (List.forall_mem_nil _)⟩
    rw [List.mem_singleton.mp made]
    exact Nat.lt_of_lt_of_eq (Nat.lt_succ_self _) (Store.size_newRoot host.store).symm
  | newChild parent =>
    have leads : host.store.Leads (host.store.newChild parent).2 :=
      .newChild sound.closed (sound.lt_of_holds permits)
    refine ⟨leads, sound.handed leads rfl rfl (fun scope made => ?_) (List.forall_mem_nil _)⟩
    rw [List.mem_singleton.mp made]
    exact Nat.lt_of_lt_of_eq (Nat.lt_succ_self _) (Store.size_newChild host.store parent).symm
  | define scope binding =>
    have leads : host.store.Leads (host.store.define scope binding) :=
      .define sound.closed scope (sound.within_of_knows permits.2)
    exact ⟨leads, sound.handed leads rfl rfl (List.forall_mem_nil _) (List.forall_mem_nil _)⟩
  | assign scope name value =>
    rw [Host.apply, Interpreter.assign]
    cases assigned : host.interpreter.machine.store.assign scope name value with
    | error fault => exact ⟨.refl sound.closed, sound⟩
    | ok after =>
      obtain ⟨located, -, rfl⟩ := Store.of_assign_ok assigned
      have leads : host.store.Leads (host.store.write located.scope name value) :=
        .write sound.closed located.scope name (sound.within_of_knows permits.2)
      exact ⟨leads, sound.handed leads rfl rfl (List.forall_mem_nil _) (List.forall_mem_nil _)⟩
  | lookup scope name =>
    refine ⟨.refl sound.closed, sound.handed (.refl sound.closed) rfl rfl
      (List.forall_mem_nil _) ?_⟩
    cases found : host.interpreter.lookup? scope name with
    | none => exact List.forall_mem_nil _
    | some value => exact sound.within_of_lookup? found
  | newClosure procedure scope =>
    have arrives := Eval.Safe.newClosure procedure (sound.lt_of_holds permits)
      host.interpreter.machine sound.closed (Nat.le_refl _)
    exact sound.behind arrives fun within => within
  | perform budget task =>
    have table : host.interpreter.context.procedures.Rooted := sound.rooted
    have arrives := Task.timeline_recorded table budget task _ _ (sound.within_of_grants permits)
      sound.closed (Nat.le_refl _)
    exact sound.behind arrives Task.scope_of_yields
  | run budget program => exact sound.run budget program

end Sound

theorem Reached.sound {config : Config} {sink : Sink} {host : Host}
    (reached : Reached config sink host) : host.Sound := by
  induction reached with
  | start => exact .start config sink
  | next _ permits sound => exact (sound.apply permits).2

/-- The scopes that procedures see and those that the host has been handed have been made. -/
structure Anchored (host : Host) : Prop where
  globals : host.interpreter.globals < host.store.scopes.size
  procedures : ∀ closure ∈ host.interpreter.procedures.entries,
    closure.scope < host.store.scopes.size
  handles : ∀ scope, host.Holds scope → scope < host.store.scopes.size

theorem Sound.anchored {host : Host} (sound : host.Sound) : host.Anchored where
  globals := by
    rw [sound.globals]
    exact sound.filled
  procedures := sound.rooted.scope_lt sound.filled
  handles _ := sound.lt_of_holds

end Host

/-- Whatever a host has done with an interpreter: what is held in the store, by the procedures and
by the host leads to scopes that have been made, the scope around one was made before it, and walks
outward come to an end. The next operation keeps every scope inside the scope it is in. At each of
its moments the store is of this kind as well, and the scopes that a task was given when it started
are there at its start and at every later moment. -/
theorem scopeChains_wellFounded {config : Config} {sink : Sink} {host : Host}
    (reached : Host.Reached config sink host) :
    host.store.Grounded ∧ host.Anchored ∧ ∀ operation, host.Permits operation →
      host.store.Persists (host.apply operation).store ∧
      (∀ moment ∈ host.moments operation, moment.machine.store.Grounded ∧
        host.store.Persists moment.machine.store ∧
        moment.machine.store.Persists (host.apply operation).store) ∧
      ∀ (place further : Nat) (earlier later : Moment), place ≤ further →
        (host.moments operation)[place]? = some earlier →
        (host.moments operation)[further]? = some later →
        earlier.machine.store.Persists later.machine.store ∧
          earlier.task.Within later.machine.store.scopes.size := by
  have sound := reached.sound
  refine ⟨sound.closed.grounded, sound.anchored, fun operation permits => ?_⟩
  obtain ⟨route, -⟩ := sound.apply permits
  refine ⟨route.leads.persists, fun moment member => ?_, ?_⟩
  · obtain ⟨earlier, later⟩ := route.of_mem member
    exact ⟨earlier.closed.grounded, earlier.persists, later.persists⟩
  · intro place further earlier later le earlierAt laterAt
    obtain ⟨leads, within⟩ := route.between le earlierAt laterAt
    exact ⟨leads.persists, within⟩

/-- A block that binds a list with a function in it and fails in the first round of a loop. -/
def failingBlock : List Statement :=
  [.declare "functions" (.call (.identifier "list" ⟨1, 7⟩)
      [.lambda ⟨Procedure.lambdaName, [], [], ⟨1, 12⟩⟩ ⟨1, 12⟩] ⟨1, 11⟩) .constant ⟨1, 1⟩,
    .loop (.literal (.bool true) ⟨2, 8⟩) [.evaluate (.identifier "missing" ⟨2, 15⟩) ⟨2, 15⟩] ⟨2, 1⟩]

/-- A host that has run the block in a scope inside another one and has failed to assign there. -/
def failedHost : Host :=
  let start : Host := ⟨.new ⟨"main", 3⟩ {}, [], []⟩
  ((((start.apply .newRoot).apply (.newChild 1)).apply
    (.define 2 ⟨"count", .int 1, .mutable⟩)).apply
    (.perform 20 (.execBlock failingBlock 2))).apply (.assign 2 "missing" .nil)

theorem failedHost_reached : Host.Reached ⟨"main", 3⟩ {} failedHost := by
  have held : ∀ {host : Host}, host.scopes = [2, 1] → host.Holds 2 := fun same => by
    rw [Host.Holds, same]
    exact Or.inl List.mem_cons_self
  have plain : ∀ {host : Host} {value : Value}, value.closures = [] → host.Knows value :=
    fun same => by
      rw [Host.Knows, same]
      exact List.forall_mem_nil _
  unfold failedHost
  refine .next (.next (.next (.next (.next .start ?_) ?_) ?_) ?_) ?_
  · trivial
  · exact Or.inl (by decide +kernel)
  · exact ⟨held (by decide +kernel), plain rfl⟩
  · exact held (by decide +kernel)
  · exact ⟨held (by decide +kernel), plain rfl⟩

/-- The function in the list sees the scope of the block, and the scope of the failed round lies
inside it. -/
theorem scopeChains_wellFounded_failed :
    (failedHost.store.get? 3 "functions").map Value.captured = some [2] ∧
    failedHost.store.depth 3 = 3 ∧ failedHost.store.scopes.size = 4 ∧
    Host.Reached ⟨"main", 3⟩ {} failedHost ∧ failedHost.store.Grounded ∧ failedHost.Anchored :=
  have chains := scopeChains_wellFounded failedHost_reached
  ⟨by decide +kernel, by decide +kernel, by decide +kernel, failedHost_reached, chains.1,
    chains.2.1⟩

end Scriptlet
