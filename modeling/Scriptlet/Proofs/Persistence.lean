/-
This file says what it means that no scope is lost along a run. A store leads to a later one if
every scope is there still, inside the scope it was in, and what the later store holds leads to
scopes that are there. A route is a way through the moments of a run along which each store leads
to the next one, and at each moment the scopes that its task is given are there.

A step is safe from a number of scopes on if it leads from every closed store with so many scopes
to another one. Scopes are only ever added, so what is known of the value of a step is said with
a number that may be larger.
-/

import Scriptlet.Proofs.Bindings
import Scriptlet.Proofs.Rerun
import Scriptlet.Proofs.Timeline

namespace Scriptlet

/-! ### Scopes that stay -/

/-- Every scope that was there is there still, inside the scope it was in. -/
def Store.Persists (before after : Store) : Prop :=
  ∀ ⦃scope : ScopeId⦄ ⦃found : Scope⦄, before.scopes[scope]? = some found →
    ∃ later, after.scopes[scope]? = some later ∧ later.parent = found.parent

namespace Store.Persists

variable {first second third store after : Store}

theorem refl (store : Store) : store.Persists store :=
  fun _ found present => ⟨found, present, rfl⟩

theorem trans (earlier : first.Persists second) (later : second.Persists third) :
    first.Persists third := by
  intro scope found present
  obtain ⟨middle, presentMiddle, same⟩ := earlier present
  obtain ⟨last, presentLast, sameLast⟩ := later presentMiddle
  exact ⟨last, presentLast, sameLast.trans same⟩

theorem size_le (persists : first.Persists second) :
    first.scopes.size ≤ second.scopes.size := by
  refine Nat.le_of_not_lt fun fewer => ?_
  obtain ⟨last, present, -⟩ := persists (Array.getElem?_eq_getElem fewer)
  rw [Array.getElem?_eq_none (Nat.le_refl _)] at present
  cases present

/-- One more scope. -/
theorem push (store : Store) (last : Scope) : store.Persists ⟨store.scopes.push last⟩ := by
  intro scope found present
  have old : scope < store.scopes.size := (Array.getElem?_eq_some_iff.mp present).1
  refine ⟨found, ?_, rfl⟩
  rw [Array.getElem?_push, if_neg (Nat.ne_of_lt old)]
  exact present

/-- A change of one scope that leaves the scope around it. -/
theorem modify (target : ScopeId) {change : Scope → Scope}
    (changed : ∀ scope, after.scopes[scope]? =
      if target = scope then store.scopes[scope]?.map change else store.scopes[scope]?)
    (parent : ∀ found, (change found).parent = found.parent) : store.Persists after := by
  intro scope found present
  rw [changed, present]
  split
  · exact ⟨change found, rfl, parent found⟩
  · exact ⟨found, rfl, rfl⟩

end Store.Persists

namespace ProcedureTable.Rooted

variable {table : ProcedureTable} {size : Nat}

/-- Procedures see the first scope, so as soon as there is one they see a scope that is there. -/
theorem scope_lt (rooted : table.Rooted) (filled : 0 < size) :
    ∀ closure ∈ table.entries, closure.scope < size := by
  intro closure member
  rw [rooted closure member]
  exact filled

theorem scope_lt_of_find? (rooted : table.Rooted) (filled : 0 < size) {name : String}
    {closure : Closure} (found : table.find? name = some closure) : closure.scope < size :=
  rooted.scope_lt filled closure (List.mem_of_find?_eq_some found)

end ProcedureTable.Rooted

/-- One more scope that nothing is around. -/
theorem Store.Closed.addRoot {store : Store} (closed : store.Closed) :
    store.newRoot.2.Closed := by
  have made : ∀ {scope : ScopeId} {found : Scope}, store.newRoot.2.scopes[scope]? = some found →
      store.scopes[scope]? = some found ∨ found = ⟨none, []⟩ := by
    intro scope found present
    simp only [Store.newRoot, Array.getElem?_push] at present
    split at present
    · cases present
      exact Or.inr rfl
    · exact Or.inl present
  constructor
  · intro scope parent found present around
    rcases made present with before | rfl
    · exact closed.parent before around
    · cases around
  · intro scope found present binding member
    rw [Store.size_newRoot]
    rcases made present with before | rfl
    · exact (closed.values before binding member).mono (Nat.le_succ _)
    · cases member

/-- A closed store in which all scopes of the first one persist. -/
structure Store.Leads (before after : Store) : Prop where
  persists : before.Persists after
  closed : after.Closed

namespace Store.Leads

variable {first second third store : Store}

theorem refl (closed : store.Closed) : store.Leads store :=
  ⟨.refl store, closed⟩

theorem trans (earlier : first.Leads second) (later : second.Leads third) : first.Leads third :=
  ⟨earlier.persists.trans later.persists, later.closed⟩

theorem size_le (leads : first.Leads second) : first.scopes.size ≤ second.scopes.size :=
  leads.persists.size_le

theorem newRoot (closed : store.Closed) : store.Leads store.newRoot.2 :=
  ⟨.push store _, closed.addRoot⟩

theorem newChild (closed : store.Closed) {parent : ScopeId} (present : parent < store.scopes.size) :
    store.Leads (store.newChild parent).2 :=
  ⟨.push store _, closed.newChild present⟩

theorem define (closed : store.Closed) (scope : ScopeId) {binding : Binding}
    (within : binding.value.Within store.scopes.size) : store.Leads (store.define scope binding) :=
  ⟨.modify scope (fun other => scope_define store scope other binding)
    fun found => Scope.parent_define found binding, closed.define scope within⟩

theorem write (closed : store.Closed) (scope : ScopeId) (name : String) {value : Value}
    (within : value.Within store.scopes.size) : store.Leads (store.write scope name value) :=
  ⟨.modify scope (fun other => scope_write store scope other name value)
    fun found => Scope.parent_write found name value, closed.write scope name within⟩

end Store.Leads

/-! ### Routes -/

/-- What a task is given is there in every later store. -/
theorem Task.Within.mono {task : Task} {size more : Nat} (within : task.Within size)
    (le : size ≤ more) : task.Within more := by
  cases task with
  | callValue function arguments position =>
    exact ⟨within.1.mono le, fun value member => (within.2 value member).mono le⟩
  | callClosure closure arguments position =>
    exact ⟨Nat.lt_of_lt_of_le within.1 le, fun value member => (within.2 value member).mono le⟩
  | _ => exact Nat.lt_of_lt_of_le within le

/-- A way from a store through moments to a last store. Each store leads to the next one, and the
scopes that a task is given are there at its moment. -/
def Route : Store → List Moment → Store → Prop
  | first, [], last => first.Leads last
  | first, moment :: rest, last =>
    first.Leads moment.machine.store ∧ moment.task.Within moment.machine.store.scopes.size ∧
      Route moment.machine.store rest last

namespace Route

variable {first second last : Store} {moments : List Moment}

/-- Steps without a moment may stand before a route. -/
theorem of_leads (leads : first.Leads second) (route : Route second moments last) :
    Route first moments last := by
  cases moments with
  | nil => exact Store.Leads.trans leads route
  | cons moment rest => exact ⟨leads.trans route.1, route.2⟩

theorem append {more : List Moment} (earlier : Route first moments second)
    (later : Route second more last) : Route first (moments ++ more) last := by
  induction moments generalizing first with
  | nil => exact of_leads earlier later
  | cons moment rest inductionHypothesis =>
    exact ⟨earlier.1, earlier.2.1, inductionHypothesis earlier.2.2⟩

theorem leads (route : Route first moments last) : first.Leads last := by
  induction moments generalizing first with
  | nil => exact route
  | cons moment rest inductionHypothesis => exact route.1.trans (inductionHypothesis route.2.2)

/-- Each moment on the way is behind the first store and in front of the last one. -/
theorem of_mem (route : Route first moments last) {moment : Moment} (member : moment ∈ moments) :
    first.Leads moment.machine.store ∧ moment.machine.store.Leads last := by
  induction moments generalizing first with
  | nil => cases member
  | cons head rest inductionHypothesis =>
    obtain ⟨start, -, further⟩ := route
    rcases List.mem_cons.mp member with rfl | inRest
    · exact ⟨start, further.leads⟩
    · obtain ⟨leads, there⟩ := inductionHypothesis further inRest
      exact ⟨start.trans leads, there⟩

/-- From a moment to itself or a later one: the scopes that the task of the first one was given are
there still. -/
theorem between (route : Route first moments last) {place further : Nat} (le : place ≤ further)
    {earlier later : Moment} (earlierAt : moments[place]? = some earlier)
    (laterAt : moments[further]? = some later) :
    earlier.machine.store.Leads later.machine.store ∧
      earlier.task.Within later.machine.store.scopes.size := by
  induction moments generalizing first place further with
  | nil => cases earlierAt
  | cons head rest inductionHypothesis =>
    obtain ⟨start, within, onward⟩ := route
    cases place with
    | zero =>
      cases earlierAt
      have leads : earlier.machine.store.Leads later.machine.store := by
        rcases List.mem_cons.mp (List.mem_of_getElem? laterAt) with rfl | inRest
        · exact .refl start.closed
        · exact (onward.of_mem inRest).1
      exact ⟨leads, within.mono leads.size_le⟩
    | succ place =>
      obtain ⟨further, rfl⟩ := Nat.exists_eq_add_one_of_ne_zero (Nat.ne_zero_of_lt le)
      exact inductionHypothesis onward (Nat.le_of_succ_le_succ le) earlierAt laterAt

end Route

/-! ### Steps -/

/-- Through these moments there is a route from a store to the outcome. If that is a value, what is
known of it holds for a number of scopes that are there. -/
def Arrives {α : Type} (size : Nat) (known : Nat → α → Prop) (first : Store)
    (moments : List Moment) : Outcome α → Prop
  | .ok value machine => Route first moments machine.store ∧
      ∃ bound, size ≤ bound ∧ bound ≤ machine.store.scopes.size ∧ known bound value
  | .error _ machine => Route first moments machine.store

namespace Arrives

variable {α β : Type} {size : Nat} {known : Nat → α → Prop} {first : Store}
  {moments : List Moment}

theorem route {outcome : Outcome α} (arrives : Arrives size known first moments outcome) :
    Route first moments outcome.machine.store := by
  cases outcome with
  | ok value machine => exact arrives.1
  | error interrupt machine => exact arrives

/-- A step that starts no task, with what is known of its value from the beginning. -/
theorem of_leads {value : α} {machine : Machine} (leads : first.Leads machine.store)
    (enough : size ≤ first.scopes.size) (holds : known size value) :
    Arrives size known first [] (.ok value machine) :=
  ⟨leads, size, Nat.le_refl size, Nat.le_trans enough leads.size_le, holds⟩

/-- What happens behind a value starts with what is known of it. -/
theorem andThen {knownNext : Nat → β → Prop} {value : α} {middle : Machine}
    {more : List Moment} {outcome : Outcome β}
    (arrives : Arrives size known first moments (.ok value middle))
    (further : ∀ bound, size ≤ bound → known bound value → bound ≤ middle.store.scopes.size →
      middle.store.Closed → Arrives bound knownNext middle.store more outcome) :
    Arrives size knownNext first (moments ++ more) outcome := by
  obtain ⟨route, bound, grown, present, holds⟩ := arrives
  have next := further bound grown holds present route.leads.closed
  cases outcome with
  | ok result last =>
    obtain ⟨routeNext, higher, grownMore, presentLast, holdsNext⟩ := next
    exact ⟨route.append routeNext, higher, Nat.le_trans grown grownMore, presentLast, holdsNext⟩
  | error interrupt last => exact route.append next

end Arrives

namespace Eval

variable {α β : Type} {size : Nat}

/-- From every closed store with so many scopes the step leads to another one, whether it yields a
value or is interrupted. -/
def Safe (size : Nat) (known : Nat → α → Prop) (step : Eval α) : Prop :=
  ∀ machine, machine.store.Closed → size ≤ machine.store.scopes.size →
    Arrives size known machine.store [] (step machine)

namespace Safe

variable {known : Nat → α → Prop}

theorem pure {value : α} (holds : known size value) : (pure value : Eval α).Safe size known :=
  fun _ closed enough => .of_leads (.refl closed) enough holds

theorem bind {knownNext : Nat → β → Prop} {step : Eval α} {next : α → Eval β}
    (first : step.Safe size known)
    (rest : ∀ later value, size ≤ later → known later value → (next value).Safe later knownNext) :
    (step >>= next).Safe size knownNext := by
  intro machine closed enough
  have arrives := first machine closed enough
  cases came : step machine with
  | ok value middle =>
    rw [came] at arrives
    rw [EStateM.bind_of_ok came]
    exact arrives.andThen fun bound grown holds present closedMiddle =>
      rest bound value grown holds middle closedMiddle present
  | error interrupt middle =>
    rw [came] at arrives
    rw [EStateM.bind_of_error came]
    exact arrives

theorem fail (fault : RuntimeFault) (position : Position) :
    (fail fault position : Eval α).Safe size known :=
  fun _ closed _ => .refl closed

theorem resultAt (position : Position) {result : Except RuntimeFault α}
    (holds : ∀ value, result = .ok value → known size value) :
    (resultAt position result).Safe size known := by
  cases result with
  | ok value => exact pure (holds value rfl)
  | error fault => exact fail fault position

theorem callResult {signal : Signal} (within : signal.Within size) :
    (callResult signal).Safe size Value.Within := by
  cases signal with
  | normal => exact pure (.of_closureless rfl)
  | returning value => exact pure within
  | breaking position => exact fail _ position
  | continuing position => exact fail _ position

theorem allowCall (context : Context) : (allowCall context).Safe size fun _ _ => True := by
  intro machine closed enough
  rw [allowCall_apply]
  split
  · exact .refl closed
  · exact .of_leads (.refl closed) enough trivial

/-- A name stands for a value of a binding or for a procedure, which sees the first scope. -/
theorem lookup? {context : Context} (table : context.procedures.Rooted) {scope : ScopeId}
    (present : scope < size) (name : String) :
    (lookup? context scope name).Safe size fun size found =>
      ∀ value, found = some value → value.Within size := by
  intro machine closed enough
  rw [Eval.lookup?, EStateM.bind_of_ok (EStateM.get_apply machine)]
  cases found : machine.store.get? scope name with
  | some value =>
    refine ⟨.refl closed, _, enough, Nat.le_refl _, fun other same => ?_⟩
    cases same
    exact closed.values.get? found
  | none =>
    refine ⟨.refl closed, _, enough, Nat.le_refl _, fun other same => ?_⟩
    obtain ⟨closure, known, rfl⟩ := Option.map_eq_some_iff.mp same
    have filled : 0 < machine.store.scopes.size :=
      Nat.zero_lt_of_lt (Nat.lt_of_lt_of_le present enough)
    exact .function (table.scope_lt_of_find? filled known)

theorem readName {context : Context} (table : context.procedures.Rooted) {scope : ScopeId}
    (present : scope < size) (name : String) (position : Position) :
    (readName context scope name position).Safe size Value.Within := by
  refine bind (lookup? table present name) fun later found _ within => ?_
  cases found with
  | some value => exact pure (within value rfl)
  | none => exact fail _ position

theorem newChild {parent : ScopeId} (present : parent < size) :
    (newChild parent).Safe size fun size scope => scope < size := by
  intro machine closed enough
  refine ⟨Store.Leads.newChild closed (Nat.lt_of_lt_of_le present enough),
    machine.store.scopes.size + 1, Nat.le_succ_of_le enough, ?_, Nat.lt_succ_self _⟩
  exact Nat.le_of_eq (Store.size_newChild machine.store parent).symm

theorem define (scope : ScopeId) {binding : Binding} (within : binding.value.Within size) :
    (define scope binding).Safe size fun _ _ => True :=
  fun _ closed enough => .of_leads (.define closed scope (within.mono enough)) enough trivial

theorem defineAll (scope : ScopeId) {pairs : List (String × Value)}
    (within : ∀ pair ∈ pairs, pair.2.Within size) :
    (defineAll scope pairs).Safe size fun _ _ => True := by
  induction pairs generalizing size with
  | nil => exact pure trivial
  | cons pair rest inductionHypothesis =>
    obtain ⟨here, there⟩ := List.forall_mem_cons.mp within
    have now : (Eval.define scope ⟨pair.1, pair.2, .constant⟩).Safe size fun _ _ => True :=
      define scope here
    exact bind now fun later _ grown _ =>
      inductionHypothesis fun other member => (there other member).mono grown

theorem scopeFor (statement : Statement) {scope : ScopeId} (present : scope < size) :
    (scopeFor statement scope).Safe size fun size scope => scope < size := by
  intro machine closed enough
  rcases scopeFor_cases statement scope machine with ⟨same, -⟩ | opened
  · rw [same]
    exact .of_leads (.refl closed) enough present
  · rw [opened]
    exact newChild present machine closed enough

theorem assign (context : Context) (scope : ScopeId) (name : String) {value : Value}
    (position : Position) (within : value.Within size) :
    (assign context scope name value position).Safe size fun _ _ => True := by
  intro machine closed enough
  rw [assign_apply]
  cases machine.store.target scope name with
  | ok found =>
    exact .of_leads (.write closed found name (within.mono enough)) enough trivial
  | error fault => exact fail _ position machine closed enough

theorem newClosure (procedure : Procedure) {scope : ScopeId} (present : scope < size) :
    (newClosure procedure scope).Safe size Value.Within :=
  fun _ closed enough => .of_leads (.refl closed) enough (.function present)

theorem callBuiltin (builtin : Builtin) {arguments : List Value} (position : Position)
    (within : ∀ value ∈ arguments, value.Within size) :
    (callBuiltin builtin arguments position).Safe size Value.Within := by
  intro machine closed enough
  rw [callBuiltin_apply]
  cases ran : builtin.run arguments machine.sink with
  | ok value sink =>
    exact .of_leads (.refl closed) enough (.builtin within ran)
  | error fault sink => exact .refl closed

end Safe

end Eval

end Scriptlet
