/-
This file shows that a run keeps to the scopes and places it is given. A realm is a set
of scopes and a set of places. It contains a store if what can be got to from its scopes
stays among them, and if the scopes outside are as they were at the start; scopes that
were not there at the start belong to it. A task inside a realm, which names only scopes,
places and function values of the realm, leaves a store that the realm contains, yields a
value of the realm, and reports its faults at places of the realm.

What a realm contains is an invariant of every primitive step, so it is one of every plan
whose tasks have it, and by induction on the budget of every task.
-/

import Scriptlet.Proofs.Contents
import Scriptlet.Proofs.Course
import Scriptlet.Proofs.Effect
import Scriptlet.Proofs.Kept

namespace Scriptlet

/-- Scopes and places that a run keeps to. -/
structure Realm where
  scopes : ScopeId → Prop
  places : Position → Prop

namespace Realm

variable (realm : Realm)

/-! ### What belongs to a realm -/

/-- The scope of a function value and the places of its procedure belong to the realm. -/
structure Admits (closure : Closure) : Prop where
  scope : realm.scopes closure.scope
  places : AllOf realm.places closure.procedure.places

/-- The function values that a value holds belong to the realm. -/
def AdmitsValue (value : Value) : Prop :=
  ∀ closure ∈ value.closures, realm.Admits closure

/-- What a signal carries belongs to the realm. -/
def AdmitsSignal : Signal → Prop
  | .normal => True
  | .returning value => realm.AdmitsValue value
  | .breaking position => realm.places position
  | .continuing position => realm.places position

/-- An error is reported at a place of the realm; only too many nested calls have none. -/
def AdmitsError (error : RuntimeError) : Prop :=
  (∃ place, error.position = some place ∧ realm.places place) ∨
    (error.position = none ∧ ∃ limit, error.fault = .stackOverflow limit)

/-- The error of an interrupt, if it has one, belongs to the realm. -/
def AdmitsInterrupt : Interrupt → Prop
  | .fault error => realm.AdmitsError error
  | .exhausted => True

/-- The procedures of a run belong to the realm. -/
def AdmitsTable (table : ProcedureTable) : Prop :=
  ∀ closure ∈ table.entries, realm.Admits closure

variable {realm}

/-- A value that holds no function values belongs to every realm. -/
theorem AdmitsValue.of_closureless {value : Value} (empty : value.closures = []) :
    realm.AdmitsValue value := by
  intro closure held
  rw [empty] at held
  cases held

/-- A value belongs to the realm if its function values are among those of values that do. -/
theorem AdmitsValue.of_subset {value : Value} {values : List Value}
    (subset : value.closures ⊆ values.flatMap Value.closures)
    (admitted : ∀ other ∈ values, realm.AdmitsValue other) : realm.AdmitsValue value := by
  intro closure held
  obtain ⟨other, member, heldThere⟩ := List.mem_flatMap.mp (subset held)
  exact admitted other member closure heldThere

theorem AdmitsValue.function {closure : Closure} (admitted : realm.Admits closure) :
    realm.AdmitsValue (.function closure) := by
  intro other held
  rw [List.mem_singleton.mp held]
  exact admitted

/-- What a name finds among the procedures belongs to the realm. -/
theorem AdmitsTable.find? {table : ProcedureTable} {name : String} {closure : Closure}
    (admitted : realm.AdmitsTable table) (found : table.find? name = some closure) :
    realm.Admits closure :=
  admitted closure (List.mem_of_find?_eq_some found)

/-! ### Stores that a realm contains -/

variable (realm) in
/-- The scopes of the realm lead to scopes and values of the realm only, and the other scopes are
as they were at the start. -/
structure Contains (start store : Store) : Prop where
  fresh : ∀ {scope}, start.scopes.size ≤ scope → realm.scopes scope
  grown : start.scopes.size ≤ store.scopes.size
  parent : ∀ {scope found parent}, realm.scopes scope → store.scopes[scope]? = some found →
    found.parent = some parent → realm.scopes parent
  value : ∀ {scope found binding}, realm.scopes scope → store.scopes[scope]? = some found →
    binding ∈ found.bindings → realm.AdmitsValue binding.value
  outside : ∀ {scope}, ¬ realm.scopes scope → store.scopes[scope]? = start.scopes[scope]?

namespace Contains

variable {start store : Store}

/-- From a scope of the realm, a name leads to a scope and to a value of the realm. -/
theorem locateWithin (contains : realm.Contains start store) {name : String} {located : Located} :
    ∀ {steps : Nat} {scope : ScopeId}, realm.scopes scope →
      store.locateWithin name steps scope = some located →
      realm.scopes located.scope ∧ realm.AdmitsValue located.binding.value := by
  intro steps
  induction steps with
  | zero =>
    intro scope _ reached
    cases reached
  | succ steps inductionHypothesis =>
    intro scope inside reached
    rw [Store.locateWithin] at reached
    split at reached
    · cases reached
    · rename_i found present
      split at reached
      · rename_i binding bound
        injection reached with same
        rw [← same]
        exact ⟨inside, contains.value inside present (List.mem_of_find?_eq_some bound)⟩
      · split at reached
        · rename_i parent around
          exact inductionHypothesis (contains.parent inside present around) reached
        · cases reached

/-- A name seen from a scope of the realm has a value of the realm. -/
theorem get? (contains : realm.Contains start store) {scope : ScopeId} {name : String}
    {value : Value} (inside : realm.scopes scope) (found : store.get? scope name = some value) :
    realm.AdmitsValue value := by
  obtain ⟨located, reached, same⟩ := Option.map_eq_some_iff.mp found
  rw [← same]
  exact (contains.locateWithin inside reached).2

/-- The binding that an assignment in a scope of the realm changes is in the realm. -/
theorem target (contains : realm.Contains start store) {scope found : ScopeId} {name : String}
    (inside : realm.scopes scope) (reached : store.target scope name = .ok found) :
    realm.scopes found := by
  unfold Store.target at reached
  split at reached
  · cases reached
  · rename_i located seen
    split at reached
    · cases reached
    · injection reached with same
      rw [← same]
      exact (contains.locateWithin inside seen).1

/-- The next scope that is made belongs to the realm. -/
theorem next (contains : realm.Contains start store) : realm.scopes store.scopes.size :=
  contains.fresh contains.grown

theorem newChild (contains : realm.Contains start store) {parent : ScopeId}
    (inside : realm.scopes parent) : realm.Contains start (store.newChild parent).2 := by
  have made : ∀ {scope : ScopeId} {found : Scope},
      (store.newChild parent).2.scopes[scope]? = some found →
      store.scopes[scope]? = some found ∨ found = ⟨some parent, []⟩ := by
    intro scope found present
    simp only [Store.newChild, Array.getElem?_push] at present
    split at present
    · injection present with same
      exact Or.inr same.symm
    · exact Or.inl present
  refine ⟨contains.fresh, ?_, ?_, ?_, ?_⟩
  · rw [Store.size_newChild]
    exact Nat.le_succ_of_le contains.grown
  · intro scope found around known present holds
    rcases made present with before | new
    · exact contains.parent known before holds
    · subst new
      cases holds
      exact inside
  · intro scope found binding known present member
    rcases made present with before | new
    · exact contains.value known before member
    · subst new
      cases member
  · intro scope unknown
    have other : scope ≠ store.scopes.size := by
      intro same
      rw [same] at unknown
      exact unknown contains.next
    rw [← contains.outside unknown]
    simp [Store.newChild, Array.getElem?_push, other]

/-- A change of one scope of the realm that leaves its parent and adds values of the realm only. -/
theorem modify (contains : realm.Contains start store) {target : ScopeId} {value : Value}
    (inside : realm.scopes target) (admitted : realm.AdmitsValue value) {after : Store}
    (change : Scope → Scope) (size : after.scopes.size = store.scopes.size)
    (changed : ∀ scope, after.scopes[scope]? =
      if target = scope then store.scopes[scope]?.map change else store.scopes[scope]?)
    (parent : ∀ found, (change found).parent = found.parent)
    (values : ∀ found, ∀ binding ∈ (change found).bindings,
      binding ∈ found.bindings ∨ binding.value = value) :
    realm.Contains start after := by
  have came : ∀ {scope : ScopeId} {found : Scope}, after.scopes[scope]? = some found →
      ∃ before, store.scopes[scope]? = some before ∧ (found = before ∨ found = change before) := by
    intro scope found present
    rw [changed] at present
    split at present
    · obtain ⟨before, presentBefore, same⟩ := Option.map_eq_some_iff.mp present
      exact ⟨before, presentBefore, Or.inr same.symm⟩
    · exact ⟨found, present, Or.inl rfl⟩
  refine ⟨contains.fresh, ?_, ?_, ?_, ?_⟩
  · rw [size]
    exact contains.grown
  · intro scope found around known present holds
    obtain ⟨before, presentBefore, rfl | rfl⟩ := came present
    · exact contains.parent known presentBefore holds
    · rw [parent] at holds
      exact contains.parent known presentBefore holds
  · intro scope found binding known present member
    obtain ⟨before, presentBefore, rfl | rfl⟩ := came present
    · exact contains.value known presentBefore member
    · rcases values before binding member with old | new
      · exact contains.value known presentBefore old
      · rw [new]
        exact admitted
  · intro scope unknown
    have other : target ≠ scope := by
      intro same
      rw [same] at inside
      exact unknown inside
    rw [changed, if_neg other]
    exact contains.outside unknown

theorem define (contains : realm.Contains start store) {scope : ScopeId} {binding : Binding}
    (inside : realm.scopes scope) (admitted : realm.AdmitsValue binding.value) :
    realm.Contains start (store.define scope binding) := by
  refine contains.modify inside admitted (fun found => found.define binding)
    (Store.size_define store scope binding)
    (fun other => Store.scope_define store scope other binding)
    (fun found => Scope.parent_define found binding) fun found other member => ?_
  rcases List.mem_cons.mp member with same | old
  · exact Or.inr (congrArg Binding.value same)
  · exact Or.inl (List.mem_filter.mp old).1

theorem write (contains : realm.Contains start store) {scope : ScopeId} {name : String}
    {value : Value} (inside : realm.scopes scope) (admitted : realm.AdmitsValue value) :
    realm.Contains start (store.write scope name value) := by
  refine contains.modify inside admitted (fun found => found.write name value)
    (Store.size_write store scope name value)
    (fun other => Store.scope_write store scope other name value)
    (fun found => Scope.parent_write found name value) fun found other member => ?_
  obtain ⟨old, memberOld, same⟩ := List.mem_map.mp member
  by_cases named : old.name == name
  · rw [if_pos named] at same
    exact Or.inr (congrArg Binding.value same.symm)
  · rw [if_neg named] at same
    rw [← same]
    exact Or.inl memberOld

end Contains

/-- What a step may come to that keeps to the realm, given what may be said of its value. -/
def Allows {α : Type} (realm : Realm) (start : Store) (good : α → Prop) : Outcome α → Prop
  | .ok value machine => good value ∧ realm.Contains start machine.store
  | .error interrupt machine =>
    realm.AdmitsInterrupt interrupt ∧ realm.Contains start machine.store

end Realm

/-! ### Steps -/

namespace Eval

variable {α β : Type} {realm : Realm} {start : Store}

/-- Wherever the realm contains the store, the step comes to what the realm allows. -/
def Keeps (realm : Realm) (start : Store) (good : α → Prop) (step : Eval α) : Prop :=
  ∀ machine, realm.Contains start machine.store → realm.Allows start good (step machine)

namespace Keeps

theorem pure {good : α → Prop} {value : α} (holds : good value) :
    (pure value : Eval α).Keeps realm start good :=
  fun _ contains => ⟨holds, contains⟩

theorem bind {good : α → Prop} {better : β → Prop} {step : Eval α} {next : α → Eval β}
    (first : step.Keeps realm start good)
    (second : ∀ value, good value → (next value).Keeps realm start better) :
    (step >>= next).Keeps realm start better := by
  intro machine contains
  have allowed := first machine contains
  cases result : step machine with
  | ok value middle =>
    rw [result] at allowed
    rw [EStateM.bind_of_ok result]
    exact second value allowed.1 middle allowed.2
  | error interrupt middle =>
    rw [result] at allowed
    rw [EStateM.bind_of_error result]
    exact allowed

theorem get : (get : Eval Machine).Keeps realm start
    fun machine => realm.Contains start machine.store :=
  fun _ contains => ⟨contains, contains⟩

theorem fail {good : α → Prop} (fault : RuntimeFault) {position : Position}
    (inside : realm.places position) : (fail fault position : Eval α).Keeps realm start good :=
  fun _ contains => ⟨Or.inl ⟨position, rfl, inside⟩, contains⟩

theorem stackOverflow {good : α → Prop} (limit : Nat) :
    (failNowhere (.stackOverflow limit) : Eval α).Keeps realm start good :=
  fun _ contains => ⟨Or.inr ⟨rfl, limit, rfl⟩, contains⟩

theorem resultAt {good : α → Prop} {position : Position} {result : Except RuntimeFault α}
    (inside : realm.places position) (holds : ∀ value, result = .ok value → good value) :
    (resultAt position result).Keeps realm start good := by
  cases result with
  | ok value => exact pure (holds value rfl)
  | error fault => exact fail fault inside

theorem callResult {signal : Signal} (admitted : realm.AdmitsSignal signal) :
    (callResult signal).Keeps realm start realm.AdmitsValue := by
  cases signal with
  | normal => exact pure (.of_closureless rfl)
  | returning value => exact pure admitted
  | breaking position => exact fail _ admitted
  | continuing position => exact fail _ admitted

/-- A name stands for a value of the realm, be it a variable or a procedure. -/
theorem lookup? {context : Context} {scope : ScopeId} (name : String)
    (table : realm.AdmitsTable context.procedures) (inside : realm.scopes scope) :
    (lookup? context scope name).Keeps realm start fun found =>
      ∀ value, found = some value → realm.AdmitsValue value := by
  refine bind get fun machine contains => ?_
  cases found : machine.store.get? scope name with
  | some value =>
    refine pure fun other same => ?_
    injection same with same
    rw [← same]
    exact contains.get? inside found
  | none =>
    refine pure fun other same => ?_
    obtain ⟨closure, present, same⟩ := Option.map_eq_some_iff.mp same
    rw [← same]
    exact .function (table.find? present)

theorem readName {context : Context} {scope : ScopeId} (name : String) {position : Position}
    (table : realm.AdmitsTable context.procedures) (inside : realm.scopes scope)
    (place : realm.places position) :
    (readName context scope name position).Keeps realm start realm.AdmitsValue := by
  refine bind (lookup? name table inside) fun found admitted => ?_
  cases found with
  | some value => exact pure (admitted value rfl)
  | none => exact fail _ place

theorem newChild {parent : ScopeId} (inside : realm.scopes parent) :
    (newChild parent).Keeps realm start realm.scopes :=
  fun _ contains => ⟨contains.next, contains.newChild inside⟩

theorem define {scope : ScopeId} {binding : Binding} (inside : realm.scopes scope)
    (admitted : realm.AdmitsValue binding.value) :
    (define scope binding).Keeps realm start fun _ => True :=
  fun _ contains => ⟨trivial, contains.define inside admitted⟩

theorem defineAll {scope : ScopeId} {pairs : List (String × Value)} (inside : realm.scopes scope)
    (admitted : ∀ pair ∈ pairs, realm.AdmitsValue pair.2) :
    (defineAll scope pairs).Keeps realm start fun _ => True := by
  induction pairs with
  | nil => exact pure trivial
  | cons pair rest inductionHypothesis =>
    have now : (Eval.define scope ⟨pair.1, pair.2, .constant⟩).Keeps realm start fun _ => True :=
      define inside (admitted pair List.mem_cons_self)
    exact bind now fun _ _ =>
      inductionHypothesis fun other member => admitted other (List.mem_cons_of_mem pair member)

theorem scopeFor {scope : ScopeId} (statement : Statement) (inside : realm.scopes scope) :
    (scopeFor statement scope).Keeps realm start realm.scopes := by
  unfold Eval.scopeFor
  split
  · refine bind get fun machine _ => ?_
    split
    · exact newChild inside
    · exact pure inside
  · exact pure inside

theorem assign {context : Context} {scope : ScopeId} (name : String) {value : Value}
    {position : Position} (inside : realm.scopes scope) (admitted : realm.AdmitsValue value)
    (place : realm.places position) :
    (assign context scope name value position).Keeps realm start fun _ => True := by
  intro machine contains
  rw [assign_apply]
  cases found : machine.store.target scope name with
  | ok target => exact ⟨trivial, contains.write (contains.target inside found) admitted⟩
  | error fault => exact fail _ place machine contains

theorem newClosure {procedure : Procedure} {scope : ScopeId} (inside : realm.scopes scope)
    (spans : AllOf realm.places procedure.places) :
    (newClosure procedure scope).Keeps realm start realm.AdmitsValue :=
  fun _ contains => ⟨.function ⟨inside, spans⟩, contains⟩

theorem callBuiltin (builtin : Builtin) {arguments : List Value} {position : Position}
    (admitted : ∀ value ∈ arguments, realm.AdmitsValue value) (place : realm.places position) :
    (callBuiltin builtin arguments position).Keeps realm start realm.AdmitsValue := by
  intro machine contains
  rw [callBuiltin_apply]
  cases ran : builtin.run arguments machine.sink with
  | ok value sink => exact ⟨.of_subset (closures_builtin ran) admitted, contains⟩
  | error fault sink => exact ⟨Or.inl ⟨position, rfl, place⟩, contains⟩

theorem deeper {good : α → Prop} {step : Eval α} (keeps : step.Keeps realm start good) :
    step.deeper.Keeps realm start good := by
  intro machine contains
  have allowed := keeps { machine with depth := machine.depth + 1 } contains
  unfold Eval.deeper
  cases came : step { machine with depth := machine.depth + 1 } with
  | ok value middle =>
    rw [came] at allowed
    exact allowed
  | error interrupt middle =>
    rw [came] at allowed
    exact allowed

end Keeps

end Eval

/-! ### Tasks -/

namespace Realm

variable (realm : Realm)

/-- What a task is given belongs to the realm. -/
def Inside : Task → Prop
  | .eval expression scope => realm.scopes scope ∧ AllOf realm.places expression.places
  | .evalCondition condition scope => realm.scopes scope ∧ AllOf realm.places condition.places
  | .evalAll expressions scope => realm.scopes scope ∧ AllOf realm.places (exprPlaces expressions)
  | .evalCall callee arguments position scope =>
    realm.scopes scope ∧ AllOf realm.places callee.places ∧
      AllOf realm.places (exprPlaces arguments) ∧ realm.places position
  | .callValue function arguments position =>
    realm.AdmitsValue function ∧ (∀ value ∈ arguments, realm.AdmitsValue value) ∧
      realm.places position
  | .callClosure closure arguments position =>
    realm.Admits closure ∧ (∀ value ∈ arguments, realm.AdmitsValue value) ∧ realm.places position
  | .execBlock statements scope =>
    realm.scopes scope ∧ AllOf realm.places (statementPlaces statements)
  | .execStatement statement scope => realm.scopes scope ∧ AllOf realm.places statement.places
  | .execLoop condition body scope =>
    realm.scopes scope ∧ AllOf realm.places condition.places ∧
      AllOf realm.places (statementPlaces body)

/-- What a task yields belongs to the realm. -/
def Good : (task : Task) → task.Answer → Prop
  | .eval _ _, value => realm.AdmitsValue value
  | .evalCondition _ _, _ => True
  | .evalAll _ _, values => ∀ value ∈ values, realm.AdmitsValue value
  | .evalCall _ _ _ _, value => realm.AdmitsValue value
  | .callValue _ _ _, value => realm.AdmitsValue value
  | .callClosure _ _ _, value => realm.AdmitsValue value
  | .execBlock _ _, signal => realm.AdmitsSignal signal
  | .execStatement _ _, signal => realm.AdmitsSignal signal
  | .execLoop _ _ _, signal => realm.AdmitsSignal signal

end Realm

namespace Plan

variable {α β : Type}

/-- The plan keeps to the realm if the tasks it starts do, and it starts tasks inside the realm
only. -/
def Keeps (realm : Realm) (start : Store) (good : α → Prop) (plan : Plan α) : Prop :=
  ∀ perform : (task : Task) → Eval task.Answer,
    (∀ task, realm.Inside task → (perform task).Keeps realm start (realm.Good task)) →
    (plan.run perform).Keeps realm start good

namespace Keeps

variable {realm : Realm} {first : Store}

theorem step {good : α → Prop} {taken : Eval α} (keeps : taken.Keeps realm first good) :
    (Plan.step taken).Keeps realm first good :=
  fun _ _ => keeps

theorem pure {good : α → Prop} {value : α} (holds : good value) :
    (pure value : Plan α).Keeps realm first good :=
  step (.pure holds)

theorem start (task : Task) (inside : realm.Inside task) :
    (Plan.start task).Keeps realm first (realm.Good task) :=
  fun _ each => each task inside

theorem startDeeper (task : Task) (inside : realm.Inside task) :
    (Plan.startDeeper task).Keeps realm first (realm.Good task) :=
  fun _ each => (each task inside).deeper

theorem bind {good : α → Prop} {better : β → Prop} {plan : Plan α} {following : α → Plan β}
    (before : plan.Keeps realm first good)
    (behind : ∀ value, good value → (following value).Keeps realm first better) :
    (plan >>= following).Keeps realm first better := by
  intro perform each
  rw [run_bind]
  exact (before perform each).bind fun value holds => behind value holds perform each

theorem ite {condition : Prop} [Decidable condition] {good : α → Prop} {plan other : Plan α}
    (whenTrue : plan.Keeps realm first good) (whenFalse : other.Keeps realm first good) :
    (if condition then plan else other).Keeps realm first good := by
  split
  · exact whenTrue
  · exact whenFalse

end Keeps

end Plan

namespace Task

open Plan Realm

variable {realm : Realm} {first : Store} {context : Context}

/-- An expression at places of the realm comes to a value of the realm. -/
theorem evalPlan_keeps (table : realm.AdmitsTable context.procedures) (expression : Expr)
    {scope : ScopeId} (inside : realm.scopes scope) (spans : AllOf realm.places expression.places) :
    (evalPlan context scope expression).Keeps realm first realm.AdmitsValue := by
  cases expression with
  | literal value position => exact .pure (.of_closureless (closures_ofLiteral value))
  | identifier name position => exact .step (.readName name table inside spans.position)
  | unary op operand position =>
    obtain ⟨place, operandSpans⟩ := allOf_cons.mp spans
    have plain : (do
        let value ← start (.eval operand scope)
        Plan.step (Eval.resultAt position (op.apply value))).Keeps realm first
          realm.AdmitsValue := by
      refine .bind (.start _ ⟨inside, operandSpans⟩) fun value _ => .step (.resultAt place ?_)
      exact fun result applied => .of_closureless (closureless_unary op value result applied)
    cases op with
    | update kind yield =>
      cases operand with
      | identifier name namePosition =>
        refine .step (.bind (.readName name table inside operandSpans.position) ?_)
        intro previous admitted
        have updated : ∀ value, (UnaryOp.update kind yield).apply previous = .ok value →
            realm.AdmitsValue value := fun value applied =>
          .of_closureless (closureless_unary (.update kind yield) previous value applied)
        refine .bind (.resultAt place updated) fun value admittedUpdated => ?_
        refine .bind (.assign name inside admittedUpdated place) fun _ _ => ?_
        cases yield with
        | updated => exact .pure admittedUpdated
        | previous => exact .pure admitted
      | _ => exact .step (.fail _ place)
    | _ => exact plain
  | binary op left right position =>
    obtain ⟨place, both⟩ := allOf_cons.mp spans
    obtain ⟨leftSpans, rightSpans⟩ := allOf_append.mp both
    refine .bind (.start _ ⟨inside, leftSpans⟩) fun one admittedOne => ?_
    refine .bind (.start _ ⟨inside, rightSpans⟩) fun two admittedTwo => ?_
    refine .step (.resultAt place fun result applied => ?_)
    intro closure held
    rcases List.mem_append.mp (closures_binary applied held) with heldOne | heldTwo
    · exact admittedOne closure heldOne
    · exact admittedTwo closure heldTwo
  | logical op left right position =>
    obtain ⟨-, both⟩ := allOf_cons.mp spans
    obtain ⟨leftSpans, rightSpans⟩ := allOf_append.mp both
    refine .bind (.start _ ⟨inside, leftSpans⟩) fun one _ => .ite (.pure (.of_closureless rfl)) ?_
    exact .bind (.start _ ⟨inside, rightSpans⟩) fun two _ => .pure (.of_closureless rfl)
  | call callee arguments position =>
    obtain ⟨place, both⟩ := allOf_cons.mp spans
    obtain ⟨calleeSpans, argumentSpans⟩ := allOf_append.mp both
    exact .start (.evalCall callee arguments position scope)
      ⟨inside, calleeSpans, argumentSpans, place⟩
  | lambda procedure position =>
    exact .step (.newClosure inside (allOf_cons.mp spans).2)
  | index target index position =>
    obtain ⟨place, both⟩ := allOf_cons.mp spans
    obtain ⟨targetSpans, indexSpans⟩ := allOf_append.mp both
    refine .bind (.start _ ⟨inside, targetSpans⟩) fun container admitted => ?_
    refine .bind (.start _ ⟨inside, indexSpans⟩) fun key _ => .ite ?_ (.step (.fail _ place))
    cases key with
    | int number =>
      refine .step (.resultAt place fun result found closure held => ?_)
      exact admitted closure (closures_element found held)
    | _ => exact .step (.fail _ indexSpans.position)

theorem applyPlan_keeps {arguments : List Expr} {position : Position} {scope : ScopeId}
    {function : Value} (inside : realm.scopes scope)
    (spans : AllOf realm.places (exprPlaces arguments))
    (place : realm.places position) (admitted : realm.AdmitsValue function) :
    (applyPlan arguments position scope function).Keeps realm first realm.AdmitsValue := by
  refine .bind (.start _ ⟨inside, spans⟩) fun values admittedValues => ?_
  exact .start (.callValue function values position) ⟨admitted, admittedValues, place⟩

/-- A builtin is only run on values of the realm, and other calls start from them. -/
theorem callPlan_keeps (table : realm.AdmitsTable context.procedures) {callee : Expr}
    {arguments : List Expr} {position : Position} {scope : ScopeId} (inside : realm.scopes scope)
    (calleeSpans : AllOf realm.places callee.places)
    (spans : AllOf realm.places (exprPlaces arguments))
    (place : realm.places position) :
    (callPlan context arguments position scope callee).Keeps realm first realm.AdmitsValue := by
  cases callee with
  | identifier name namePosition =>
    refine .bind (.step (.lookup? name table inside)) fun found admitted => ?_
    cases found with
    | some function => exact applyPlan_keeps inside spans place (admitted function rfl)
    | none =>
      dsimp only
      cases Builtin.ofName? name with
      | none => exact .step (.fail _ calleeSpans.position)
      | some builtin =>
        refine .bind (.start _ ⟨inside, spans⟩) fun values admittedValues => ?_
        exact .step (.callBuiltin builtin admittedValues place)
  | _ =>
    refine .bind (.start _ ⟨inside, calleeSpans⟩) fun function admitted => ?_
    exact applyPlan_keeps inside spans place admitted

/-- The body of a function of the realm is run in a new scope, which belongs to the realm. -/
theorem closurePlan_keeps {closure : Closure} {arguments : List Value} {position : Position}
    (admitted : realm.Admits closure) (admittedArguments : ∀ value ∈ arguments,
      realm.AdmitsValue value) (place : realm.places position) :
    (closurePlan context closure arguments position).Keeps realm first realm.AdmitsValue := by
  refine .ite (.step (.fail _ place)) (.bind (.step .get) fun machine _ => ?_)
  refine .ite (.step (.stackOverflow _)) ?_
  refine .bind (.step (.newChild admitted.scope)) fun scope inside => ?_
  have pairs : ∀ pair ∈ closure.procedure.parameters.zip arguments, realm.AdmitsValue pair.2 :=
    fun pair member => admittedArguments pair.2 (List.of_mem_zip member).2
  refine .bind (.step (.defineAll inside pairs)) fun _ _ => ?_
  have body : AllOf realm.places (statementPlaces closure.procedure.body) := by
    have whole := admitted.places
    rw [Procedure.places_eq] at whole
    exact (allOf_cons.mp whole).2
  exact .bind (.startDeeper _ ⟨inside, body⟩) fun signal good => .step (.callResult good)

theorem innerPlan_keeps {statements : List Statement} {scope : ScopeId}
    (inside : realm.scopes scope) (spans : AllOf realm.places (statementPlaces statements)) :
    (innerPlan statements scope).Keeps realm first realm.AdmitsSignal := by
  refine .bind (.step (.newChild inside)) fun inner insideInner => ?_
  exact .start (.execBlock statements inner) ⟨insideInner, spans⟩

/-- A statement at places of the realm writes values of the realm only. -/
theorem statementPlan_keeps (statement : Statement) {scope : ScopeId}
    (inside : realm.scopes scope) (spans : AllOf realm.places statement.places) :
    (statementPlan context scope statement).Keeps realm first realm.AdmitsSignal := by
  cases statement with
  | declare name value mutability position =>
    obtain ⟨-, valueSpans⟩ := allOf_cons.mp spans
    refine .bind (.start _ ⟨inside, valueSpans⟩) fun result admitted => ?_
    exact .bind (.step (.define inside admitted)) fun _ _ => .pure trivial
  | assign name value position =>
    obtain ⟨place, valueSpans⟩ := allOf_cons.mp spans
    refine .bind (.start _ ⟨inside, valueSpans⟩) fun result admitted => ?_
    exact .bind (.step (.assign name inside admitted place)) fun _ _ => .pure trivial
  | leave value position =>
    cases value with
    | none => exact .pure (AdmitsValue.of_closureless rfl)
    | some value =>
      obtain ⟨-, valueSpans⟩ := allOf_cons.mp spans
      exact .bind (.start _ ⟨inside, valueSpans⟩) fun result admitted => .pure admitted
  | branch condition thenBranch elseBranch position =>
    cases elseBranch with
    | none =>
      obtain ⟨-, both⟩ := allOf_cons.mp spans
      obtain ⟨conditionSpans, thenSpans⟩ := allOf_append.mp both
      refine .bind (.start _ ⟨inside, conditionSpans⟩) fun holds _ => ?_
      exact .ite (innerPlan_keeps inside thenSpans) (.pure trivial)
    | some statements =>
      obtain ⟨-, all⟩ := allOf_cons.mp spans
      obtain ⟨conditionSpans, both⟩ := allOf_append.mp all
      obtain ⟨thenSpans, elseSpans⟩ := allOf_append.mp both
      refine .bind (.start _ ⟨inside, conditionSpans⟩) fun holds _ => ?_
      exact .ite (innerPlan_keeps inside thenSpans) (innerPlan_keeps inside elseSpans)
  | loop condition body position =>
    obtain ⟨-, both⟩ := allOf_cons.mp spans
    obtain ⟨conditionSpans, bodySpans⟩ := allOf_append.mp both
    exact .start (.execLoop condition body scope) ⟨inside, conditionSpans, bodySpans⟩
  | block statements position => exact innerPlan_keeps inside (allOf_cons.mp spans).2
  | loopBody statements position =>
    refine .bind (innerPlan_keeps inside (allOf_cons.mp spans).2) fun signal good => ?_
    cases signal with
    | continuing place => exact .pure trivial
    | _ => exact .pure good
  | evaluate expression position =>
    obtain ⟨-, inner⟩ := allOf_cons.mp spans
    exact .bind (.start _ ⟨inside, inner⟩) fun result _ => .pure trivial
  | breakLoop position => exact .pure (spans position (List.mem_singleton_self position))
  | continueLoop position => exact .pure (spans position (List.mem_singleton_self position))

/-- Every task within the realm keeps to it, if the tasks it starts do. -/
theorem plan_keeps (table : realm.AdmitsTable context.procedures) (task : Task)
    (inside : realm.Inside task) : (task.plan context).Keeps realm first (realm.Good task) := by
  cases task with
  | eval expression scope => exact evalPlan_keeps table expression inside.1 inside.2
  | evalCondition condition scope =>
    refine .bind (.start _ inside) fun value _ => ?_
    exact .step (.resultAt (AllOf.position inside.2) fun _ _ => trivial)
  | evalAll expressions scope =>
    cases expressions with
    | nil => exact .pure fun value member => by cases member
    | cons expression rest =>
      obtain ⟨insideScope, spans⟩ := inside
      obtain ⟨here, there⟩ := allOf_append.mp spans
      refine .bind (.start _ ⟨insideScope, here⟩) fun value admitted => ?_
      refine .bind (.start _ ⟨insideScope, there⟩) fun values admittedRest => ?_
      exact .pure (List.forall_mem_cons.mpr ⟨admitted, admittedRest⟩)
  | evalCall callee arguments position scope =>
    obtain ⟨insideScope, calleeSpans, spans, place⟩ := inside
    exact callPlan_keeps table insideScope calleeSpans spans place
  | callValue function arguments position =>
    obtain ⟨admitted, admittedArguments, place⟩ := inside
    cases function with
    | function closure =>
      exact .start (.callClosure closure arguments position)
        ⟨admitted closure (List.mem_singleton_self closure), admittedArguments, place⟩
    | _ => exact .step (.fail _ place)
  | callClosure closure arguments position =>
    exact closurePlan_keeps inside.1 inside.2.1 inside.2.2
  | execBlock statements scope =>
    cases statements with
    | nil => exact .pure trivial
    | cons statement rest =>
      obtain ⟨insideScope, spans⟩ := inside
      obtain ⟨here, there⟩ := allOf_append.mp spans
      refine .bind (.step (.scopeFor statement insideScope)) fun inner insideInner => ?_
      refine .bind (.start _ ⟨insideInner, here⟩) fun signal good => ?_
      cases signal with
      | normal => exact .start (.execBlock rest inner) ⟨insideInner, there⟩
      | _ => exact .step (.pure good)
  | execStatement statement scope => exact statementPlan_keeps statement inside.1 inside.2
  | execLoop condition body scope =>
    obtain ⟨insideScope, conditionSpans, bodySpans⟩ := inside
    refine .bind (.start _ ⟨insideScope, conditionSpans⟩) fun holds _ => ?_
    refine .ite (.bind (innerPlan_keeps insideScope bodySpans) fun signal good => ?_)
      (.step (.pure trivial))
    cases signal with
    | normal =>
      exact .start (.execLoop condition body scope) ⟨insideScope, conditionSpans, bodySpans⟩
    | continuing position =>
      exact .start (.execLoop condition body scope) ⟨insideScope, conditionSpans, bodySpans⟩
    | breaking position => exact .step (.pure trivial)
    | returning value => exact .step (.pure good)

/-- A task inside a realm that the procedures belong to keeps to the realm, whatever the budget. -/
theorem perform_keeps (table : realm.AdmitsTable context.procedures) (budget : Nat) (task : Task)
    (inside : realm.Inside task) :
    (task.perform context budget).Keeps realm first (realm.Good task) := by
  induction budget generalizing task with
  | zero =>
    intro machine contains
    rw [perform_zero]
    exact ⟨trivial, contains⟩
  | succ budget inductionHypothesis =>
    rw [← plan_run]
    exact plan_keeps table task inside _ inductionHypothesis

end Task

end Scriptlet
