/-
This file compares a run with the same run in a store that mirrors its own. The machines
of the two runs stay paired: the second store mirrors the first, the same bytes have been
written, as many calls are under way, and the function values made so far are counted from
another number on. From paired machines a task and the relocated task come to the same,
relocated.

The first store stays closed along the way, for which values must not lead to scopes that
are not there. Scopes are only ever added, so what is known of a value is known in all
later stores: steps are compared from a number of scopes on, and what is known of the
value they yield is said with a number that may be larger.
-/

import Scriptlet.Proofs.EntryCall
import Scriptlet.Proofs.Relocation

namespace Scriptlet

/-! ### Paired machines -/

/-- Where a run is found in another one, and the sinks the two runs start with. -/
structure Pairing extends Relocation where
  sink : Sink
  mirrorSink : Sink
  unlimited : sink.limit = none
  mirrorUnlimited : mirrorSink.limit = none

/-- The machines of two runs at the same point. -/
structure Pairing.Pairs (pairing : Pairing) (machine mirror : Machine) : Prop where
  store : pairing.Mirrors machine.store mirror.store
  closed : machine.store.Closed
  output : ∃ bytes, machine.sink = pairing.sink.appending bytes ∧
    mirror.sink = pairing.mirrorSink.appending bytes
  depth : mirror.depth = machine.depth
  closures : mirror.closures = pairing.identity machine.closures

/-- The outcomes of two runs at the same point, given how the values correspond and what is known
of the first one in a store with so many scopes. -/
def Pairing.Paired {α β : Type} (pairing : Pairing) (size : Nat) (change : α → β)
    (known : Nat → α → Prop) : Outcome α → Outcome β → Prop
  | .ok value machine, outcome => ∃ mirror, outcome = .ok (change value) mirror ∧
      pairing.Pairs machine mirror ∧
      ∃ bound, size ≤ bound ∧ bound ≤ machine.store.scopes.size ∧ known bound value
  | .error interrupt machine, outcome => ∃ mirror, outcome = .error interrupt mirror ∧
      pairing.Pairs machine mirror

/-- Paired outcomes yield the same and leave paired machines. -/
theorem Pairing.Paired.machines {α β : Type} {pairing : Pairing} {size : Nat} {change : α → β}
    {known : Nat → α → Prop} {outcome : Outcome α} {mirrored : Outcome β}
    (paired : pairing.Paired size change known outcome mirrored) :
    Outcome.result mirrored = (Outcome.result outcome).map change ∧
      pairing.Pairs (Outcome.machine outcome) (Outcome.machine mirrored) := by
  cases outcome with
  | ok value machine =>
    obtain ⟨mirror, rfl, pairs, -⟩ := paired
    exact ⟨rfl, pairs⟩
  | error interrupt machine =>
    obtain ⟨mirror, rfl, pairs⟩ := paired
    exact ⟨rfl, pairs⟩

/-- The scopes that a signal leads to are among the first so many. -/
abbrev Signal.Within (size : Nat) (signal : Signal) : Prop :=
  signal.Holds fun closure => closure.scope < size

/-- All procedures see the first scope. -/
def ProcedureTable.Rooted (table : ProcedureTable) : Prop :=
  ∀ closure ∈ table.entries, closure.scope = 0

/-- The procedures of a program see the scope it is loaded in. -/
theorem ProcedureTable.rooted_build (identity : Nat) (procedures : List Procedure) :
    (ProcedureTable.build identity 0 procedures).Rooted := by
  intro closure member
  obtain ⟨place, inside, rfl⟩ := List.mem_mapIdx.mp (List.mem_reverse.mp member)
  rfl

/-- The fault of an assignment does not depend on where the procedures see. -/
theorem Eval.assignFault_context (relocation : Relocation) (context : Context) (name : String)
    (fault : AssignFault) :
    assignFault (relocation.context context) name fault = assignFault context name fault := by
  cases fault with
  | constant => rfl
  | undefined =>
    have procedures : (relocation.context context).procedures.find? name =
        (context.procedures.find? name).map relocation.closure :=
      relocation.find?_table context.procedures name
    rw [assignFault, assignFault, procedures]
    cases context.procedures.find? name with
    | none => rfl
    | some closure => rfl

/-- What the result of a builtin holds, an argument holds. -/
theorem closures_result {builtin : Builtin} {arguments : List Value} {result : Value}
    (found : builtin.result arguments = .ok result) :
    result.closures ⊆ arguments.flatMap Value.closures := by
  rcases builtin with builtin | builtin
  · cases builtin with
    | list =>
      cases found
      rw [closures_list]
      exact List.Subset.refl _
    | _ =>
      cases found
      exact List.nil_subset _
  · match arguments with
    | [] => cases found
    | [value] =>
      rw [List.flatMap_singleton]
      exact closures_single found
    | first :: second :: rest => cases found

/-! ### Steps -/

namespace Eval

variable {α β γ δ : Type} {pairing : Pairing} {size : Nat}

/-- From paired machines with enough scopes the second step comes to what the first comes to. -/
def Tracks (pairing : Pairing) (size : Nat) (change : α → β) (known : Nat → α → Prop)
    (step : Eval α) (other : Eval β) : Prop :=
  ∀ machine mirror, pairing.Pairs machine mirror → size ≤ machine.store.scopes.size →
    pairing.Paired size change known (step machine) (other mirror)

namespace Tracks

/-- A value that is known already is tracked from any number of scopes on. -/
theorem pure {change : α → β} {known : Nat → α → Prop} {value : α} {result : β}
    (same : change value = result) (holds : known size value) :
    (pure value : Eval α).Tracks pairing size change known (pure result) := by
  intro machine mirror pairs enough
  rw [← same]
  exact ⟨mirror, rfl, pairs, size, Nat.le_refl size, enough, holds⟩

/-- Sequences track each other if their parts do. The second part is asked for from that number of
scopes on from which the value of the first is known. -/
theorem bind {change : α → β} {known : Nat → α → Prop} {changeNext : γ → δ}
    {knownNext : Nat → γ → Prop} {step : Eval α} {other : Eval β} {next : α → Eval γ}
    {following : β → Eval δ} (first : step.Tracks pairing size change known other)
    (rest : ∀ later value, size ≤ later → known later value →
      (next value).Tracks pairing later changeNext knownNext (following (change value))) :
    (step >>= next).Tracks pairing size changeNext knownNext (other >>= following) := by
  intro machine mirror pairs enough
  have paired := first machine mirror pairs enough
  cases came : step machine with
  | ok value middle =>
    rw [came] at paired
    obtain ⟨middleMirror, cameMirror, pairsMiddle, bound, grown, present, holds⟩ := paired
    rw [EStateM.bind_of_ok came, EStateM.bind_of_ok cameMirror]
    -- What is known of the value holds from `bound` scopes on, so the next step is taken there.
    have pairedNext := rest bound value grown holds middle middleMirror pairsMiddle present
    cases cameNext : next value middle with
    | ok result last =>
      rw [cameNext] at pairedNext
      obtain ⟨lastMirror, cameLast, pairsLast, more, grownMore, known⟩ := pairedNext
      exact ⟨lastMirror, cameLast, pairsLast, more, Nat.le_trans grown grownMore, known⟩
    | error interrupt last =>
      rw [cameNext] at pairedNext
      exact pairedNext
  | error interrupt middle =>
    rw [came] at paired
    obtain ⟨middleMirror, cameMirror, pairsMiddle⟩ := paired
    rw [EStateM.bind_of_error came, EStateM.bind_of_error cameMirror]
    exact ⟨middleMirror, rfl, pairsMiddle⟩

/-- Faults track each other in all machines. -/
theorem fail {change : α → β} {known : Nat → α → Prop} (fault : RuntimeFault)
    (position : Position) :
    (fail fault position : Eval α).Tracks pairing size change known (fail fault position) :=
  fun _ mirror pairs _ => ⟨mirror, rfl, pairs⟩

theorem resultAt {change : α → β} {known : Nat → α → Prop} (position : Position)
    {result : Except RuntimeFault α} {other : Except RuntimeFault β}
    (same : other = result.map change) (holds : ∀ value, result = .ok value → known size value) :
    (resultAt position result).Tracks pairing size change known (resultAt position other) := by
  rw [same]
  cases result with
  | ok value => exact pure rfl (holds value rfl)
  | error fault => exact fail fault position

theorem callResult {signal : Signal} (within : signal.Within size) :
    (callResult signal).Tracks pairing size pairing.value Value.Within
      (callResult (pairing.signal signal)) := by
  cases signal with
  | normal => exact pure rfl (.of_closureless rfl)
  | returning value => exact pure rfl within
  | breaking position => exact fail _ position
  | continuing position => exact fail _ position

/-- A name stands for the relocated value. A variable leads to scopes that are there as the store is
closed, a procedure to the first scope. -/
theorem lookup? {context : Context} (table : context.procedures.Rooted) (scope : ScopeId)
    (name : String) :
    (lookup? context scope name).Tracks pairing size (Option.map pairing.value)
      (fun size found => ∀ value, found = some value → value.Within size)
      (lookup? (pairing.context context) (pairing.scope scope) name) := by
  intro machine mirror pairs enough
  have seen := pairs.store.get? pairs.closed scope name
  have procedures : (pairing.context context).procedures.find? name =
      (context.procedures.find? name).map pairing.closure :=
    pairing.find?_table context.procedures name
  rw [Eval.lookup?, Eval.lookup?, EStateM.bind_of_ok (EStateM.get_apply machine),
    EStateM.bind_of_ok (EStateM.get_apply mirror), seen, procedures]
  cases found : machine.store.get? scope name with
  | some value =>
    refine ⟨mirror, rfl, pairs, _, enough, Nat.le_refl _, fun other same => ?_⟩
    injection same with same
    rw [← same]
    exact pairs.closed.values.get? found
  | none =>
    refine ⟨mirror, ?_, pairs, _, enough, Nat.le_refl _, fun other same => ?_⟩
    · cases context.procedures.find? name with
      | none => rfl
      | some closure => rfl
    · obtain ⟨closure, present, rfl⟩ := Option.map_eq_some_iff.mp same
      refine .function ?_
      rw [table closure (List.mem_of_find?_eq_some present)]
      exact pairs.store.rooted

theorem readName {context : Context} (table : context.procedures.Rooted) (scope : ScopeId)
    (name : String) (position : Position) :
    (readName context scope name position).Tracks pairing size pairing.value Value.Within
      (readName (pairing.context context) (pairing.scope scope) name position) := by
  refine bind (lookup? table scope name) fun later found _ within => ?_
  cases found with
  | some value => exact pure rfl (within value rfl)
  | none => exact fail _ position

/-- A new scope is added behind all others in both stores, and its parent is the relocated one. -/
theorem newChild {parent : ScopeId} (present : parent < size) :
    (newChild parent).Tracks pairing size pairing.scope (fun size scope => scope < size)
      (newChild (pairing.scope parent)) := by
  intro machine mirror pairs enough
  rw [newChild_apply, newChild_apply, pairs.store.next]
  refine ⟨_, rfl, ⟨pairs.store.newChild parent, ?_, pairs.output, pairs.depth, pairs.closures⟩,
    machine.store.scopes.size + 1, Nat.le_succ_of_le enough, ?_, Nat.lt_succ_self _⟩
  · exact pairs.closed.newChild (Nat.lt_of_lt_of_le present enough)
  · exact Nat.le_of_eq (Store.size_newChild machine.store parent).symm

/-- Declaring tracks declaring in the relocated scope, as long as the value leads to scopes that are
there. -/
theorem define (scope : ScopeId) {binding : Binding} (within : binding.value.Within size) :
    (define scope binding).Tracks pairing size id (fun _ _ => True)
      (define (pairing.scope scope) (binding.onValue pairing.value)) := by
  intro machine mirror pairs enough
  refine ⟨_, rfl, ⟨pairs.store.define scope binding, ?_, pairs.output, pairs.depth,
    pairs.closures⟩, size, Nat.le_refl size, ?_, trivial⟩
  · exact pairs.closed.define scope (within.mono enough)
  · rw [Store.size_define]
    exact enough

/-- Arguments are bound one by one; what is known of the later ones is still known behind the
earlier ones. -/
theorem defineAll (scope : ScopeId) {pairs : List (String × Value)}
    (within : ∀ pair ∈ pairs, pair.2.Within size) :
    (defineAll scope pairs).Tracks pairing size id (fun _ _ => True)
      (defineAll (pairing.scope scope) (pairs.map (Prod.map id pairing.value))) := by
  induction pairs generalizing size with
  | nil => exact pure rfl trivial
  | cons pair rest inductionHypothesis =>
    obtain ⟨here, there⟩ := List.forall_mem_cons.mp within
    have now : (Eval.define scope ⟨pair.1, pair.2, .constant⟩).Tracks pairing size id
        (fun _ _ => True) (Eval.define (pairing.scope scope)
          (Binding.onValue pairing.value ⟨pair.1, pair.2, .constant⟩)) := define scope here
    exact bind now fun later _ grown _ =>
      inductionHypothesis fun other member => (there other member).mono grown

/-- A declaration gets a scope of its own in both runs or in none, as mirrored scopes bind the same
names. -/
theorem scopeFor (statement : Statement) {scope : ScopeId} (present : scope < size) :
    (scopeFor statement scope).Tracks pairing size pairing.scope (fun size scope => scope < size)
      (scopeFor statement (pairing.scope scope)) := by
  have stays : (Pure.pure scope : Eval ScopeId).Tracks pairing size pairing.scope
      (fun size scope => scope < size) (Pure.pure (pairing.scope scope)) := pure rfl present
  unfold Eval.scopeFor
  cases statement.declaredName? with
  | none => exact stays
  | some name =>
    intro machine mirror pairs enough
    show pairing.Paired size _ _
      ((if machine.store.binds scope name then Eval.newChild scope else Pure.pure scope) machine)
      ((if mirror.store.binds (pairing.scope scope) name then Eval.newChild (pairing.scope scope)
        else Pure.pure (pairing.scope scope)) mirror)
    rw [pairs.store.binds scope name]
    split
    · exact newChild present machine mirror pairs enough
    · exact stays machine mirror pairs enough

/-- An assignment reaches the relocated scope or fails in the same way. -/
theorem assign (context : Context) (scope : ScopeId) (name : String) {value : Value}
    (position : Position) (within : value.Within size) :
    (assign context scope name value position).Tracks pairing size id (fun _ _ => True)
      (assign (pairing.context context) (pairing.scope scope) name (pairing.value value)
        position) := by
  intro machine mirror pairs enough
  rw [assign_apply, assign_apply, pairs.store.target pairs.closed scope name]
  cases machine.store.target scope name with
  | ok found =>
    refine ⟨_, rfl, ⟨pairs.store.write found name value, ?_, pairs.output, pairs.depth,
      pairs.closures⟩, size, Nat.le_refl size, ?_, trivial⟩
    · exact pairs.closed.write found name (within.mono enough)
    · rw [Store.size_write]
      exact enough
  | error fault =>
    show pairing.Paired size id _ _
      (Eval.fail (assignFault (pairing.context context) name fault) position mirror)
    rw [assignFault_context]
    exact fail _ position machine mirror pairs enough

/-- The next function value is counted in both runs, so the two counts keep their distance. -/
theorem newClosure (procedure : Procedure) {scope : ScopeId} (present : scope < size) :
    (newClosure procedure scope).Tracks pairing size pairing.value Value.Within
      (newClosure procedure (pairing.scope scope)) := by
  intro machine mirror pairs enough
  refine ⟨{ mirror with closures := mirror.closures + 1 }, ?_, ⟨pairs.store, pairs.closed,
    pairs.output, pairs.depth, ?_⟩, size, Nat.le_refl size, enough, .function present⟩
  · show EStateM.Result.ok (Value.function ⟨mirror.closures, procedure, pairing.scope scope⟩) _ =
      EStateM.Result.ok (Value.function ⟨pairing.identity machine.closures, procedure,
        pairing.scope scope⟩) _
    rw [pairs.closures]
  · show mirror.closures + 1 = pairing.identity (machine.closures + 1)
    rw [pairs.closures]
    exact Nat.add_right_comm machine.closures pairing.closures 1

/-- Both sinks take all bytes, as neither of them has a limit. -/
theorem write (position : Position) (text : String) :
    (write position text).Tracks pairing size id (fun _ _ => True) (write position text) := by
  intro machine mirror pairs enough
  obtain ⟨bytes, same, sameMirror⟩ := pairs.output
  have written : Sink.write text machine.sink =
      .ok () (pairing.sink.appending (bytes ++ text.toUTF8)) := by
    rw [same]
    exact Sink.write_appending pairing.unlimited bytes text
  have writtenMirror : Sink.write text mirror.sink =
      .ok () (pairing.mirrorSink.appending (bytes ++ text.toUTF8)) := by
    rw [sameMirror]
    exact Sink.write_appending pairing.mirrorUnlimited bytes text
  rw [Eval.write, onSink_of_ok written, onSink_of_ok writtenMirror]
  exact ⟨_, rfl, ⟨pairs.store, pairs.closed, ⟨_, rfl, rfl⟩, pairs.depth, pairs.closures⟩, size,
    Nat.le_refl size, enough, trivial⟩

theorem writeAll (position : Position) (texts : List String) :
    (writeAll position texts).Tracks pairing size id (fun _ _ => True)
      (writeAll position texts) := by
  induction texts generalizing size with
  | nil => exact pure rfl trivial
  | cons text rest inductionHypothesis =>
    exact bind (write position text) fun _ _ _ _ => inductionHypothesis

/-- A builtin writes the same texts and comes to the relocated result, which holds no function that
its arguments do not hold. -/
theorem callBuiltin (builtin : Builtin) {arguments : List Value} (position : Position)
    (within : ∀ value ∈ arguments, value.Within size) :
    (callBuiltin builtin arguments position).Tracks pairing size pairing.value Value.Within
      (callBuiltin builtin (arguments.map pairing.value) position) := by
  have texts : builtin.texts (arguments.map pairing.value) = builtin.texts arguments :=
    pairing.relabeling.texts_map builtin arguments
  rw [callBuiltin_eq, callBuiltin_eq, texts]
  refine bind (writeAll position _) fun later _ grown _ => ?_
  refine resultAt position (pairing.relabeling.result_map builtin arguments) ?_
  intro value found closure held
  obtain ⟨argument, member, heldThere⟩ := List.mem_flatMap.mp (closures_result found held)
  exact Nat.lt_of_lt_of_le (within argument member closure heldThere) grown

theorem allowCall (context : Context) :
    (allowCall context).Tracks pairing size id (fun _ _ => True)
      (allowCall (pairing.context context)) := by
  intro machine mirror pairs enough
  rw [allowCall_apply, allowCall_apply, pairs.depth]
  show pairing.Paired size _ _ _ (if context.maxDepth ≤ machine.depth then _ else _)
  split
  · exact ⟨mirror, rfl, pairs⟩
  · exact ⟨mirror, rfl, pairs, size, Nat.le_refl size, enough, trivial⟩

/-- Calls are as deep in both runs, inside and behind. -/
theorem deeper {change : α → β} {known : Nat → α → Prop} {step : Eval α} {other : Eval β}
    (tracks : step.Tracks pairing size change known other) :
    step.deeper.Tracks pairing size change known other.deeper := by
  intro machine mirror pairs enough
  have inside : pairing.Pairs { machine with depth := machine.depth + 1 }
      { mirror with depth := mirror.depth + 1 } :=
    ⟨pairs.store, pairs.closed, pairs.output, congrArg (· + 1) pairs.depth, pairs.closures⟩
  have paired := tracks _ _ inside enough
  unfold Eval.deeper
  cases came : step { machine with depth := machine.depth + 1 } with
  | ok value later =>
    rw [came] at paired
    obtain ⟨last, cameLast, pairsLast, known⟩ := paired
    rw [cameLast]
    exact ⟨_, rfl, ⟨pairsLast.store, pairsLast.closed, pairsLast.output,
      congrArg (· - 1) pairsLast.depth, pairsLast.closures⟩, known⟩
  | error interrupt later =>
    rw [came] at paired
    obtain ⟨last, cameLast, pairsLast⟩ := paired
    rw [cameLast]
    exact ⟨_, rfl, pairsLast.store, pairsLast.closed, pairsLast.output,
      congrArg (· - 1) pairsLast.depth, pairsLast.closures⟩

end Tracks

end Eval

end Scriptlet
