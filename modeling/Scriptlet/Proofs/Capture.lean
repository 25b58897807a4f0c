/-
This file says when a function keeps the variables it captured. A function captures a
scope, and a name means to it what a walk outward from that scope finds. The walk passes
scopes that do not bind the name before it comes to the one that does. A redeclaration in
the scope that holds the name leads to a new scope and is never met by the walk; but a
block declares in a scope that does not bind the name yet, and if the walk passes this
scope, the function is led to the new variable from then on.

So the meaning of a name is the same at a later moment of a run if, and only if, none of
the passed scopes has declared the name in between.
-/

import Scriptlet.Proofs.Passage

namespace Scriptlet

/-! ### Walks -/

namespace Store

/-- The scopes that a walk outward passes before it comes to one that binds the name. -/
def passedWithin (store : Store) (name : String) : Nat → ScopeId → List ScopeId
  | 0, _ => []
  | steps + 1, scope =>
    match store.scopes[scope]? with
    | none => []
    | some found =>
      match found.find? name, found.parent with
      | none, some parent => scope :: store.passedWithin name steps parent
      | none, none => [scope]
      | some _, _ => []

/-- The scopes between a scope and the one that holds a name seen from there. -/
def passed (store : Store) (scope : ScopeId) (name : String) : List ScopeId :=
  store.passedWithin name (scope + 1) scope

variable {store : Store} {name : String} {steps : Nat} {scope parent : ScopeId} {found : Scope}

theorem locateWithin_of_bound {binding : Binding} (present : store.scopes[scope]? = some found)
    (bound : found.find? name = some binding) :
    store.locateWithin name (steps + 1) scope = some ⟨scope, binding⟩ := by
  rw [locateWithin, present]
  dsimp only
  rw [bound]

theorem locateWithin_of_free (present : store.scopes[scope]? = some found)
    (free : found.find? name = none) (outer : found.parent = some parent) :
    store.locateWithin name (steps + 1) scope = store.locateWithin name steps parent := by
  rw [locateWithin, present]
  dsimp only
  rw [free, outer]

theorem passedWithin_of_bound {binding : Binding} (present : store.scopes[scope]? = some found)
    (bound : found.find? name = some binding) :
    store.passedWithin name (steps + 1) scope = [] := by
  rw [passedWithin, present]
  dsimp only
  rw [bound]

theorem passedWithin_of_free (present : store.scopes[scope]? = some found)
    (free : found.find? name = none) (outer : found.parent = some parent) :
    store.passedWithin name (steps + 1) scope = scope :: store.passedWithin name steps parent := by
  rw [passedWithin, present]
  dsimp only
  rw [free, outer]

theorem binds_of_present (present : store.scopes[scope]? = some found) :
    store.binds scope name = found.binds name := by
  rw [binds, present]

/-- Passed scopes exist and do not bind the name. -/
theorem free_of_passedWithin {passed : ScopeId}
    (member : passed ∈ store.passedWithin name steps scope) :
    passed < store.scopes.size ∧ store.binds passed name = false := by
  induction steps generalizing scope with
  | zero => cases member
  | succ steps inductionHypothesis =>
    rw [passedWithin] at member
    split at member
    · cases member
    · rename_i found present
      have here : found.find? name = none →
          scope < store.scopes.size ∧ store.binds scope name = false := by
        intro free
        refine ⟨(Array.getElem?_eq_some_iff.mp present).1, ?_⟩
        rw [binds_of_present present, Scope.binds, free]
        rfl
      split at member
      · rename_i parent free outer
        cases member with
        | head => exact here free
        | tail _ further => exact inductionHypothesis further
      · rename_i free outer
        rw [List.mem_singleton.mp member]
        exact here free
      · cases member

/-- A name that is found from a scope is found in the same scope later, unless a passed scope
binds it by then. -/
theorem locateWithin_kept {gains : ScopeId → String → Prop} {before after : Store}
    (kept : before.Kept gains after) {located : Located}
    (reached : before.locateWithin name steps scope = some located) :
    (after.locateWithin name steps scope).map Located.scope = some located.scope ↔
      ∀ passed ∈ before.passedWithin name steps scope, after.binds passed name = false := by
  induction steps generalizing scope with
  | zero => cases reached
  | succ steps inductionHypothesis =>
    cases present : before.scopes[scope]? with
    | none =>
      rw [locateWithin, present] at reached
      cases reached
    | some found =>
      obtain ⟨last, presentLast, keptLast⟩ := kept present
      cases bound : found.find? name with
      | some binding =>
        obtain ⟨value, boundLast, _⟩ := keptLast.binding bound
        rw [locateWithin_of_bound present bound] at reached
        cases reached
        rw [locateWithin_of_bound presentLast boundLast, passedWithin_of_bound present bound]
        exact ⟨(fun _ passed member => by cases member), fun _ => rfl⟩
      | none =>
        obtain ⟨holder, holderPresent, holderBinds⟩ := locateWithin_found reached
        cases outer : found.parent with
        | none =>
          rw [locateWithin, present] at reached
          simp only [bound, outer] at reached
          cases reached
        | some parent =>
          rw [locateWithin_of_free present bound outer] at reached
          rw [passedWithin_of_free present bound outer, List.forall_mem_cons,
            binds_of_present presentLast, ← inductionHypothesis reached]
          cases boundLast : last.find? name with
          | some binding =>
            -- The scope itself binds the name by now, and it is not the holder, which did before.
            rw [locateWithin_of_bound presentLast boundLast]
            have other : scope ≠ located.scope := by
              rintro rfl
              rw [present] at holderPresent
              cases holderPresent
              rw [bound] at holderBinds
              cases holderBinds
            have binds : last.binds name = true := by
              rw [Scope.binds, boundLast]
              rfl
            rw [binds]
            exact ⟨fun same => absurd (Option.some.inj same) other, fun both => by cases both.1⟩
          | none =>
            have free : last.binds name = false := by
              rw [Scope.binds, boundLast]
              rfl
            rw [locateWithin_of_free presentLast boundLast (keptLast.parent.trans outer)]
            exact ⟨fun same => ⟨free, same⟩, fun both => both.2⟩

end Store

/-! ### Between two moments -/

/-- Between two places of a timeline, the first excluded, a declaration is complete. -/
def DeclaredBetween (moments : List Moment) (first last : Nat) (scope : ScopeId) (name : String) :
    Prop :=
  ∃ place moment, first < place ∧ place ≤ last ∧ moments[place]? = some moment ∧
    moment.declares scope name

namespace Passage

variable {gains : ScopeId → String → Prop} {start finish : Store} {moments : List Moment}
  {first last : Nat} {earlier later : Moment}

/-- From one moment to a later one, scopes gain the names that are declared in between. -/
theorem kept (passage : Passage gains start moments finish) (order : first ≤ last)
    (earlierAt : moments[first]? = some earlier) (laterAt : moments[last]? = some later) :
    earlier.machine.store.Kept (DeclaredBetween moments first last) later.machine.store := by
  induction order generalizing later with
  | refl =>
    rw [earlierAt] at laterAt
    cases laterAt
    exact .refl earlier.machine.store
  | @step last order inductionHypothesis =>
    have inRange : last < moments.length :=
      Nat.lt_of_succ_lt (List.getElem?_eq_some_iff.mp laterAt).1
    have middleAt : moments[last]? = some moments[last] := List.getElem?_eq_getElem inRange
    refine Store.Kept.trans ((inductionHypothesis middleAt).restrict ?_)
      ((passage.link middleAt laterAt).restrict ?_)
    · rintro scope name _ ⟨place, moment, after, upTo, there, declares⟩
      exact ⟨place, moment, after, Nat.le_succ_of_le upTo, there, declares⟩
    · intro scope name _ declares
      exact ⟨last + 1, later, Nat.lt_succ_of_le order, Nat.le_refl _, laterAt, declares⟩

/-- What has been declared in between is bound. -/
theorem binds (passage : Passage gains start moments finish)
    (laterAt : moments[last]? = some later) {scope : ScopeId} {name : String}
    (declared : DeclaredBetween moments first last scope name) :
    later.machine.store.binds scope name = true := by
  obtain ⟨place, moment, _, upTo, there, declares⟩ := declared
  have bound := passage.bound_of_mem (List.mem_of_getElem? there) scope name declares
  exact (passage.kept upTo there laterAt).binds bound

/-- A name keeps its meaning from a scope if, and only if, no passed scope has declared it. -/
theorem resolves_iff (passage : Passage gains start moments finish) (order : first ≤ last)
    (earlierAt : moments[first]? = some earlier) (laterAt : moments[last]? = some later)
    {scope : ScopeId} {name : String} {located : Located}
    (resolves : earlier.machine.store.locate? scope name = some located) :
    (later.machine.store.locate? scope name).map Located.scope = some located.scope ↔
      ∀ passed ∈ earlier.machine.store.passed scope name,
        ¬ DeclaredBetween moments first last passed name := by
  have kept := passage.kept order earlierAt laterAt
  refine (Store.locateWithin_kept kept resolves).trans (forall₂_congr fun passed member => ?_)
  obtain ⟨old, free⟩ := Store.free_of_passedWithin member
  constructor
  · intro stillFree declared
    rw [passage.binds laterAt declared] at stillFree
    cases stillFree
  · intro undeclared
    refine Bool.eq_false_iff.mpr fun bound => undeclared ?_
    exact kept.gained old free bound

end Passage

/-! ### Captured variables -/

/-- The variables along a run of a program. -/
theorem Interpreter.timeline_passage (interpreter : Interpreter) (budget : Nat)
    (program : Program) :
    ∃ finish, Passage noNames (interpreter.load program).machine.store
      (interpreter.timeline budget program) finish := by
  rw [Interpreter.timeline]
  split
  · exact ⟨_, Store.Kept.refl _⟩
  · exact ⟨_, Task.timeline_follows _ budget _ _ trivial⟩

/-- In every run, from every moment to every later one: a name that a function sees in a scope is
still seen in that very scope if, and only if, none of the scopes that lie between the captured
scope and that one has declared the name in the meantime. -/
theorem capture_kept_iff (interpreter : Interpreter) (budget : Nat) (program : Program)
    (closure : Closure) (name : String) {first last : Nat} {earlier later : Moment}
    {located : Located} (order : first ≤ last)
    (earlierAt : (interpreter.timeline budget program)[first]? = some earlier)
    (laterAt : (interpreter.timeline budget program)[last]? = some later)
    (resolves : earlier.machine.store.locate? closure.scope name = some located) :
    (later.machine.store.locate? closure.scope name).map Located.scope = some located.scope ↔
      ∀ passed ∈ earlier.machine.store.passed closure.scope name,
        ¬ DeclaredBetween (interpreter.timeline budget program) first last passed name := by
  obtain ⟨finish, passage⟩ := interpreter.timeline_passage budget program
  exact passage.resolves_iff order earlierAt laterAt resolves

/-! ### A variable that is lost -/

/-- The function `lam() -> { return x; }` of the program below. -/
def shadowed : Procedure :=
  ⟨Procedure.lambdaName, [], [.leave (some (.identifier "x" ⟨1, 54⟩)) ⟨1, 47⟩], ⟨1, 36⟩⟩

/-- The program
`proc main() { let x = 1; { let f = lam() -> { return x; }; let x = 2; return f(); } }`. -/
def shadowing : Program :=
  ⟨[⟨"main", [], [
      .declare "x" (.literal (.int 1) ⟨1, 23⟩) .mutable ⟨1, 19⟩,
      .block [
        .declare "f" (.lambda shadowed ⟨1, 36⟩) .mutable ⟨1, 32⟩,
        .declare "x" (.literal (.int 2) ⟨1, 68⟩) .mutable ⟨1, 64⟩,
        .leave (some (.call (.identifier "f" ⟨1, 78⟩) [] ⟨1, 79⟩)) ⟨1, 71⟩] ⟨1, 26⟩], ⟨1, 1⟩⟩]⟩

/-- The moments of a run of the program. -/
def shadowingMoments : List Moment :=
  (Interpreter.new ⟨"main", 100⟩ {}).timeline 16 shadowing

/-- The function that a name stands for, seen from a scope. -/
def Store.closure? (store : Store) (scope : ScopeId) (name : String) : Option Closure :=
  match store.get? scope name with
  | some (.function closure) => some closure
  | _ => none

theorem capture_kept_before_shadowing :
    ∃ earlier later closure located,
      shadowingMoments[12]? = some earlier ∧ shadowingMoments[16]? = some later ∧
      earlier.machine.store.closure? 2 "f" = some closure ∧
      earlier.machine.store.locate? closure.scope "x" = some located ∧
      (later.machine.store.locate? closure.scope "x").map Located.scope = some located.scope ∧
      ∀ passed ∈ earlier.machine.store.passed closure.scope "x",
        ¬ DeclaredBetween shadowingMoments 12 16 passed "x" := by
  have computed : ∃ earlier ∈ shadowingMoments[12]?, ∃ later ∈ shadowingMoments[16]?,
      ∃ closure ∈ earlier.machine.store.closure? 2 "f",
      ∃ located ∈ earlier.machine.store.locate? closure.scope "x",
        (later.machine.store.locate? closure.scope "x").map Located.scope =
          some located.scope := by
    decide +kernel
  obtain ⟨earlier, earlierAt, later, laterAt, closure, captured, located, resolves, same⟩ := computed
  refine ⟨earlier, later, closure, located, earlierAt, laterAt, captured, resolves, same, ?_⟩
  exact (capture_kept_iff _ 16 shadowing closure "x" (by decide) earlierAt laterAt resolves).mp same

/-- When `f` is bound, `x` means to it the variable of the procedure, in scope 1. Once the block has
declared an `x` of its own, it means the variable of the block, in scope 2, and the call of `f`
yields that one. -/
theorem capture_lost_by_shadowing :
    (∃ earlier ∈ shadowingMoments[12]?, ∃ later ∈ shadowingMoments[17]?,
      ∃ closure ∈ earlier.machine.store.closure? 2 "f",
        (earlier.machine.store.locate? closure.scope "x").map Located.scope = some 1 ∧
        (later.machine.store.locate? closure.scope "x").map Located.scope = some 2) ∧
    ((Interpreter.new ⟨"main", 100⟩ {}).run 16 shadowing).outcome.toOption.map Value.display =
      some "2" := by
  constructor
  · decide +kernel
  · decide +kernel

end Scriptlet
