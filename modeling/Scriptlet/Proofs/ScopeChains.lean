/-
This file proves that walks outward from a scope come to an end. In a closed store the scope
around one was made before it, so going outward the numbers of the scopes fall, and the scopes that
are passed form a chain that ends at a scope with nothing around it. Depth, reading and assigning
are then told by the chain: its length, the first binding of a name along it, and whether this
binding may be changed. Walks are bounded in the store; no walk with more steps goes further.
-/

import Scriptlet.Proofs.Assignment
import Scriptlet.Proofs.Relocation

namespace Scriptlet.Store

variable {store : Store} {scope : ScopeId}

/-! ### Chains -/

/-- The first scope is the one around the second. -/
def Around (store : Store) (parent scope : ScopeId) : Prop :=
  ∃ found, store.scopes[scope]? = some found ∧ found.parent = some parent

/-- The scopes that are passed going outward from a scope, up to one with nothing around it. -/
inductive Chain (store : Store) : ScopeId → List ScopeId → Prop where
  | root {scope : ScopeId} {found : Scope} : store.scopes[scope]? = some found →
    found.parent = none → Chain store scope [scope]
  | inside {scope parent : ScopeId} {found : Scope} {chain : List ScopeId} :
    store.scopes[scope]? = some found → found.parent = some parent → Chain store parent chain →
    Chain store scope (scope :: chain)

/-- The binding of a name in a scope itself, with the scope. -/
def located? (store : Store) (name : String) (scope : ScopeId) : Option Located :=
  (store.binding? scope name).map fun binding => ⟨scope, binding⟩

/-- Going outward one cannot go on for ever. -/
theorem Closed.wellFounded_around (closed : store.Closed) : WellFounded store.Around := by
  refine Subrelation.wf (r := (· < ·)) ?_ Nat.lt_wfRel.wf
  rintro parent scope ⟨found, present, around⟩
  exact closed.parent present around

/-- From every scope that is there a chain leads outward. -/
theorem Closed.exists_chain (closed : store.Closed) (old : scope < store.scopes.size) :
    ∃ chain, store.Chain scope chain := by
  induction scope using Nat.strongRecOn with
  | ind scope inductionHypothesis =>
    have present := Array.getElem?_eq_getElem old
    cases around : store.scopes[scope].parent with
    | none => exact ⟨_, .root present around⟩
    | some parent =>
      have earlier := closed.parent present around
      obtain ⟨chain, outward⟩ := inductionHypothesis parent earlier (Nat.lt_trans earlier old)
      exact ⟨_, .inside present around outward⟩

namespace Chain

variable {chain : List ScopeId}

theorem le_of_mem (outward : store.Chain scope chain) (closed : store.Closed) :
    ∀ passed ∈ chain, passed ≤ scope := by
  induction outward with
  | root present around =>
    intro passed member
    exact Nat.le_of_eq (List.mem_singleton.mp member)
  | inside present around _ inductionHypothesis =>
    intro passed member
    rcases List.mem_cons.mp member with rfl | further
    · exact Nat.le_refl _
    · exact Nat.le_of_lt (Nat.lt_of_le_of_lt (inductionHypothesis passed further)
        (closed.parent present around))

/-- The scopes of a chain were made one after the other, the outermost first. -/
theorem descending (outward : store.Chain scope chain) (closed : store.Closed) :
    chain.Pairwise (· > ·) := by
  induction outward with
  | root present around => exact List.pairwise_singleton _ _
  | inside present around further inductionHypothesis =>
    refine .cons (fun passed member => ?_) inductionHypothesis
    exact Nat.lt_of_le_of_lt (further.le_of_mem closed passed member)
      (closed.parent present around)

/-! ### Walks -/

theorem depthWithin_eq (outward : store.Chain scope chain) (closed : store.Closed) {steps : Nat}
    (enough : scope < steps) : store.depthWithin steps scope = chain.length := by
  induction outward generalizing steps with
  | root present around =>
    obtain ⟨steps, rfl⟩ := Nat.exists_eq_add_one_of_ne_zero (Nat.ne_zero_of_lt enough)
    rw [depthWithin, present]
    dsimp only
    rw [around]
    rfl
  | inside present around _ inductionHypothesis =>
    obtain ⟨steps, rfl⟩ := Nat.exists_eq_add_one_of_ne_zero (Nat.ne_zero_of_lt enough)
    have earlier := Nat.lt_of_lt_of_le (closed.parent present around) (Nat.le_of_lt_succ enough)
    rw [depthWithin, present]
    dsimp only
    rw [around, List.length_cons, ← inductionHypothesis earlier]

theorem locateWithin_eq (outward : store.Chain scope chain) (closed : store.Closed) (name : String)
    {steps : Nat} (enough : scope < steps) :
    store.locateWithin name steps scope = chain.findSome? (store.located? name) := by
  induction outward generalizing steps with
  | @root scope found present around =>
    obtain ⟨steps, rfl⟩ := Nat.exists_eq_add_one_of_ne_zero (Nat.ne_zero_of_lt enough)
    rw [locateWithin, List.findSome?_singleton, located?, binding?, present]
    dsimp only [Option.bind_some]
    rw [around]
    cases found.find? name with
    | none => rfl
    | some binding => rfl
  | @inside scope parent found chain present around _ inductionHypothesis =>
    obtain ⟨steps, rfl⟩ := Nat.exists_eq_add_one_of_ne_zero (Nat.ne_zero_of_lt enough)
    have earlier := Nat.lt_of_lt_of_le (closed.parent present around) (Nat.le_of_lt_succ enough)
    rw [List.findSome?_cons, located?, binding?, present, Option.bind_some]
    cases free : found.find? name with
    | none => rw [locateWithin_of_free present free around, inductionHypothesis earlier]; rfl
    | some binding => exact locateWithin_of_bound present free

end Chain

/-- What the walks outward from a scope come to, if these are the scopes that they pass. -/
structure Walks (store : Store) (scope : ScopeId) (chain : List ScopeId) : Prop where
  outward : store.Chain scope chain
  descending : chain.Pairwise (· > ·)
  depth : store.depth scope = chain.length
  get : ∀ name, store.get? scope name =
    (chain.findSome? (store.located? name)).map fun located => located.binding.value
  assign : ∀ name value, store.assign scope name value =
    match chain.findSome? (store.located? name) with
    | none => .error .undefined
    | some located =>
      match located.binding.mutability with
      | .constant => .error .constant
      | .mutable => .ok (store.write located.scope name value)
  further : ∀ steps, scope < steps → store.depthWithin steps scope = store.depth scope ∧
    ∀ name, store.locateWithin name steps scope = store.locate? scope name

theorem Chain.walks {chain : List ScopeId} (outward : store.Chain scope chain)
    (closed : store.Closed) : store.Walks scope chain where
  outward := outward
  descending := outward.descending closed
  depth := outward.depthWithin_eq closed (Nat.lt_succ_self scope)
  get name := by
    rw [get?, locate?, outward.locateWithin_eq closed name (Nat.lt_succ_self scope)]
  assign name value := by
    have first : store.locate? scope name = chain.findSome? (store.located? name) :=
      outward.locateWithin_eq closed name (Nat.lt_succ_self scope)
    rw [← first]
    exact assign_eq store scope name value
  further steps enough := by
    refine ⟨?_, fun name => ?_⟩
    · rw [depth, outward.depthWithin_eq closed enough,
        outward.depthWithin_eq closed (Nat.lt_succ_self scope)]
    · rw [locate?, outward.locateWithin_eq closed name enough,
        outward.locateWithin_eq closed name (Nat.lt_succ_self scope)]

/-- A store in which chains of scopes are well founded: what it holds leads to scopes that are
there, and from each of these every walk outward comes to an end. -/
structure Grounded (store : Store) : Prop where
  closed : store.Closed
  wellFounded : WellFounded store.Around
  walks : ∀ scope < store.scopes.size, ∃ chain, store.Walks scope chain
  inner : ∀ parent scope, store.Around parent scope →
    store.depth scope = store.depth parent + 1
  outermost : ∀ scope found, store.scopes[scope]? = some found → found.parent = none →
    store.depth scope = 1

theorem Closed.grounded (closed : store.Closed) : store.Grounded where
  closed := closed
  wellFounded := closed.wellFounded_around
  walks scope old := by
    obtain ⟨chain, outward⟩ := closed.exists_chain old
    exact ⟨chain, outward.walks closed⟩
  inner parent scope := by
    rintro ⟨found, present, around⟩
    have old : scope < store.scopes.size := (Array.getElem?_eq_some_iff.mp present).1
    have earlier := closed.parent present around
    obtain ⟨chain, outward⟩ := closed.exists_chain (Nat.lt_trans earlier old)
    rw [(outward.walks closed).depth, ((Chain.inside present around outward).walks closed).depth,
      List.length_cons]
  outermost scope found present around := ((Chain.root present around).walks closed).depth

end Scriptlet.Store
