/-
This file proves that every place in a tree is that of a token of the phrase the tree
stands for: what holds of the places of all tokens holds of the places of all nodes. The
trees that loops over a counter and compound assignments are short for have more nodes
than the phrase has parts, and these nodes have the places of tokens too.
-/

import Scriptlet.Proofs.Contents
import Scriptlet.Proofs.Grammar.Opening

namespace Scriptlet.Grammar

/-- The places of what a phrase stands for. -/
def Phrase.places : (phrase : Phrase) → phrase.Tree → List Position
  | .block, tree => tree.position :: statementPlaces tree.statements
  | .statement, tree => tree.places
  | .simple, tree => tree.places
  | .assignment, tree => tree.places
  | .branch, tree => tree.places
  | .alternative, tree => statementPlaces tree
  | .joined _, tree => tree.places
  | .operand _, tree => tree.places
  | .unary, tree => tree.places
  | .updated, tree => tree.places
  | .applied, tree => tree.places
  | .primary, tree => tree.places

/-- Joined operands keep their places and get that of the operator. -/
theorem places_join (level : Level) (connective : Connective) (left right : Expr)
    (position : Position) :
    (Phrase.joined level).places (connective.join left right position) =
      position :: (left.places ++ right.places) := by
  cases connective with
  | _ => rfl

/-- All tokens stand at places with a property. -/
def AllAt (holds : Position → Prop) (tokens : List Placed) : Prop :=
  ∀ placed ∈ tokens, holds placed.position

section

variable {holds : Position → Prop}

theorem allAt_cons {first : Placed} {rest : List Placed} :
    AllAt holds (first :: rest) ↔ holds first.position ∧ AllAt holds rest :=
  List.forall_mem_cons

theorem allAt_append {front back : List Placed} :
    AllAt holds (front ++ back) ↔ AllAt holds front ∧ AllAt holds back :=
  List.forall_mem_append

/-- The items of a list stand at places of the list. -/
theorem Separated.allAt {α : Type} {pieces : List (Piece α)} {tokens : List Placed}
    (separated : Separated pieces tokens) (all : AllAt holds tokens) :
    ∀ piece ∈ pieces, AllAt holds piece.tokens := by
  induction separated with
  | none => exact fun piece member => by cases member
  | one only =>
    intro piece member
    rw [List.mem_singleton.mp member]
    exact all
  | more first comma _ inductionHypothesis =>
    obtain ⟨here, there⟩ := allAt_append.mp all
    exact List.forall_mem_cons.mpr ⟨here, inductionHypothesis (allAt_cons.mp there).2⟩

theorem allAt_joinTokens {α : Type} {pieces : List (Piece α)}
    (all : AllAt holds (joinTokens pieces)) : ∀ piece ∈ pieces, AllAt holds piece.tokens :=
  fun piece member placed inside => all placed (List.mem_flatMap.mpr ⟨piece, member, inside⟩)

theorem allOf_trees {α : Type} {places : α → List Position} {pieces : List (Piece α)}
    (each : ∀ piece ∈ pieces, AllOf holds (places piece.tree)) :
    AllOf holds ((trees pieces).flatMap places) := by
  intro place member
  obtain ⟨tree, inTrees, inside⟩ := List.mem_flatMap.mp member
  obtain ⟨piece, inPieces, same⟩ := List.mem_map.mp inTrees
  subst same
  exact each piece inPieces place inside

/-- Every place in the tree of a phrase is that of a token of the phrase. -/
theorem Derives.allOf_places {extending : Bool} {phrase : Phrase} {tokens : List Placed}
    {tree : phrase.Tree} (derived : Derives extending phrase tokens tree)
    (all : AllAt holds tokens) : AllOf holds (phrase.places tree) := by
  induction derived with
  | single _ inner => exact inner all
  | join position _ _ _ left right =>
    obtain ⟨front, back⟩ := allAt_append.mp all
    obtain ⟨here, back⟩ := allAt_cons.mp back
    rw [places_join]
    exact allOf_cons.mpr ⟨here, allOf_append.mpr ⟨left front, right back⟩⟩
  | tighter _ _ inner => exact inner all
  | tightest _ inner => exact inner all
  | leading position _ _ _ inner =>
    obtain ⟨here, back⟩ := allAt_cons.mp all
    exact allOf_cons.mpr ⟨here, inner back⟩
  | unled _ inner => exact inner all
  | update position _ _ _ inner =>
    obtain ⟨front, back⟩ := allAt_append.mp all
    exact allOf_cons.mpr ⟨(allAt_cons.mp back).1, inner front⟩
  | notUpdated _ inner => exact inner all
  | extended _ _ inner => exact inner all
  | call arguments position closed _ _ separated callee each =>
    obtain ⟨front, -⟩ := allAt_append.mp all
    obtain ⟨front, back⟩ := allAt_append.mp front
    obtain ⟨here, back⟩ := allAt_cons.mp back
    have items : AllOf holds (exprPlaces (trees arguments)) := by
      rw [exprPlaces_eq]
      exact allOf_trees fun piece member => each piece member (separated.allAt back piece member)
    exact allOf_cons.mpr ⟨here, allOf_append.mpr ⟨callee front, items⟩⟩
  | index position closed _ _ target index =>
    obtain ⟨front, -⟩ := allAt_append.mp all
    obtain ⟨front, back⟩ := allAt_append.mp front
    obtain ⟨here, back⟩ := allAt_cons.mp back
    exact allOf_cons.mpr ⟨here, allOf_append.mpr ⟨target front, index back⟩⟩
  | notApplied _ inner => exact inner all
  | literal literal position => exact allOf_cons.mpr ⟨(allAt_cons.mp all).1, allOf_nil⟩
  | name name position => exact allOf_cons.mpr ⟨(allAt_cons.mp all).1, allOf_nil⟩
  | parenthesized opened closed _ inner =>
    exact inner (allAt_cons.mp (allAt_append.mp all).1).2
  | lambda position arrow _ _ body =>
    obtain ⟨front, back⟩ := allAt_append.mp all
    have here := (allAt_cons.mp front).1
    have inside := body (allAt_cons.mp back).2
    refine allOf_cons.mpr ⟨here, ?_⟩
    rw [Procedure.places_eq]
    exact allOf_cons.mpr ⟨here, (allOf_cons.mp inside).2⟩
  | block statements position closed _ each =>
    obtain ⟨here, back⟩ := allAt_cons.mp (allAt_append.mp all).1
    have items : AllOf holds (statementPlaces (trees statements)) := by
      rw [statementPlaces_eq]
      exact allOf_trees fun piece member => each piece member (allAt_joinTokens back piece member)
    exact allOf_cons.mpr ⟨here, items⟩
  | evaluate _ inner => exact allOf_cons.mpr ⟨(allAt_cons.mp all).1, inner all⟩
  | assign position sign _ _ target value =>
    obtain ⟨front, back⟩ := allAt_append.mp all
    have here := (allOf_cons.mp (target front)).1
    exact allOf_cons.mpr ⟨here, value (allAt_cons.mp back).2⟩
  | compoundAssign position sign _ _ _ target value =>
    obtain ⟨front, back⟩ := allAt_append.mp all
    obtain ⟨atSign, back⟩ := allAt_cons.mp back
    have here := (allOf_cons.mp (target front)).1
    refine allOf_cons.mpr ⟨here, allOf_cons.mpr ⟨atSign, ?_⟩⟩
    exact allOf_append.mpr ⟨target front, value back⟩
  | declare start position sign _ _ value =>
    obtain ⟨-, back⟩ := allAt_cons.mp all
    obtain ⟨here, back⟩ := allAt_cons.mp back
    exact allOf_cons.mpr ⟨here, value (allAt_cons.mp back).2⟩
  | undeclared _ inner => exact inner all
  | simple semicolon _ inner => exact inner (allAt_append.mp all).1
  | nested _ inner => exact inner all
  | leave position semicolon => exact allOf_cons.mpr ⟨(allAt_cons.mp all).1, allOf_nil⟩
  | leaveWith position semicolon _ value =>
    obtain ⟨here, back⟩ := allAt_cons.mp (allAt_append.mp all).1
    exact allOf_cons.mpr ⟨here, value back⟩
  | breakLoop position semicolon => exact allOf_cons.mpr ⟨(allAt_cons.mp all).1, allOf_nil⟩
  | continueLoop position semicolon => exact allOf_cons.mpr ⟨(allAt_cons.mp all).1, allOf_nil⟩
  | loop position opened closed _ _ test body =>
    obtain ⟨front, back⟩ := allAt_append.mp all
    obtain ⟨here, front⟩ := allAt_cons.mp front
    have inside := body (allAt_cons.mp back).2
    have tested := test (allAt_cons.mp front).2
    exact allOf_cons.mpr ⟨here, allOf_append.mpr ⟨tested, (allOf_cons.mp inside).2⟩⟩
  | counterLoop position opened first second closed _ _ _ _ _ _ start test step body =>
    obtain ⟨front, last⟩ := allAt_append.mp all
    obtain ⟨front, back⟩ := allAt_append.mp front
    obtain ⟨front, middle⟩ := allAt_append.mp front
    obtain ⟨here, front⟩ := allAt_cons.mp front
    have initialized := start (allAt_cons.mp front).2
    have tested := test (allAt_cons.mp middle).2
    have advanced := step (allAt_cons.mp back).2
    have inside := body (allAt_cons.mp last).2
    have round : AllOf holds (statementPlaces [.loopBody _ _, _]) :=
      allOf_append.mpr ⟨inside, allOf_append.mpr ⟨advanced, allOf_nil⟩⟩
    have looped := allOf_cons.mpr ⟨here, allOf_append.mpr ⟨tested, round⟩⟩
    refine allOf_cons.mpr ⟨here, allOf_append.mpr ⟨initialized, ?_⟩⟩
    exact allOf_append.mpr ⟨looped, allOf_nil⟩
  | branch _ inner => exact inner all
  | branchAlone position opened closed _ _ test body =>
    obtain ⟨front, back⟩ := allAt_append.mp all
    obtain ⟨here, front⟩ := allAt_cons.mp front
    have inside := body (allAt_cons.mp back).2
    have tested := test (allAt_cons.mp front).2
    exact allOf_cons.mpr ⟨here, allOf_append.mpr ⟨tested, (allOf_cons.mp inside).2⟩⟩
  | branchElse position opened closed otherwise _ _ _ test body other =>
    obtain ⟨front, last⟩ := allAt_append.mp all
    obtain ⟨front, back⟩ := allAt_append.mp front
    obtain ⟨here, front⟩ := allAt_cons.mp front
    have inside := body (allAt_cons.mp back).2
    have tested := test (allAt_cons.mp front).2
    have alternative := other (allAt_cons.mp last).2
    refine allOf_cons.mpr ⟨here, allOf_append.mpr ⟨tested, allOf_append.mpr ⟨?_, alternative⟩⟩⟩
    exact (allOf_cons.mp inside).2
  | chained _ inner => exact allOf_append.mpr ⟨inner all, allOf_nil⟩
  | unchained _ inner => exact (allOf_cons.mp (inner all)).2

/-- The places in a procedure are places of its tokens. -/
theorem DerivesProcedure.allOf_places {extending : Bool} {tokens : List Placed}
    {procedure : Procedure} (derived : DerivesProcedure extending tokens procedure)
    (all : AllAt holds tokens) : AllOf holds procedure.places := by
  cases derived with
  | intro position place _ body =>
    obtain ⟨front, back⟩ := allAt_append.mp all
    rw [Procedure.places_eq]
    exact allOf_cons.mpr ⟨(allAt_cons.mp front).1, (allOf_cons.mp (body.allOf_places back)).2⟩

theorem DerivesProgram.allOf_places {extending : Bool} {tokens : List Placed} {program : Program}
    (derived : DerivesProgram extending tokens program) (all : AllAt holds tokens) :
    ∀ procedure ∈ program.procedures, AllOf holds procedure.places := by
  cases derived with
  | intro pieces each _ =>
    intro procedure member
    obtain ⟨piece, inPieces, same⟩ := List.mem_map.mp member
    rw [← same]
    exact (each piece inPieces).allOf_places (allAt_joinTokens all piece inPieces)

end

end Scriptlet.Grammar
