/-
This file proves that programs read from a text are well formed, in all their nodes and at
any depth: names are identifiers and none of them reserved, no function has two parameters
of one name, only variables are updated, and a shielded body stands nowhere but in the loop
that a loop over a counter stands for.

Runs rely on this. The code that a run comes across, be it through functions kept in
variables and lists, is code of the program, so no run of such a program ends with the
error of an update of something else than a variable.
-/

import Scriptlet.Proofs.Code.LoopControl
import Scriptlet.Proofs.Grammar.Acceptance
import Scriptlet.Proofs.Lexing.Tokenization
import Scriptlet.Proofs.ProcedureTable

namespace Scriptlet

/-! ### Nodes -/

/-- A node of a program. -/
inductive Code where
  | ofExpr (expression : Expr)
  | ofStatement (statement : Statement)
  | ofProcedure (procedure : Procedure)

namespace Code

/-- The nodes right below a node. -/
def parts : Code → List Code
  | .ofExpr (.lambda procedure _) => [.ofProcedure procedure]
  | .ofExpr expression => expression.operands.map .ofExpr
  | .ofStatement statement =>
    statement.expressions.map .ofExpr ++ statement.inner.map .ofStatement
  | .ofProcedure procedure => procedure.body.map .ofStatement

/-- A node is another one or below it, at any depth. -/
def Has : Code → Code → Prop :=
  Relation.ReflTransGen fun whole part => part ∈ whole.parts

/-- A node and all nodes below it have a property. -/
def Throughout (holds : Code → Prop) (code : Code) : Prop :=
  ∀ part, code.Has part → holds part

theorem Throughout.intro {holds : Code → Prop} {code : Code} (here : holds code)
    (below : ∀ part ∈ code.parts, part.Throughout holds) : code.Throughout holds := by
  intro part has
  rcases has.cases_head with rfl | ⟨next, member, rest⟩
  · exact here
  · exact below next member part rest

end Code

/-- A node of one of the procedures of a program. -/
def Program.Has (program : Program) (code : Code) : Prop :=
  ∃ procedure ∈ program.procedures, (Code.ofProcedure procedure).Has code

/-! ### Names -/

namespace Lexing

/-- A text that is written like an identifier and is no reserved word. -/
structure IsName (name : String) : Prop where
  lexeme : name.toList ∈ Pattern.identifier.texts
  free : ∀ token : Token, token.reserved? ≠ some name

/-- Only names are read as identifiers. -/
theorem Pattern.Yields.eq_identifier {pattern : Pattern} {text : List Char}
    {result : Except ParseFault Content} {name : String} (yields : pattern.Yields text result)
    (isToken : result = .ok (.token (.identifier name))) :
    pattern = .identifier ∧ name = String.ofList text := by
  subst isToken
  match pattern with
  | truth _ | keyword _ | symbol _ | lineComment | blockComment | blanks | newLine =>
    cases yields
  | identifier =>
    cases yields
    exact ⟨rfl, rfl⟩
  | integer =>
    rcases yields with ⟨number, -, impossible⟩ | ⟨-, impossible⟩
    · cases impossible
    · cases impossible
  | decimal =>
    obtain ⟨whole, -, fraction, -, impossible⟩ := yields
    cases impossible

/-- A piece that is read as an identifier is a name. -/
theorem Munch.isName {text : List Char} {piece : Lexeme} {name : String}
    (munch : Munch text (.ok piece)) (identifier : piece.content.token? = some (.identifier name)) :
    IsName name := by
  generalize found : Except.ok piece = result at munch
  cases munch with
  | unmatched => cases found
  | @pattern text rest yielded pattern _ wins yields =>
    have isToken : yielded = .ok (.token (.identifier name)) := by
      cases yielded with
      | error fault => cases found
      | ok content =>
        cases found
        cases content with
        | token token => rw [Option.some.inj identifier]
        | layout kind => cases identifier
    obtain ⟨rfl, rfl⟩ := yields.eq_identifier isToken
    refine ⟨String.toList_ofList ▸ wins.belongs, fun token reserved => ?_⟩
    -- A reserved word would have been read as such.
    obtain ⟨other, same⟩ := Pattern.exists_reserved reserved
    have wordBelongs := (Pattern.mem_reserved_iff same).mpr reserved
    rcases wins.preferred other wordBelongs with rfl | ⟨rfl, -⟩
    · cases same
    · cases same
  | @string rest =>
    cases read : StringBody.decode rest with
    | ok decoded =>
      rw [read] at found
      cases found
      cases identifier
    | error fault =>
      rw [read] at found
      cases found

/-- All identifiers among the tokens are names. -/
def Named (tokens : List Placed) : Prop :=
  ∀ placed ∈ tokens, ∀ name, placed.token = .identifier name → IsName name

theorem Named.mono {tokens others : List Placed} (named : Named tokens)
    (subset : others ⊆ tokens) : Named others :=
  fun placed member => named placed (subset member)

theorem Munches.named {pieces : List Lexeme} {left : List Char} (munches : Munches pieces left)
    (position : Position) : Named (Lexeme.placed position pieces) := by
  induction pieces generalizing position with
  | nil => exact nofun
  | cons piece rest inductionHypothesis =>
    intro placed member name identifier
    rw [Lexeme.placed, List.mem_append] at member
    rcases member with here | behind
    · obtain ⟨token, found, rfl⟩ := Option.map_eq_some_iff.mp (Option.mem_toList.mp here)
      refine munches.1.isName ?_
      rw [found]
      exact congrArg some identifier
    · exact inductionHypothesis munches.2 _ placed behind name identifier

/-- The identifiers of a text are names. -/
theorem named_of_scan {source : String} {tokens : List Placed}
    (scanned : Token.scan source = .ok tokens) : Named tokens := by
  obtain ⟨pieces, left, cut, ended⟩ := scanFrom_cuts .start [] source.toList
  rcases ended with ⟨-, same⟩ | ⟨fault, -, same⟩
  · obtain rfl := Except.ok.inj (scanned.symm.trans same)
    intro placed member name identifier
    rw [List.reverse_nil, List.nil_append, List.mem_append] at member
    rcases member with inside | last
    · exact cut.munches.named .start placed inside name identifier
    · rw [List.mem_singleton.mp last] at identifier
      cases identifier
  · cases scanned.symm.trans same

end Lexing

open Lexing

/-! ### Nodes that can be read -/

namespace Statement

/-- Whether a statement is a shielded body. -/
def isLoopBody : Statement → Bool
  | .loopBody _ _ => true
  | _ => false

/-- Whether a statement is neither a shielded body nor a loop around one. -/
def standsAlone : Statement → Bool
  | .loopBody _ _ => false
  | .loop _ body _ => body.all fun statement => !statement.isLoopBody
  | _ => true

theorem isLoopBody_of_standsAlone {statement : Statement} (alone : statement.standsAlone = true) :
    statement.isLoopBody = false := by
  cases statement with
  | loopBody statements position => cases alone
  | _ => rfl

end Statement

namespace Code

/-- The names of the node are names, its parameters differ, and what it updates is a variable. -/
def Proper : Code → Prop
  | .ofExpr (.identifier name _) => IsName name
  | .ofExpr (.unary (.update _ _) operand _) => Grammar.Variable operand
  | .ofStatement (.declare name _ _ _) => IsName name
  | .ofStatement (.assign name _ _) => IsName name
  | .ofProcedure procedure =>
    procedure.parameters.Nodup ∧ ∀ name ∈ procedure.parameters, IsName name
  | _ => True

/-- Below the node all statements stand alone, unless the node is a loop over a counter or the
loop that stands in its block. -/
inductive Shields : Code → Prop where
  | plain {code : Code}
      (alone : ∀ statement, .ofStatement statement ∈ code.parts → statement.standsAlone = true) :
      Shields code
  | round (condition : Expr) (body : List Statement) (bodyPosition : Position) {update : Statement}
      (position : Position) (advances : update.canAdvance = true) :
      Shields (.ofStatement (.loop condition [.loopBody body bodyPosition, update] position))
  | counterLoop {initializer update : Statement} (condition : Expr) (body : List Statement)
      (position bodyPosition : Position) (initializes : initializer.canInitialize = true)
      (advances : update.canAdvance = true) :
      Shields (.ofStatement
        (.forLoop initializer condition update body position bodyPosition))

/-- A node as it can be read from a text. -/
structure Readable (code : Code) : Prop where
  proper : code.Proper
  shields : code.Shields

theorem ofStatement_notMem_ofExpr (expression : Expr) (statement : Statement) :
    .ofStatement statement ∉ (ofExpr expression).parts := by
  cases expression with
  | _ => simp [parts]

/-- An expression with nothing but operands can be read if these can. -/
theorem readable_ofExpr {expression : Expr} (proper : (ofExpr expression).Proper)
    (plain : (ofExpr expression).parts = expression.operands.map ofExpr)
    (operands : ∀ operand ∈ expression.operands, (ofExpr operand).Throughout Readable) :
    (ofExpr expression).Throughout Readable := by
  refine .intro ⟨proper, .plain fun _ member => absurd member (ofStatement_notMem_ofExpr _ _)⟩ ?_
  rw [plain]
  exact List.forall_mem_map.mpr operands

/-- A function that is written in an expression can be read if it can be as a procedure. -/
theorem readable_lambda {procedure : Procedure} (position : Position)
    (function : (ofProcedure procedure).Throughout Readable) :
    (ofExpr (.lambda procedure position)).Throughout Readable :=
  .intro ⟨trivial, .plain fun _ member => absurd member (ofStatement_notMem_ofExpr _ _)⟩
    (List.forall_mem_singleton.mpr function)

end Code

/-- A statement that can be read, and that can be written down as it is. -/
structure Statement.Readable (statement : Statement) : Prop where
  alone : statement.standsAlone = true
  throughout : (Code.ofStatement statement).Throughout Code.Readable

/-- A function can be read if its statements can. -/
theorem Procedure.readable {procedure : Procedure} (distinct : procedure.parameters.Nodup)
    (named : ∀ name ∈ procedure.parameters, IsName name)
    (body : ∀ statement ∈ procedure.body, statement.Readable) :
    (Code.ofProcedure procedure).Throughout Code.Readable := by
  refine .intro ⟨⟨distinct, named⟩, .plain fun statement member => ?_⟩ fun part member => ?_
  · obtain ⟨found, inside, same⟩ := List.mem_map.mp member
    cases same
    exact (body statement inside).alone
  · obtain ⟨found, inside, rfl⟩ := List.mem_map.mp member
    exact (body found inside).throughout

namespace Statement

/-- What stands below a statement can be read if its expressions and statements can. -/
theorem readable_parts {statement : Statement}
    (expressions : ∀ expression ∈ statement.expressions,
      (Code.ofExpr expression).Throughout Code.Readable)
    (inner : ∀ part ∈ statement.inner, (Code.ofStatement part).Throughout Code.Readable) :
    ∀ part ∈ (Code.ofStatement statement).parts, part.Throughout Code.Readable := by
  intro part member
  rcases List.mem_append.mp member with inExpressions | inInner
  · obtain ⟨expression, inside, rfl⟩ := List.mem_map.mp inExpressions
    exact expressions expression inside
  · obtain ⟨found, inside, rfl⟩ := List.mem_map.mp inInner
    exact inner found inside

theorem shields_of_alone {statement : Statement}
    (alone : ∀ part ∈ statement.inner, part.standsAlone = true) :
    (Code.ofStatement statement).Shields := by
  refine .plain fun part member => ?_
  rcases List.mem_append.mp member with inExpressions | inInner
  · obtain ⟨_, _, impossible⟩ := List.mem_map.mp inExpressions
    cases impossible
  · obtain ⟨found, inside, same⟩ := List.mem_map.mp inInner
    cases same
    exact alone part inside

/-- A statement can be read if what it is made of can. -/
theorem Readable.intro {statement : Statement} (proper : (Code.ofStatement statement).Proper)
    (unshielded : statement.isLoopBody = false)
    (expressions : ∀ expression ∈ statement.expressions,
      (Code.ofExpr expression).Throughout Code.Readable)
    (inner : ∀ part ∈ statement.inner, part.Readable) : statement.Readable where
  alone := by
    cases statement with
    | loopBody statements position => cases unshielded
    | loop condition body position =>
      refine List.all_eq_true.mpr fun part member => ?_
      rw [isLoopBody_of_standsAlone (inner part member).alone]
      rfl
    | _ => rfl
  throughout := .intro ⟨proper, shields_of_alone fun part member => (inner part member).alone⟩
    (readable_parts expressions fun part member => (inner part member).throughout)

/-- A loop over a counter can be read if what it is made of can. -/
theorem readable_forLoop {initializer update : Statement} {condition : Expr}
    {body : List Statement} (position bodyPosition : Position)
    (initializes : initializer.canInitialize = true) (advances : update.canAdvance = true)
    (start : initializer.Readable) (test : (Code.ofExpr condition).Throughout Code.Readable)
    (step : update.Readable) (inner : ∀ statement ∈ body, statement.Readable) :
    (forLoop initializer condition update body position bodyPosition).Readable where
  alone := rfl
  throughout := by
    have shielded : (Code.ofStatement (.loopBody body bodyPosition)).Throughout Code.Readable :=
      .intro ⟨trivial, shields_of_alone fun part member => (inner part member).alone⟩
        (readable_parts (List.forall_mem_nil _) fun part member => (inner part member).throughout)
    have round : (Code.ofStatement (.loop condition [.loopBody body bodyPosition, update]
        position)).Throughout Code.Readable :=
      .intro ⟨trivial, .round condition body bodyPosition position advances⟩
        (readable_parts (List.forall_mem_singleton.mpr test)
          (List.forall_mem_cons.mpr ⟨shielded, List.forall_mem_singleton.mpr step.throughout⟩))
    exact .intro
      ⟨trivial, .counterLoop condition body position bodyPosition initializes advances⟩
      (readable_parts (List.forall_mem_nil _)
        (List.forall_mem_cons.mpr ⟨start.throughout, List.forall_mem_singleton.mpr round⟩))

end Statement

/-! ### Phrases -/

namespace Grammar

/-- What a phrase stands for can be read. -/
def Phrase.Readable : (phrase : Phrase) → phrase.Tree → Prop
  | .block, tree => ∀ statement ∈ tree.statements, statement.Readable
  | .statement, tree => tree.Readable
  | .simple, tree => tree.Readable
  | .assignment, tree => tree.Readable
  | .branch, tree => tree.Readable
  | .alternative, tree => ∀ statement ∈ tree, Statement.Readable statement
  | .joined _, tree => (Code.ofExpr tree).Throughout Code.Readable
  | .operand _, tree => (Code.ofExpr tree).Throughout Code.Readable
  | .unary, tree => (Code.ofExpr tree).Throughout Code.Readable
  | .updated, tree => (Code.ofExpr tree).Throughout Code.Readable
  | .applied, tree => (Code.ofExpr tree).Throughout Code.Readable
  | .primary, tree => (Code.ofExpr tree).Throughout Code.Readable

theorem Separated.subset {α : Type} {pieces : List (Piece α)} {tokens : List Placed}
    (separated : Separated pieces tokens) : ∀ piece ∈ pieces, piece.tokens ⊆ tokens := by
  induction separated with
  | none => exact nofun
  | one only => exact List.forall_mem_singleton.mpr (List.Subset.refl _)
  | more first comma _ inductionHypothesis =>
    refine List.forall_mem_cons.mpr ⟨List.subset_append_left _ _, fun piece member => ?_⟩
    exact fun placed inside => List.mem_append_right _
      (List.mem_cons_of_mem _ (inductionHypothesis piece member inside))

/-- Parameters are names and differ. -/
theorem Parameters.named {tokens : List Placed} {names : List String}
    (parameters : Parameters tokens names) (named : Named tokens) :
    names.Nodup ∧ ∀ name ∈ names, IsName name := by
  cases parameters with
  | intro placedNames opened closed distinct separated =>
    refine ⟨distinct, fun name member => ?_⟩
    obtain ⟨placed, inside, rfl⟩ := List.mem_map.mp member
    have written := separated.subset (.ofName placed) (List.mem_map_of_mem inside)
      List.mem_cons_self
    exact named (Grammar.named placed.name placed.position) (by simp [written]) _ rfl

/-- The identifier at the front of an assignment is a name. -/
theorem isName_of_readable {name : String} {position : Position}
    (readable : (Code.ofExpr (.identifier name position)).Throughout Code.Readable) :
    IsName name :=
  (readable _ .refl).proper

/-- What a phrase stands for can be read if the identifiers among its tokens are names. -/
theorem Derives.readable {extending : Bool} {phrase : Phrase} {tokens : List Placed}
    {tree : phrase.Tree} (derived : Derives extending phrase tokens tree) (named : Named tokens) :
    phrase.Readable tree := by
  induction derived with
  | single _ inner => exact inner named
  | @join _ _ _ _ _ _ connective position _ _ _ first second =>
    have operands := List.forall_mem_cons.mpr
      ⟨first (named.mono (by simp)), List.forall_mem_singleton.mpr (second (named.mono (by simp)))⟩
    cases connective with
    | _ => exact Code.readable_ofExpr trivial rfl operands
  | tighter _ _ inner => exact inner named
  | tightest _ inner => exact inner named
  | @leading _ op _ _ position _ _ updatable inner =>
    have operand := List.forall_mem_singleton.mpr (inner (named.mono (by simp)))
    cases op with
    | update step yield => exact Code.readable_ofExpr (updatable step yield rfl) rfl operand
    | _ => exact Code.readable_ofExpr trivial rfl operand
  | unled _ inner => exact inner named
  | update position _ _ updatable inner =>
    have operand := List.forall_mem_singleton.mpr (inner (named.mono (by simp)))
    exact Code.readable_ofExpr updatable rfl operand
  | notUpdated _ inner => exact inner named
  | extended _ _ inner => exact inner named
  | call arguments position closed _ _ separated callee each =>
    refine Code.readable_ofExpr trivial rfl (List.forall_mem_cons.mpr
      ⟨callee (named.mono (by simp)), List.forall_mem_map.mpr fun piece member => ?_⟩)
    have inside := separated.subset piece member
    exact each piece member fun placed written => named placed (by simp [inside written])
  | index position closed _ _ target place =>
    refine Code.readable_ofExpr trivial rfl (List.forall_mem_cons.mpr
      ⟨target (named.mono (by simp)), List.forall_mem_singleton.mpr ?_⟩)
    exact place (named.mono fun _ written => by simp [written])
  | notApplied _ inner => exact inner named
  | literal literal position => exact Code.readable_ofExpr trivial rfl (List.forall_mem_nil _)
  | name name position =>
    have isName := named (Grammar.named name position) List.mem_cons_self name rfl
    exact Code.readable_ofExpr isName rfl (List.forall_mem_nil _)
  | parenthesized opened closed _ inner =>
    exact inner (named.mono fun _ written => by simp [written])
  | lambda position arrow parameters _ body =>
    obtain ⟨distinct, names⟩ :=
      parameters.named (named.mono fun _ written => by simp [written])
    exact Code.readable_lambda position (Procedure.readable distinct names
      (body (named.mono fun _ written => by simp [written])))
  | block statements position closed _ each =>
    refine List.forall_mem_map.mpr fun piece member => each piece member fun placed written => ?_
    exact named placed (by simp [joinTokens, List.mem_flatMap.mpr ⟨piece, member, written⟩])
  | evaluate _ inner =>
    exact .intro trivial rfl (List.forall_mem_singleton.mpr (inner named)) (List.forall_mem_nil _)
  | assign position sign _ _ target value =>
    refine .intro (isName_of_readable (target (named.mono (by simp)))) rfl
      (List.forall_mem_singleton.mpr (value (named.mono (by simp)))) (List.forall_mem_nil _)
  | compoundAssign position sign _ _ _ target value =>
    have assigned := target (named.mono (by simp))
    refine .intro (isName_of_readable assigned) rfl (List.forall_mem_singleton.mpr ?_)
      (List.forall_mem_nil _)
    exact Code.readable_ofExpr trivial rfl (List.forall_mem_cons.mpr
      ⟨assigned, List.forall_mem_singleton.mpr (value (named.mono (by simp)))⟩)
  | @declare _ _ name _ _ start position sign _ _ value =>
    have isName := named (Grammar.named name position) (by simp) name rfl
    refine .intro isName rfl (List.forall_mem_singleton.mpr (value ?_)) (List.forall_mem_nil _)
    exact named.mono fun _ written => by simp [written]
  | undeclared _ inner => exact inner named
  | simple semicolon _ inner => exact inner (named.mono (by simp))
  | nested _ inner => exact .intro trivial rfl (List.forall_mem_nil _) (inner named)
  | leave position semicolon =>
    exact .intro trivial rfl (List.forall_mem_nil _) (List.forall_mem_nil _)
  | leaveWith position semicolon _ value =>
    refine .intro trivial rfl (List.forall_mem_singleton.mpr (value ?_)) (List.forall_mem_nil _)
    exact named.mono fun _ written => by simp [written]
  | breakLoop position semicolon =>
    exact .intro trivial rfl (List.forall_mem_nil _) (List.forall_mem_nil _)
  | continueLoop position semicolon =>
    exact .intro trivial rfl (List.forall_mem_nil _) (List.forall_mem_nil _)
  | loop position opened closed _ _ test body =>
    refine .intro trivial rfl (List.forall_mem_singleton.mpr (test ?_)) (body ?_)
    · exact named.mono fun _ written => by simp [written]
    · exact named.mono fun _ written => by simp [written]
  | counterLoop position opened first second closed _ initializes _ _ advances _
      start test step body =>
    refine Statement.readable_forLoop position _ ((canInitialize_iff _).mpr initializes)
      ((canAdvance_iff _).mpr advances) (start ?_) (test ?_) (step ?_) (body ?_)
    · exact named.mono fun _ written => by simp [written]
    · exact named.mono fun _ written => by simp [written]
    · exact named.mono fun _ written => by simp [written]
    · exact named.mono fun _ written => by simp [written]
  | branch _ inner => exact inner named
  | branchAlone position opened closed _ _ test body =>
    refine .intro trivial rfl (List.forall_mem_singleton.mpr (test ?_))
      (List.forall_mem_append.mpr ⟨body ?_, List.forall_mem_nil _⟩)
    · exact named.mono fun _ written => by simp [written]
    · exact named.mono fun _ written => by simp [written]
  | branchElse position opened closed otherwise _ _ _ test body other =>
    refine .intro trivial rfl (List.forall_mem_singleton.mpr (test ?_))
      (List.forall_mem_append.mpr ⟨body ?_, other ?_⟩)
    · exact named.mono fun _ written => by simp [written]
    · exact named.mono fun _ written => by simp [written]
    · exact named.mono fun _ written => by simp [written]
  | chained _ inner => exact List.forall_mem_singleton.mpr (inner named)
  | unchained _ inner => exact inner named

theorem DerivesProcedure.readable {extending : Bool} {tokens : List Placed} {procedure : Procedure}
    (derived : DerivesProcedure extending tokens procedure) (named : Named tokens) :
    IsName procedure.name ∧ (Code.ofProcedure procedure).Throughout Code.Readable := by
  cases derived with
  | @intro _ _ name _ _ position place parameters body =>
    obtain ⟨distinct, names⟩ :=
      parameters.named (named.mono fun _ written => by simp [written])
    have inside := body.readable (named.mono fun _ written => by simp [written])
    exact ⟨named (Grammar.named name place) (by simp) name rfl,
      Procedure.readable distinct names inside⟩

end Grammar

/-! ### Programs -/

namespace Program

/-- All nodes of a program, at any depth, are as runs rely on. -/
structure WellFormed (program : Program) : Prop where
  distinct : (program.procedures.map Procedure.name).Nodup
  names : ∀ procedure ∈ program.procedures, IsName procedure.name
  parameters : ∀ procedure, program.Has (.ofProcedure procedure) →
    procedure.parameters.Nodup ∧ ∀ name ∈ procedure.parameters, IsName name
  declared : ∀ name value mutability position,
    program.Has (.ofStatement (.declare name value mutability position)) → IsName name
  assigned : ∀ name value position,
    program.Has (.ofStatement (.assign name value position)) → IsName name
  updated : ∀ step yield operand position,
    program.Has (.ofExpr (.unary (.update step yield) operand position)) →
    ∃ name place, operand = .identifier name place ∧ IsName name
  loopBodies : ∀ whole body bodyPosition, program.Has whole →
    .ofStatement (.loopBody body bodyPosition) ∈ whole.parts →
    ∃ condition update position,
      whole = .ofStatement (.loop condition [.loopBody body bodyPosition, update] position)
  counterLoops : ∀ whole condition statements position, program.Has whole →
    .ofStatement (.loop condition statements position) ∈ whole.parts →
    statements.any Statement.isLoopBody = true →
    ∃ initializer update body bodyPosition,
      initializer.canInitialize = true ∧ update.canAdvance = true ∧
      statements = [.loopBody body bodyPosition, update] ∧
      whole = .ofStatement (.forLoop initializer condition update body position bodyPosition)

theorem Has.part {program : Program} {whole part : Code} (has : program.Has whole)
    (member : part ∈ whole.parts) : program.Has part := by
  obtain ⟨procedure, inside, below⟩ := has
  exact ⟨procedure, inside, below.tail member⟩

end Program

namespace Code

variable {whole : Code}

/-- A shielded body stands in front of the other statement of a loop. -/
theorem Shields.loopBody (shields : whole.Shields) {body : List Statement} {bodyPosition : Position}
    (member : .ofStatement (.loopBody body bodyPosition) ∈ whole.parts) :
    ∃ condition update position,
      whole = .ofStatement (.loop condition [.loopBody body bodyPosition, update] position) := by
  cases shields with
  | plain alone => cases alone _ member
  | @round condition _ _ update position advances =>
    simp only [parts, Statement.expressions, Statement.inner, List.map_cons, List.map_nil,
      List.cons_append, List.nil_append, List.mem_cons, List.not_mem_nil, or_false, reduceCtorEq,
      false_or, ofStatement.injEq] at member
    rcases member with same | rfl
    · cases same
      exact ⟨condition, update, position, rfl⟩
    · cases advances
  | @counterLoop initializer update condition body position bodyPosition initializes advances =>
    simp only [parts, Statement.forLoop, Statement.expressions, Statement.inner, List.map_cons,
      List.map_nil, List.nil_append, List.mem_cons, List.not_mem_nil, or_false,
      ofStatement.injEq] at member
    rcases member with rfl | same
    · cases initializes
    · cases same

/-- A loop around a shielded body stands in the block of a loop over a counter. -/
theorem Shields.loop (shields : whole.Shields) {condition : Expr} {statements : List Statement}
    {position : Position}
    (member : .ofStatement (.loop condition statements position) ∈ whole.parts)
    (around : statements.any Statement.isLoopBody = true) :
    ∃ initializer update body bodyPosition,
      initializer.canInitialize = true ∧ update.canAdvance = true ∧
      statements = [.loopBody body bodyPosition, update] ∧
      whole = .ofStatement (.forLoop initializer condition update body position bodyPosition) := by
  cases shields with
  | plain alone =>
    obtain ⟨found, inside, isBody⟩ := List.any_eq_true.mp around
    have unshielded := List.all_eq_true.mp (alone _ member) found inside
    rw [isBody] at unshielded
    cases unshielded
  | @round condition _ _ update position advances =>
    simp only [parts, Statement.expressions, Statement.inner, List.map_cons, List.map_nil,
      List.cons_append, List.nil_append, List.mem_cons, List.not_mem_nil, or_false, reduceCtorEq,
      false_or, ofStatement.injEq] at member
    rw [← member] at advances
    cases advances
  | @counterLoop initializer update _ body _ bodyPosition initializes advances =>
    simp only [parts, Statement.forLoop, Statement.expressions, Statement.inner, List.map_cons,
      List.map_nil, List.nil_append, List.mem_cons, List.not_mem_nil, or_false,
      ofStatement.injEq] at member
    rcases member with rfl | same
    · cases initializes
    · cases same
      exact ⟨initializer, update, body, bodyPosition, initializes, advances, rfl, rfl⟩

end Code

/-- A program whose nodes can all be read is well formed. -/
theorem Program.WellFormed.of_readable {program : Program}
    (distinct : (program.procedures.map Procedure.name).Nodup)
    (names : ∀ procedure ∈ program.procedures, IsName procedure.name)
    (readable : ∀ code, program.Has code → code.Readable) : program.WellFormed where
  distinct := distinct
  names := names
  parameters procedure has := (readable _ has).proper
  declared name value mutability position has := (readable _ has).proper
  assigned name value position has := (readable _ has).proper
  updated step yield operand position has := by
    have isVariable : Grammar.Variable operand := (readable _ has).proper
    cases isVariable with
    | intro name place =>
      exact ⟨name, place, rfl, (readable _ (has.part List.mem_cons_self)).proper⟩
  loopBodies whole body bodyPosition has member := (readable _ has).shields.loopBody member
  counterLoops whole condition statements position has member around :=
    (readable _ has).shields.loop member around

/-- The program of a text is well formed. -/
theorem Program.wellFormed_ofText {source : String} {program : Program}
    (read : Program.ofText source = .ok program) : program.WellFormed := by
  unfold Program.ofText at read
  cases scanned : Token.scan source with
  | error fault =>
    rw [scanned] at read
    cases read
  | ok tokens =>
    rw [scanned] at read
    have named : Named (Grammar.beforeEnd tokens) :=
      (named_of_scan scanned).mono (List.takeWhile_subset _)
    have derived := Grammar.derives_of_ofTokens read
    generalize Grammar.beforeEnd tokens = before at named derived
    cases derived with
    | intro pieces derived distinct =>
      have each : ∀ procedure ∈ Grammar.trees pieces,
          IsName procedure.name ∧ (Code.ofProcedure procedure).Throughout Code.Readable := by
        refine List.forall_mem_map.mpr fun piece member => (derived piece member).readable ?_
        exact fun placed inside => named placed (List.mem_flatMap.mpr ⟨piece, member, inside⟩)
      refine .of_readable distinct (fun procedure member => (each procedure member).1) ?_
      rintro code ⟨procedure, member, below⟩
      exact (each procedure member).2 code below

/-- All code of a program. -/
def Program.codebase (program : Program) : Codebase where
  expressions expression := program.Has (.ofExpr expression)
  statements statement := program.Has (.ofStatement statement)
  procedures procedure := program.Has (.ofProcedure procedure)
  operand := by
    intro expression part has member
    refine has.part ?_
    cases expression with
    | lambda procedure position => cases member
    | _ => exact List.mem_map_of_mem member
  lambda has := has.part List.mem_cons_self
  expression has member := has.part (List.mem_append_left _ (List.mem_map_of_mem member))
  inner has member := has.part (List.mem_append_right _ (List.mem_map_of_mem member))
  body has member := has.part (List.mem_map_of_mem member)

/-- A run of a well-formed program does not end with the error of an update of something else than
a variable. -/
theorem Interpreter.run_updates_variables {config : Config} {sink : Sink}
    {runs : List (Nat × Program)} {budget : Nat} {program : Program} {error : RuntimeError}
    (wellFormed : program.WellFormed)
    (failed : (((new config sink).after runs).run budget program).outcome = .error (.fault error)) :
    error.fault ≠ .invalidAssignmentTarget := by
  intro same
  have failedAfresh : ((new config {}).run budget program).outcome = .error (.fault error) :=
    error_after failed fun details output => by cases same.symm.trans output
  have known : ∀ procedure ∈ program.procedures, program.codebase.procedures procedure :=
    fun procedure member => ⟨procedure, member, .refl⟩
  cases run_raises known failedAfresh with
  | ofData ofData =>
    rw [same] at ofData
    cases ofData
  | @misplaced _ jump _ _ _ =>
    cases jump with
    | _ => cases same
  | notVariable has other =>
    obtain ⟨name, place, rfl, -⟩ := wellFormed.updated _ _ _ _ has
    exact other (.intro name place)

/-- Every program that is read from a text is well formed. In it a name stands for the same
procedure whether it is looked up in the program or in a table made of it, and no run of it, with
any configuration and output and behind any other runs, ends with the error of an update of
something else than a variable. -/
theorem accepted_wellFormed (source : String) (program : Program)
    (read : Program.ofText source = .ok program) :
    program.WellFormed ∧
    (∀ identity scope name, program.procedure? name =
      ((ProcedureTable.build identity scope program.procedures).find? name).map
        Closure.procedure) ∧
    ∀ config sink runs budget error,
      (((Interpreter.new config sink).after runs).run budget program).outcome =
        .error (.fault error) →
      error.fault ≠ .invalidAssignmentTarget := by
  have wellFormed := Program.wellFormed_ofText read
  exact ⟨wellFormed, Program.procedure?_eq_find? wellFormed.distinct,
    fun _ _ _ _ _ failed => Interpreter.run_updates_variables wellFormed failed⟩

/-- A text with updates on both sides of their variables, one of them in a function inside the body
of a loop over a counter. -/
def updatingSource : String :=
  "proc main() { for (let i = 0; i < 2; i++) { twice(lam(f, x) -> { ++x; }); } } proc twice(f) { }"

/-- The text is that of a program, which has its two procedures and is well formed. -/
theorem accepted_wellFormed_updating :
    ∃ program, Program.ofText updatingSource = .ok program ∧
      program.procedures.map Procedure.name = ["main", "twice"] ∧ program.WellFormed ∧
      ∀ config sink runs budget error,
        (((Interpreter.new config sink).after runs).run budget program).outcome =
          .error (.fault error) →
        error.fault ≠ .invalidAssignmentTarget := by
  have names : (Program.ofText updatingSource).toOption.map
      (fun program => program.procedures.map Procedure.name) = some ["main", "twice"] := by
    decide +kernel
  obtain ⟨program, found, same⟩ := Option.map_eq_some_iff.mp names
  have read : Program.ofText updatingSource = .ok program := by
    cases outcome : Program.ofText updatingSource with
    | ok value =>
      rw [outcome] at found
      cases found
      rfl
    | error fault =>
      rw [outcome] at found
      cases found
  obtain ⟨wellFormed, -, runs⟩ := accepted_wellFormed updatingSource program read
  exact ⟨program, read, same, wellFormed, runs⟩

end Scriptlet
