/-
This file proves that the tokens of a tree are a phrase of the grammar with this tree.
Places do not matter here, so all tokens and all nodes stand nowhere. An operand is a
primary expression, which may stand wherever an operand of any level may; an operation is
an expression of its level, and so an expression.
-/

import Scriptlet.Proofs.Grammar.Levels
import Scriptlet.Proofs.Grammar.Opening
import Scriptlet.Proofs.Layout.Bare
import Scriptlet.Proofs.Printing.Basic

namespace Scriptlet

open Grammar

/-- Tokens that stand nowhere. -/
def unplaced (tokens : List Token) : List Placed :=
  tokens.map fun token => ⟨token, .nowhere⟩

@[simp] theorem unplaced_nil : unplaced [] = [] := rfl

@[simp] theorem unplaced_cons (first : Token) (rest : List Token) :
    unplaced (first :: rest) = ⟨first, .nowhere⟩ :: unplaced rest := rfl

@[simp] theorem unplaced_append (front back : List Token) :
    unplaced (front ++ back) = unplaced front ++ unplaced back :=
  List.map_append

/-! ### Operators -/

theorem BinaryOp.symbol_mem (op : BinaryOp) :
    (op.symbol, Connective.binary op) ∈ operators (Connective.binary op).level := by
  cases op with
  | arithmetic operation => cases operation <;> decide
  | relation comparison => cases comparison <;> decide
  | _ => decide

theorem LogicalOp.symbol_mem (op : LogicalOp) :
    (op.symbol, Connective.logical op) ∈ operators (Connective.logical op).level := by
  cases op <;> decide

theorem Step.symbol_mem (step : Step) : (step.symbol, step) ∈ updates := by
  cases step <;> decide

theorem Mutability.word_mem (mutability : Mutability) :
    (mutability.word, mutability) ∈ declarators := by
  cases mutability <;> decide

/-! ### Parts of phrases -/

/-- An item of a list of trees as a piece of a phrase. -/
def pieceOf {α β : Type} (text : β → List Token) (tree : β → α) (item : β) : Piece α :=
  ⟨unplaced (text item), tree item⟩

theorem separated_withCommas {α β : Type} (text : β → List Token) (tree : β → α) (items : List β) :
    Separated (items.map (pieceOf text tree)) (unplaced (withCommas (items.map text))) := by
  induction items with
  | nil => exact .none
  | cons first rest inductionHypothesis =>
    cases rest with
    | nil => exact .one _
    | cons next others =>
      simp only [List.map_cons, withCommas, unplaced_append, unplaced_cons]
      exact .more (pieceOf text tree first) .nowhere inductionHypothesis

theorem trees_pieceOf {α β : Type} (text : β → List Token) (tree : β → α) (items : List β) :
    trees (items.map (pieceOf text tree)) = items.map tree := by
  rw [trees, List.map_map]
  rfl

theorem joinTokens_pieceOf {α β : Type} (text : β → List Token) (tree : β → α) (items : List β) :
    joinTokens (items.map (pieceOf text tree)) = unplaced (items.flatMap text) := by
  induction items with
  | nil => rfl
  | cons first rest inductionHypothesis =>
    rw [List.flatMap_cons, unplaced_append, ← inductionHypothesis]
    rfl

/-- A parameter list without repetitions. -/
theorem parameterTokens_derived {names : List String} (distinct : names.Nodup) :
    Parameters (unplaced (parameterTokens names)) names := by
  let placed : List Parser.PlacedName := names.map fun name => ⟨name, .nowhere⟩
  have same : placed.map Parser.PlacedName.name = names := by
    rw [List.map_map]
    exact List.map_id names
  have separated : Separated (placed.map Piece.ofName)
      (unplaced (withCommas (names.map fun name => [.identifier name]))) := by
    rw [List.map_map]
    exact separated_withCommas (fun name => [.identifier name])
      (fun name => (⟨name, .nowhere⟩ : Parser.PlacedName)) names
  have derived := Parameters.intro placed .nowhere .nowhere (by rw [same]; exact distinct) separated
  rw [same] at derived
  rw [parameterTokens, parenthesized, unplaced_append, unplaced_cons]
  exact derived

/-! ### Expressions -/

/-- The tokens of an expression are an expression with this tree. -/
def Expr.Written (expression : Expr) : Prop :=
  Derives false .expression (unplaced expression.tokens) (Placing.bare expression)

/-- An operand is a primary expression. -/
theorem operand_derived {operand : Expr} (written : operand.Written) :
    Derives false .primary (unplaced (asOperand operand operand.tokens)) (bare operand) := by
  have enclosed : Derives false .primary (unplaced (parenthesized operand.tokens))
      (bare operand) := by
    rw [parenthesized, unplaced_append, unplaced_cons]
    exact .parenthesized .nowhere .nowhere written
  cases operand with
  | literal value position => exact .literal value .nowhere
  | identifier name position => exact .name name .nowhere
  | _ => exact enclosed

/-- Any operator may join two operands, since all but names and literals stand in parentheses. -/
theorem joined_derived {connective : Connective} {symbol : Symbol} {left right : Expr}
    (member : (symbol, connective) ∈ operators connective.level)
    (first : left.Written) (second : right.Written) :
    Derives false .expression
      (unplaced (asOperand left left.tokens ++ .symbol symbol :: asOperand right right.tokens))
      (connective.join (bare left) (bare right) .nowhere) := by
  have leftOperand :=
    (operand_derived first).unary_of_primary.operand_of_unary connective.level
  have rightOperand :=
    (operand_derived second).unary_of_primary.operand_of_unary connective.level
  rw [unplaced_append, unplaced_cons]
  exact Derives.expression_of_joined (.join .nowhere (.single leftOperand) member rightOperand)

/-- Any operator may stand in front of an operand, if it is a variable where it is updated. -/
theorem leading_derived {symbol : Symbol} {op : UnaryOp} {operand : Expr}
    (member : (symbol, op) ∈ leadingOperators) (written : operand.Written)
    (updatable : ∀ step yield, op = .update step yield → Variable (bare operand)) :
    Derives false .expression (unplaced (.symbol symbol :: asOperand operand operand.tokens))
      (.unary op (bare operand) .nowhere) := by
  have inner := (operand_derived written).unary_of_primary
  exact Derives.expression_of_unary (.leading .nowhere member inner updatable)

theorem written_identifier (name : String) (position : Position) :
    (Expr.identifier name position).Written :=
  Derives.expression_of_unary (Derives.unary_of_primary (.name name .nowhere))

theorem written_update (step : Step) (yield : Yield) (name : String) (place position : Position) :
    (Expr.unary (.update step yield) (.identifier name place) position).Written := by
  have updatable : Variable (bare (Expr.identifier name place)) := .intro name .nowhere
  cases yield with
  | updated =>
    have member : (step.symbol, UnaryOp.update step .updated) ∈ leadingOperators := by
      cases step <;> decide
    exact leading_derived member (written_identifier name place) fun _ _ _ => updatable
  | previous =>
    have applied : Derives false .applied [named name .nowhere]
        (bare (Expr.identifier name place)) := .notApplied (.name name .nowhere)
    exact Derives.expression_of_unary (.unled (.update .nowhere applied step.symbol_mem updatable))

theorem written_call {callee : Expr} {arguments : List Expr} (position : Position)
    (first : callee.Written) (each : ∀ argument ∈ arguments, argument.Written) :
    (Expr.call callee arguments position).Written := by
  have derived : Derives false .applied _ _ :=
    .call (arguments.map (pieceOf Expr.tokens bare)) .nowhere .nowhere
      (.notApplied (operand_derived first))
      (fun piece member => by
        obtain ⟨argument, inside, rfl⟩ := List.mem_map.mp member
        exact each argument inside)
      (separated_withCommas Expr.tokens bare arguments)
  rw [trees_pieceOf, ← exprTokens_eq] at derived
  have whole := derived.expression_of_applied
  rw [List.append_assoc] at whole
  rw [Expr.Written, bare_call, Expr.tokens, parenthesized, unplaced_append, unplaced_append]
  exact whole

theorem written_index {target index : Expr} (position : Position)
    (first : target.Written) (second : index.Written) :
    (Expr.index target index position).Written := by
  have applied : Derives false .applied _ _ :=
    .index .nowhere .nowhere (.notApplied (operand_derived first)) second
  have whole := applied.expression_of_applied
  rw [Expr.Written, Expr.tokens, unplaced_append, unplaced_append]
  exact whole

/-! ### Statements -/

/-- The tokens of a statement are a statement with this tree. Where the statement is simple, they
are a phrase without the semicolon too. -/
structure Statement.Written (statement : Statement) : Prop where
  whole : Derives false .statement (unplaced statement.tokens) (Placing.bare statement)
  simple : statement.isSimple = true →
    Derives false .simple (unplaced statement.core) (Placing.bare statement)

namespace Statement.Written

variable {statement : Statement}

/-- A semicolon makes a statement of a simple phrase. -/
theorem of_simple (isSimple : statement.isSimple = true)
    (derived : Derives false .simple (unplaced statement.core) (Placing.bare statement)) :
    statement.Written where
  whole := by
    rw [tokens, terminated, if_pos isSimple, unplaced_append]
    exact .simple .nowhere derived
  simple _ := derived

theorem of_other (isOther : statement.isSimple = false)
    (derived : Derives false .statement (unplaced statement.core) (Placing.bare statement)) :
    statement.Written where
  whole := by
    rw [tokens, terminated, if_neg (by rw [isOther]; exact nofun)]
    exact derived
  simple isSimple := by
    rw [isOther] at isSimple
    cases isSimple

end Statement.Written

/-- Statements in braces are a block, if each of them is written as a statement. -/
theorem braced_derived {statements : List Statement}
    (each : ∀ statement ∈ statements, statement.Written) :
    Derives false .block (unplaced (braced (statementTokens statements)))
      ⟨bare statements, .nowhere⟩ := by
  have derived : Derives false .block _ _ :=
    .block (statements.map (pieceOf Statement.tokens bare)) .nowhere .nowhere
      fun piece member => by
        obtain ⟨statement, inside, rfl⟩ := List.mem_map.mp member
        exact (each statement inside).whole
  rw [joinTokens_pieceOf, trees_pieceOf, ← statementTokens_eq] at derived
  rw [braced, unplaced_append, unplaced_cons]
  exact derived

theorem written_lambda {parameters : List String} {body : List Statement}
    (place position : Position) (distinct : parameters.Nodup)
    (each : ∀ statement ∈ body, statement.Written) :
    (Expr.lambda ⟨Procedure.lambdaName, parameters, body, place⟩ position).Written := by
  have primary : Derives false .primary _ _ :=
    .lambda .nowhere .nowhere (parameterTokens_derived distinct) (braced_derived each)
  rw [Expr.Written, bare_lambda, bare_procedure, Expr.tokens, unplaced_append, unplaced_cons]
  exact primary.unary_of_primary.expression_of_unary

theorem written_declare (name : String) {value : Expr} (mutability : Mutability)
    (position : Position) (written : value.Written) :
    (Statement.declare name value mutability position).Written :=
  .of_simple rfl (.declare .nowhere .nowhere .nowhere mutability.word_mem written)

theorem written_assign (name : String) {value : Expr} (position : Position)
    (written : value.Written) : (Statement.assign name value position).Written :=
  .of_simple rfl
    (.undeclared (.assign .nowhere .nowhere (written_identifier name .nowhere) written))

theorem written_evaluate {expression : Expr} (position : Position) (written : expression.Written) :
    (Statement.evaluate expression position).Written := by
  refine .of_simple rfl (.undeclared ?_)
  -- The statement stands where its first token does, so there has to be one.
  obtain ⟨first, rest, filled⟩ := List.exists_cons_of_ne_nil (Derives.ne_nil written)
  have nowhere : first.position = .nowhere := by
    have member : first ∈ unplaced expression.tokens := by
      rw [filled]
      exact List.mem_cons_self
    obtain ⟨token, _, same⟩ := List.mem_map.mp member
    rw [← same]
  rw [bare_evaluate, Statement.core, filled, ← nowhere]
  unfold Expr.Written at written
  rw [filled] at written
  exact .evaluate written

theorem written_leaveWith {value : Expr} (position : Position) (written : value.Written) :
    (Statement.leave (some value) position).Written := by
  refine .of_other rfl ?_
  rw [bare_leave, Statement.core, unplaced_append]
  exact .leaveWith .nowhere .nowhere written

/-- A condition in parentheses and a block behind it. -/
theorem unplaced_headed (word : Keyword) (condition body : List Token) :
    unplaced (.keyword word :: parenthesized condition ++ body) =
      Grammar.word word .nowhere :: mark .openParen .nowhere :: unplaced condition ++
        mark .closeParen .nowhere :: unplaced body := by
  simp [parenthesized, Grammar.word, mark]

theorem written_loop {condition : Expr} {body : List Statement} (position : Position)
    (tested : condition.Written) (each : ∀ statement ∈ body, statement.Written) :
    (Statement.loop condition body position).Written := by
  refine .of_other rfl ?_
  rw [bare_loop, Statement.core, unplaced_headed]
  exact .loop .nowhere .nowhere .nowhere tested (braced_derived each)

theorem written_branchAlone {condition : Expr} {thenBranch : List Statement} (position : Position)
    (tested : condition.Written) (each : ∀ statement ∈ thenBranch, statement.Written) :
    (Statement.branch condition thenBranch none position).Written := by
  refine .of_other rfl (.branch ?_)
  rw [bare_branch, Statement.core, unplaced_headed]
  exact .branchAlone .nowhere .nowhere .nowhere tested (braced_derived each)

theorem written_branchElse {condition : Expr} {thenBranch elseBranch : List Statement}
    (position : Position) (tested : condition.Written)
    (each : ∀ statement ∈ thenBranch, statement.Written)
    (eachElse : ∀ statement ∈ elseBranch, statement.Written) :
    (Statement.branch condition thenBranch (some elseBranch) position).Written := by
  refine .of_other rfl (.branch ?_)
  rw [bare_branch, Statement.core, unplaced_append, unplaced_headed]
  exact .branchElse .nowhere .nowhere .nowhere .nowhere tested (braced_derived each)
    (.unchained (braced_derived eachElse))

theorem written_block {statements : List Statement} (position : Position)
    (shaped : ∀ statement ∈ statements, SourceShaped .statement statement)
    (each : ∀ statement ∈ statements, statement.Written) :
    (Statement.block statements position).Written := by
  refine .of_other rfl ?_
  rw [bare_block, core_block position shaped]
  exact .nested (braced_derived each)

/-! ### Loops over counters -/

theorem Grammar.Advances.bare {statement : Statement} (advances : Advances statement) :
    Advances (Placing.bare statement) := by
  cases advances with
  | assign name value position => exact .assign name _ .nowhere
  | update step yield operand place position => exact .update step yield _ .nowhere .nowhere

theorem Grammar.Initializes.bare {statement : Statement} (initializes : Initializes statement) :
    Initializes (Placing.bare statement) := by
  cases initializes with
  | declare name value mutability position => exact .declare name _ mutability .nowhere
  | advances advances => exact .advances advances.bare

theorem Grammar.Advances.isSimple {statement : Statement} (advances : Advances statement) :
    statement.isSimple = true := by
  cases advances <;> rfl

theorem Grammar.Initializes.isSimple {statement : Statement} (initializes : Initializes statement) :
    statement.isSimple = true := by
  cases initializes with
  | declare => rfl
  | advances advances => exact advances.isSimple

/-- What may close a round is no declaration. -/
theorem Grammar.Derives.assignment_of_advances {extending : Bool} {tokens : List Placed}
    {tree : Statement} (derived : Derives extending .simple tokens tree)
    (advances : Advances tree) : Derives extending .assignment tokens tree := by
  cases derived with
  | declare => cases advances
  | undeclared assignment => exact assignment

theorem written_counterLoop {initializer update : Statement} {condition : Expr}
    {body : List Statement} (bodyPlace loopPlace position : Position)
    (started : initializer.Written) (initializes : Initializes initializer)
    (tested : condition.Written) (each : ∀ statement ∈ body, statement.Written)
    (stepped : update.Written) (advances : Advances update) :
    (Statement.block [initializer, .loop condition [.loopBody body bodyPlace, update] loopPlace]
      position).Written := by
  refine .of_other rfl ?_
  have assignment := (stepped.simple advances.isSimple).assignment_of_advances advances.bare
  have derived : Derives false .statement _ _ :=
    .counterLoop .nowhere .nowhere .nowhere .nowhere .nowhere
      (started.simple initializes.isSimple) initializes.bare tested assignment advances.bare
      (braced_derived each)
  have regrouped : unplaced (.keyword .forWord ::
      parenthesized (initializer.core ++ .symbol .semicolon :: condition.tokens ++
        .symbol .semicolon :: update.core) ++ braced (statementTokens body)) =
      word .forWord .nowhere :: mark .openParen .nowhere :: unplaced initializer.core ++
        mark .semicolon .nowhere :: unplaced condition.tokens ++
        mark .semicolon .nowhere :: unplaced update.core ++
        mark .closeParen .nowhere :: unplaced (braced (statementTokens body)) := by
    simp [parenthesized, word, mark]
  rw [Statement.core, regrouped]
  simp only [bare_block, bare_cons, bare_nil, bare_loop, bare_loopBody]
  exact derived

/-! ### All trees -/

/-- What it means that a tree of either kind is written. -/
def TreeKind.Written : (kind : TreeKind) → kind.Tree → Prop
  | .expression, tree => tree.Written
  | .statement, tree => tree.Written

/-- Every tree of the shape that sources have is written. -/
theorem SourceShaped.written {kind : TreeKind} {tree : kind.Tree}
    (shaped : SourceShaped kind tree) : kind.Written tree := by
  induction shaped with
  | literal value position =>
    exact Derives.expression_of_unary (Derives.unary_of_primary (.literal value .nowhere))
  | identifier name position => exact written_identifier name position
  | negate position _ operand => exact leading_derived (by decide) operand nofun
  | not position _ operand => exact leading_derived (by decide) operand nofun
  | update step yield name place position => exact written_update step yield name place position
  | binary op position _ _ left right => exact joined_derived op.symbol_mem left right
  | logical op position _ _ left right => exact joined_derived op.symbol_mem left right
  | call position _ _ callee arguments => exact written_call position callee arguments
  | lambda place position distinct _ body => exact written_lambda place position distinct body
  | index position _ _ target index => exact written_index position target index
  | declare name mutability position _ value =>
    exact written_declare name mutability position value
  | assign name position _ value => exact written_assign name position value
  | leave position => exact .of_other rfl (.leave .nowhere .nowhere)
  | leaveWith position _ value => exact written_leaveWith position value
  | branchAlone position _ _ condition body => exact written_branchAlone position condition body
  | branchElse position _ _ _ condition body other =>
    exact written_branchElse position condition body other
  | loop position _ _ condition body => exact written_loop position condition body
  | block position statements each => exact written_block position statements each
  | counterLoop bodyPlace loopPlace position _ initializes _ _ _ advances initializer condition body
      update =>
    exact written_counterLoop bodyPlace loopPlace position initializer initializes condition body
      update advances
  | evaluate position _ expression => exact written_evaluate position expression
  | breakLoop position => exact .of_other rfl (.breakLoop .nowhere .nowhere)
  | continueLoop position => exact .of_other rfl (.continueLoop .nowhere .nowhere)

/-! ### Programs -/

theorem Procedure.SourceShaped.derived {procedure : Procedure} (shaped : procedure.SourceShaped) :
    DerivesProcedure false (unplaced procedure.tokens) (Placing.bare procedure) := by
  have parameters := parameterTokens_derived shaped.parameters
  have body := braced_derived fun statement member => (shaped.body statement member).written
  obtain ⟨name, names, statements, position⟩ := procedure
  rw [bare_procedure, Procedure.tokens, unplaced_append]
  exact .intro .nowhere .nowhere parameters body

theorem Program.SourceShaped.derived {program : Program} (shaped : program.SourceShaped) :
    DerivesProgram false (unplaced program.tokens) (Placing.bare program) := by
  have sameNames : (bare program.procedures).map Procedure.name =
      program.procedures.map Procedure.name := by
    show (program.procedures.map bare).map Procedure.name = _
    rw [List.map_map]
    exact List.map_congr_left fun procedure _ => procedure.name_bare
  have derived : DerivesProgram false _ _ :=
    .intro (program.procedures.map (pieceOf Procedure.tokens bare))
      (fun piece member => by
        obtain ⟨procedure, inside, rfl⟩ := List.mem_map.mp member
        exact (shaped.procedures procedure inside).derived)
      (by
        rw [trees_pieceOf]
        exact sameNames ▸ shaped.names)
  rw [joinTokens_pieceOf, trees_pieceOf] at derived
  exact derived

end Scriptlet
