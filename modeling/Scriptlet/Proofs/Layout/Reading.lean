/-
This file proves that readers pay no attention to places: on a token list without places
a reader does what it does on the list itself, up to places. Look-ahead is by token, so
the recipes of a goal and of its bare form take the same branch everywhere, and following
recipes that are alike is alike if the goals they turn to are.
-/

import Scriptlet.Proofs.Layout.Bare
import Scriptlet.Proofs.Recipe

namespace Scriptlet

namespace Parser

/-! ### Single tokens -/

/-- The next token is the same one, at no place. -/
theorem front_bare (tokens : List Placed) : front (bare tokens) = bare (front tokens) := by
  cases tokens <;> rfl

theorem alike_peek : Alike peek peek := by
  intro tokens
  rw [peek_apply, peek_apply, front_bare]

theorem alike_skip : Alike skip skip := by
  intro tokens
  rw [skip_apply, skip_apply, tail_bare]

/-- A fault is the same fault, at no place. -/
theorem alike_fail {α : Type} [Placing α] (fault : ParseFault) (position : Position) :
    Alike (fail fault position : Parser α) (fail fault .nowhere) :=
  AlikeBy.throw rfl

theorem alike_exhausted {α : Type} [Placing α] :
    Alike (exhausted : Parser α) exhausted :=
  AlikeBy.throw rfl

/-- Whether the end has come is told by the token, not by where it stands. -/
theorem alike_unexpected {α : Type} [Placing α] (found : Placed) (expected : Expected) :
    Alike (unexpected found expected : Parser α) (unexpected (bare found) expected) := by
  unfold unexpected
  simp only [token_bare, position_bare]
  split
  · exact alike_fail _ _
  · exact alike_fail _ _

theorem alike_advance (expected : Expected) : Alike (advance expected) (advance expected) := by
  refine alike_peek.bind fun found => alike_skip.bind fun _ => ?_
  simp only [token_bare, position_bare]
  split
  · exact alike_fail _ _
  · exact AlikeBy.pure rfl

theorem alike_expect (token : Token) (expected : Expected) :
    Alike (expect token expected) (expect token expected) := by
  refine (alike_advance expected).bind fun found => ?_
  simp only [token_bare, position_bare]
  split
  · exact AlikeBy.pure rfl
  · exact alike_unexpected found expected

theorem alike_expectSymbol (mark : Symbol) : Alike (expectSymbol mark) (expectSymbol mark) :=
  alike_expect _ _

/-! ### Names and lists -/

theorem alike_identifier : Alike identifier identifier := by
  refine (alike_advance .identifier).bind fun found => ?_
  simp only [token_bare, position_bare]
  split
  · exact AlikeBy.pure rfl
  · split
    · exact alike_fail _ _
    · exact alike_unexpected found .identifier

section

variable {α : Type} [Placing α] {item other : Parser α}

/-- Lists are read alike if their items are. -/
theorem alike_itemsToClose (alike : Alike item other) (bound : Nat) :
    Alike (itemsToClose item bound) (itemsToClose other bound) := by
  induction bound with
  | zero => exact alike_exhausted
  | succ bound inductionHypothesis =>
    refine alike.bind fun first => (alike_advance .commaOrClose).bind fun found => ?_
    simp only [token_bare, position_bare]
    split
    · exact AlikeBy.pure rfl
    · refine alike_peek.bind fun following => ?_
      simp only [token_bare]
      split
      · exact alike_fail _ _
      · exact inductionHypothesis.bind fun rest => AlikeBy.pure rfl
    · exact alike_unexpected found .commaOrClose

theorem alike_commaSeparated (alike : Alike item other) (bound : Nat) :
    Alike (commaSeparated item bound) (commaSeparated other bound) := by
  refine alike_peek.bind fun found => ?_
  simp only [token_bare]
  split
  · exact alike_skip.bind fun _ => AlikeBy.pure rfl
  · exact alike_itemsToClose alike bound

end

/-- Names are compared without their places, so the same one is found to be repeated. -/
theorem firstRepeated?_bare (seen : List String) (names : List PlacedName) :
    firstRepeated? seen (bare names) = bare (firstRepeated? seen names) := by
  induction names generalizing seen with
  | nil => rfl
  | cons first rest inductionHypothesis =>
    rw [bare_cons, firstRepeated?, firstRepeated?, name_bare, inductionHypothesis]
    split
    · rfl
    · rfl

theorem names_bare (names : List PlacedName) :
    (bare names).map PlacedName.name = names.map PlacedName.name :=
  List.map_map

/-- A list of parameters is refused for a repeated name wherever its names stand. -/
theorem alike_parameters (bound : Nat) : Alike (parameters bound) (parameters bound) := by
  refine (alike_expectSymbol .openParen).bind fun _ => ?_
  refine (alike_commaSeparated alike_identifier bound).bind fun names => ?_
  rw [firstRepeated?_bare, names_bare]
  cases firstRepeated? [] names with
  | some repeated => exact alike_fail _ _
  | none => exact AlikeBy.pure (bare_strings _)

/-! ### Goals -/

/-- A goal without places. Only an expression that has been read so far has any. -/
instance : Placing Goal where
  bare
    | .joinedTail level left => .joinedTail level (bare left)
    | .trailing target => .trailing (bare target)
    | goal => goal

/-- What a goal comes to, without places. -/
def Goal.bareTree : (goal : Goal) → goal.Tree → (bare goal).Tree
  | .expression => (bare : Expr → Expr)
  | .joined _ => (bare : Expr → Expr)
  | .joinedTail _ _ => (bare : Expr → Expr)
  | .operand _ => (bare : Expr → Expr)
  | .unary => (bare : Expr → Expr)
  | .primary => (bare : Expr → Expr)
  | .trailing _ => (bare : Expr → Expr)
  | .block => (bare : Block → Block)
  | .blockTail => (bare : List Statement → List Statement)
  | .statement => (bare : Statement → Statement)
  | .simpleStatement => (bare : Statement → Statement)
  | .declaration _ => (bare : Statement → Statement)
  | .assignment => (bare : Statement → Statement)
  | .leave => (bare : Statement → Statement)
  | .condition => (bare : Expr → Expr)
  | .loop => (bare : Statement → Statement)
  | .counterLoop => (bare : Statement → Statement)
  | .branch => (bare : Statement → Statement)
  | .alternative => (bare : List Statement → List Statement)
  | .procedures _ => (bare : List Procedure → List Procedure)

/-- What a list comes to, without places. -/
def Listed.bareItems : (listed : Listed) → listed.Items → listed.Items
  | .parameters => (bare : List String → List String)
  | .arguments => (bare : List Expr → List Expr)

/-! ### Recipes -/

namespace Recipe

/-- The second recipe does what the first one does, up to places. The change says how what the
first one comes to loses them. -/
inductive AlikeBy {α β : Type} (change : α → β) : Recipe α → Recipe β → Prop where
  | done {value : α} {other : β} : change value = other →
    AlikeBy change (.done value) (.done other)
  | fail (fault : ParseFault) (position : Position) :
    AlikeBy change (.fail fault position) (.fail fault .nowhere)
  | look {next : Placed → Recipe α} {following : Placed → Recipe β} :
    (∀ found, AlikeBy change (next found) (following (bare found))) →
    AlikeBy change (.look next) (.look following)
  | take {next : Recipe α} {following : Recipe β} : AlikeBy change next following →
    AlikeBy change (.take next) (.take following)
  | advance {expected : Expected} {next : Placed → Recipe α} {following : Placed → Recipe β} :
    (∀ found, AlikeBy change (next found) (following (bare found))) →
    AlikeBy change (.advance expected next) (.advance expected following)
  | read {goal : Goal} {next : goal.Tree → Recipe α} {following : (bare goal).Tree → Recipe β} :
    (∀ tree, AlikeBy change (next tree) (following (goal.bareTree tree))) →
    AlikeBy change (.read goal next) (.read (bare goal) following)
  | list {listed : Listed} {next : listed.Items → Recipe α}
      {following : listed.Items → Recipe β} :
    (∀ items, AlikeBy change (next items) (following (listed.bareItems items))) →
    AlikeBy change (.list listed next) (.list listed following)

namespace AlikeBy

variable {α β : Type} {change : α → β}

theorem unexpected (found : Placed) (expected : Expected) :
    AlikeBy change (.unexpected found expected) (.unexpected (bare found) expected) := by
  unfold Recipe.unexpected
  simp only [token_bare, position_bare]
  split
  · exact .fail _ _
  · exact .fail _ _

theorem expect {token : Token} {expected : Expected} {next : Position → Recipe α}
    {following : Position → Recipe β}
    (alike : ∀ position, AlikeBy change (next position) (following .nowhere)) :
    AlikeBy change (.expect token expected next) (.expect token expected following) := by
  refine .advance fun found => ?_
  simp only [token_bare, position_bare]
  split
  · exact alike found.position
  · exact .unexpected found expected

theorem expectSymbol {mark : Symbol} {next : Position → Recipe α} {following : Position → Recipe β}
    (alike : ∀ position, AlikeBy change (next position) (following .nowhere)) :
    AlikeBy change (.expectSymbol mark next) (.expectSymbol mark following) :=
  .expect alike

theorem expectKeyword {word : Keyword} {next : Position → Recipe α}
    {following : Position → Recipe β}
    (alike : ∀ position, AlikeBy change (next position) (following .nowhere)) :
    AlikeBy change (.expectKeyword word next) (.expectKeyword word following) :=
  .expect alike

theorem identifier {next : PlacedName → Recipe α} {following : PlacedName → Recipe β}
    (alike : ∀ name, AlikeBy change (next name) (following (bare name))) :
    AlikeBy change (.identifier next) (.identifier following) := by
  refine .advance fun found => ?_
  simp only [token_bare, position_bare]
  split
  · exact alike ⟨_, found.position⟩
  · split
    · exact .fail _ _
    · exact .unexpected found .identifier

/-- A goal that is read last. -/
theorem readLast {goal : Goal} {finish : goal.Tree → α} {finishBare : (bare goal).Tree → β}
    (same : ∀ tree, change (finish tree) = finishBare (goal.bareTree tree)) :
    AlikeBy change (.read goal fun tree => .done (finish tree))
      (.read (bare goal) fun tree => .done (finishBare tree)) :=
  .read fun tree => .done (same tree)

/-- A check that does not depend on places. -/
theorem check {refused : Prop} [Decidable refused] {fault : ParseFault} {position : Position}
    {next : Recipe α} {following : Recipe β} (alike : AlikeBy change next following) :
    AlikeBy change (if refused then .fail fault position else next)
      (if refused then .fail fault .nowhere else following) := by
  split
  · exact .fail fault position
  · exact alike

/-- Following recipes that are alike is alike, if the goals and lists they turn to are. -/
theorem run {recipe : Recipe α} {other : Recipe β} (alike : AlikeBy change recipe other)
    {bound : Nat}
    (goals : ∀ goal : Goal,
      Scriptlet.AlikeBy goal.bareTree (goal.reader bound) ((bare goal).reader bound))
    (lists : ∀ listed : Listed,
      Scriptlet.AlikeBy listed.bareItems (listed.reader bound) (listed.reader bound)) :
    Scriptlet.AlikeBy change (recipe.run bound) (other.run bound) := by
  induction alike with
  | done same => exact .pure same
  | fail fault position => exact .throw rfl
  | look _ inductionHypothesis => exact alike_peek.bind inductionHypothesis
  | take _ inductionHypothesis => exact alike_skip.bind fun _ => inductionHypothesis
  | advance _ inductionHypothesis => exact (alike_advance _).bind inductionHypothesis
  | read _ inductionHypothesis => exact (goals _).bind inductionHypothesis
  | list _ inductionHypothesis => exact (lists _).bind inductionHypothesis

end AlikeBy

end Recipe

/-! ### The recipes of goals -/

/-- What an operator joins loses the place of the operator as well. -/
theorem bare_join (connective : Connective) (left right : Expr) (position : Position) :
    bare (connective.join left right position) =
      connective.join (bare left) (bare right) .nowhere := by
  cases connective <;> rfl

@[simp] theorem isVariable_bare (operand : Expr) :
    isVariable (bare operand) = isVariable operand := by
  cases operand <;> rfl

@[simp] theorem isUpdate_bare (statement : Statement) :
    (bare statement).isUpdate = statement.isUpdate := by
  cases statement with
  | evaluate expression position =>
    cases expression with
    | unary op operand place => cases op <;> rfl
    | _ => rfl
  | leave value position => cases value <;> rfl
  | branch condition thenBranch elseBranch position => cases elseBranch <;> rfl
  | _ => rfl

/-- A statement may close a round of a loop wherever it stands. -/
@[simp] theorem canAdvance_bare (statement : Statement) :
    (bare statement).canAdvance = statement.canAdvance := by
  have updates := isUpdate_bare statement
  cases statement with
  | assign name value position => rfl
  | leave value position => cases value <;> rfl
  | branch condition thenBranch elseBranch position => cases elseBranch <;> rfl
  | _ => exact updates

/-- A statement may open a loop wherever it stands. -/
@[simp] theorem canInitialize_bare (statement : Statement) :
    (bare statement).canInitialize = statement.canInitialize := by
  have updates := isUpdate_bare statement
  cases statement with
  | declare name value mutability position => rfl
  | assign name value position => rfl
  | leave value position => cases value <;> rfl
  | branch condition thenBranch elseBranch position => cases elseBranch <;> rfl
  | _ => exact updates

namespace Goal

/-- The recipe of a goal is that of its bare form, up to places. -/
def RecipeAlike (goal : Goal) : Prop :=
  goal.recipe.AlikeBy goal.bareTree (bare goal).recipe

/-- The expression that was read so far comes into the goal without its places. -/
theorem joinedTail_alike (level : Level) (left : Expr) : RecipeAlike (.joinedTail level left) := by
  refine .look fun found => ?_
  simp only [token_bare, position_bare]
  split
  · exact .done rfl
  · rename_i connective _
    refine .take <| .read fun right => ?_
    show Recipe.AlikeBy _ _ (.read (.joinedTail level
      (connective.join (bare left) (bare right) .nowhere)) .done)
    rw [← bare_join]
    exact .readLast fun _ => rfl

theorem operand_alike (level : Level) : RecipeAlike (.operand level) := by
  show Recipe.AlikeBy _ (recipe (.operand level)) (recipe (.operand level))
  rw [recipe]
  split
  · exact .readLast fun _ => rfl
  · exact .readLast fun _ => rfl

/-- Only variables are updated, and a variable is one without its place. -/
theorem applyLeading_alike (op : UnaryOp) (operand : Expr) (position : Position) :
    Recipe.AlikeBy bare (.applyLeading op operand position)
      (.applyLeading op (bare operand) .nowhere) := by
  cases op with
  | update step yield =>
    unfold Recipe.applyLeading
    simp only [isVariable_bare]
    split
    · exact .done rfl
    · exact .fail _ _
  | _ => exact .done rfl

theorem unary_alike : RecipeAlike .unary := by
  refine .look fun found => ?_
  simp only [token_bare, position_bare]
  split
  · exact .take <| .read fun operand => applyLeading_alike _ operand found.position
  · exact .read fun first => .readLast fun _ => rfl

/-- A lambda keeps the names of its parameters; all else in it may have places. -/
theorem primary_alike : RecipeAlike .primary := by
  refine .look fun found => ?_
  simp only [token_bare, position_bare]
  split
  · exact .take <| .done rfl
  · exact .take <| .read fun inner => .expectSymbol fun _ => .done rfl
  · refine .take <| .list fun names => .expectSymbol fun _ => .readLast fun body => ?_
    show bare (Expr.lambda _ _) = _
    rw [bare_lambda, bare_procedure]
    show _ = Expr.lambda ⟨_, bare names, _, _⟩ _
    rw [bare_strings]
    rfl
  · split
    · exact .take <| .done rfl
    · exact .unexpected found .expression

theorem trailingUpdate_alike (step : Step) (operand : Expr) (position : Position) :
    Recipe.AlikeBy bare (.trailingUpdate step operand position)
      (.trailingUpdate step (bare operand) .nowhere) := by
  unfold Recipe.trailingUpdate
  rw [isVariable_bare]
  split
  · exact .take <| .done rfl
  · exact .fail _ _

/-- What is called or indexed goes into the next goal, with the place of the bracket. -/
theorem trailing_alike (target : Expr) : RecipeAlike (.trailing target) := by
  refine .look fun found => ?_
  simp only [token_bare, position_bare]
  split
  · refine .take <| .list fun arguments => ?_
    show Recipe.AlikeBy _ _
      (.read (.trailing (.call (bare target) (bare arguments) .nowhere)) .done)
    rw [← bare_call found.position]
    exact .readLast fun _ => rfl
  · refine .take <| .read fun index => .expectSymbol fun _ => ?_
    show Recipe.AlikeBy _ _ (.read (.trailing (.index (bare target) (bare index) .nowhere)) .done)
    rw [← bare_index found.position]
    exact .readLast fun _ => rfl
  · exact trailingUpdate_alike .increment target found.position
  · exact trailingUpdate_alike .decrement target found.position
  · exact .done rfl

theorem block_alike : RecipeAlike .block := by
  refine .advance fun found => ?_
  simp only [token_bare, position_bare]
  split
  · exact .readLast fun _ => rfl
  · exact .fail _ _

theorem blockTail_alike : RecipeAlike .blockTail := by
  refine .look fun found => ?_
  simp only [token_bare, position_bare]
  split
  · exact .take <| .done rfl
  · exact .fail _ _
  · exact .read fun first => .readLast fun _ => rfl

theorem statement_alike : RecipeAlike .statement := by
  refine .look fun found => ?_
  simp only [token_bare, position_bare]
  split
  · exact .readLast fun _ => rfl
  · exact .readLast fun _ => rfl
  · exact .readLast fun _ => rfl
  · exact .readLast fun body => bare_block _ _
  · exact .readLast fun _ => rfl
  · exact .take <| .expectSymbol fun _ => .done rfl
  · exact .take <| .expectSymbol fun _ => .done rfl
  · exact .read fun simple => .expectSymbol fun _ => .done rfl

theorem simpleStatement_alike : RecipeAlike .simpleStatement := by
  refine .look fun found => ?_
  simp only [token_bare]
  split
  · exact .readLast fun _ => rfl
  · exact .readLast fun _ => rfl
  · exact .readLast fun _ => rfl

theorem declaration_alike (mutability : Mutability) : RecipeAlike (.declaration mutability) :=
  .take <| .identifier fun _ => .expectSymbol fun _ => .readLast fun _ => rfl

/-- What is assigned to a name, whichever way. -/
theorem assigned_alike (target : Expr) (place : Position)
    {assigning other : String → Position → Expr → Statement}
    (same : ∀ name position value,
      bare (assigning name position value) = other name .nowhere (bare value)) :
    Recipe.AlikeBy bare (.assigned assigning target place)
      (.assigned other (bare target) .nowhere) := by
  refine .take ?_
  cases target with
  | identifier name position => exact .readLast fun value => same name position value
  | _ => exact .fail _ _

theorem assignment_alike : RecipeAlike .assignment := by
  refine .look fun first => .read fun target => .look fun sign => ?_
  simp only [token_bare, position_bare]
  split
  · exact assigned_alike target sign.position fun _ _ _ => rfl
  · split
    · exact assigned_alike target sign.position fun _ _ _ => rfl
    · exact .done rfl

theorem leave_alike : RecipeAlike .leave := by
  refine .expectKeyword fun position => .look fun found => ?_
  simp only [token_bare]
  split
  · exact .take <| .done rfl
  · exact .read fun value => .expectSymbol fun _ => .done rfl

theorem condition_alike : RecipeAlike .condition :=
  .expectSymbol fun _ => .read fun _ => .expectSymbol fun _ => .done rfl

theorem loop_alike : RecipeAlike .loop :=
  .expectKeyword fun _ => .read fun _ => .readLast fun _ => bare_loop _ _ _

/-- Both checks of a header look at what kind of statement was read. -/
theorem header_alike (position : Position) :
    Recipe.AlikeBy bare (.header position) (.header .nowhere) := by
  refine .read fun initializer => ?_
  show Recipe.AlikeBy _ _ (if !(bare initializer).canInitialize then
    .fail .invalidForInitializer (bare initializer).position else _)
  rw [canInitialize_bare, Statement.position_bare]
  refine .check <| .expectSymbol fun _ => .read fun test => .expectSymbol fun _ =>
    .read fun update => ?_
  show Recipe.AlikeBy _ _ (if !(bare update).canAdvance then
    .fail .invalidForUpdate (bare update).position else _)
  rw [canAdvance_bare, Statement.position_bare]
  refine .check <| .expectSymbol fun _ => .readLast fun body => ?_
  simp only [Statement.forLoop, bare_block, bare_cons, bare_nil, bare_loop, bare_loopBody]
  rfl

theorem counterLoop_alike : RecipeAlike .counterLoop :=
  .expectKeyword fun position => .expectSymbol fun _ => header_alike position

theorem branch_alike : RecipeAlike .branch := by
  refine .expectKeyword fun position => .read fun test => .read fun body => .look fun found => ?_
  simp only [token_bare]
  split
  · exact .take <| .readLast fun other => bare_branch _ _ _ _
  · exact .done (bare_branch _ _ _ _)

theorem alternative_alike : RecipeAlike .alternative := by
  refine .look fun found => ?_
  simp only [token_bare]
  split
  · exact .readLast fun _ => rfl
  · exact .readLast fun _ => rfl

/-- Names of procedures are compared without their places. -/
theorem procedures_alike (defined : List String) : RecipeAlike (.procedures defined) := by
  refine .look fun found => ?_
  simp only [token_bare]
  split
  · exact .done rfl
  · refine .expectKeyword fun position => .identifier fun name => .check ?_
    refine .list fun names => .read fun body => .readLast fun rest => ?_
    show bare (Procedure.mk _ _ _ _ :: rest) = _
    rw [bare_cons, bare_procedure]
    show _ = Procedure.mk _ (bare names) _ _ :: _
    rw [bare_strings]
    rfl
  · exact .unexpected found _

/-- The recipes take the same branch everywhere, since they branch on tokens only. -/
theorem recipeAlike (goal : Goal) : goal.RecipeAlike := by
  cases goal with
  | expression => exact .readLast fun _ => rfl
  | joined level => exact .read fun left => .readLast fun _ => rfl
  | joinedTail level left => exact joinedTail_alike level left
  | operand level => exact operand_alike level
  | unary => exact unary_alike
  | primary => exact primary_alike
  | trailing target => exact trailing_alike target
  | block => exact block_alike
  | blockTail => exact blockTail_alike
  | statement => exact statement_alike
  | simpleStatement => exact simpleStatement_alike
  | declaration mutability => exact declaration_alike mutability
  | assignment => exact assignment_alike
  | leave => exact leave_alike
  | condition => exact condition_alike
  | loop => exact loop_alike
  | counterLoop => exact counterLoop_alike
  | branch => exact branch_alike
  | alternative => exact alternative_alike
  | procedures defined => exact procedures_alike defined

/-- Readers pay no attention to places, whatever their bound is. -/
theorem alike (bound : Nat) (goal : Goal) :
    AlikeBy goal.bareTree (goal.reader bound) ((bare goal).reader bound) := by
  induction bound generalizing goal with
  | zero =>
    rw [goal.reader_zero, (bare goal).reader_zero]
    exact .throw rfl
  | succ bound inductionHypothesis =>
    rw [goal.reader_succ, (bare goal).reader_succ]
    refine goal.recipeAlike.run inductionHypothesis fun listed => ?_
    cases listed with
    | parameters => exact alike_parameters bound
    | arguments => exact alike_commaSeparated (inductionHypothesis .expression) bound

end Goal

/-- A program is read by one goal. -/
theorem alike_program (bound : Nat) : Alike (program bound) (program bound) := by
  have alike : Alike (procedures bound []) (procedures bound []) :=
    Goal.alike bound (.procedures [])
  exact alike.bind fun _ => AlikeBy.pure rfl

end Parser

/-- The program of a token list without places is that of the list, up to places. -/
theorem Program.ofTokens_bare (tokens : List Placed) :
    Program.ofTokens (bare tokens) = bare (Program.ofTokens tokens) := by
  have sameBound : Parser.boundFor (bare tokens) = Parser.boundFor tokens := by
    rw [Parser.boundFor, Parser.boundFor, length_bare]
  have alike := Parser.alike_program (Parser.boundFor tokens) tokens
  unfold Program.ofTokens Parser.read
  simp only [EStateM.run, sameBound, alike]
  cases Parser.program (Parser.boundFor tokens) tokens with
  | ok value rest => rfl
  | error stop rest => cases stop <;> rfl

end Scriptlet
