/-
This file forgets places. Tokens, trees, values and everything that holds them have a
bare form, in which every place is the one that stands for no token. Two things are the
same up to places if their bare forms are equal. A step is alike to another one if it
does to bare states what the other one does, up to places; steps made of alike steps are
alike.
-/

import Scriptlet.Machine
import Scriptlet.Parser.Phrase
import Scriptlet.Proofs.Steps

namespace Scriptlet

/-- Things that may hold places, and how the places are forgotten. -/
class Placing (α : Type) where
  bare : α → α

export Placing (bare)

/-! ### Plain data -/

instance : Placing Unit := ⟨id⟩
instance : Placing Bool := ⟨id⟩
instance : Placing Nat := ⟨id⟩
instance : Placing String := ⟨id⟩
instance : Placing Position := ⟨fun _ => .nowhere⟩
instance {α : Type} [Placing α] : Placing (List α) := ⟨List.map bare⟩
instance {α : Type} [Placing α] : Placing (Option α) := ⟨Option.map bare⟩
instance {α β : Type} [Placing α] [Placing β] : Placing (α × β) := ⟨Prod.map bare bare⟩

@[simp] theorem bare_nil {α : Type} [Placing α] : bare ([] : List α) = [] := rfl

@[simp] theorem bare_cons {α : Type} [Placing α] (first : α) (rest : List α) :
    bare (first :: rest) = bare first :: bare rest := rfl

@[simp] theorem bare_none {α : Type} [Placing α] : bare (none : Option α) = none := rfl

@[simp] theorem bare_some {α : Type} [Placing α] (value : α) :
    bare (some value) = some (bare value) := rfl

@[simp] theorem bare_append {α : Type} [Placing α] (left right : List α) :
    bare (left ++ right) = bare left ++ bare right :=
  List.map_append

@[simp] theorem length_bare {α : Type} [Placing α] (items : List α) :
    (bare items).length = items.length :=
  List.length_map bare

@[simp] theorem tail_bare {α : Type} [Placing α] (items : List α) :
    (bare items).tail = bare items.tail := by
  cases items <;> rfl

/-- Texts hold no places. -/
@[simp] theorem bare_strings (texts : List String) : bare texts = texts :=
  List.map_id texts

@[simp] theorem bare_bool (truth : Bool) : bare truth = truth := rfl

/-! ### Tokens -/

instance : Placing Placed := ⟨fun placed => ⟨placed.token, .nowhere⟩⟩
instance : Placing Parser.PlacedName := ⟨fun name => ⟨name.name, .nowhere⟩⟩

/-- What a token is stays; where it stands is forgotten. -/
@[simp] theorem token_bare (placed : Placed) : (bare placed).token = placed.token := rfl

@[simp] theorem position_bare (placed : Placed) : (bare placed).position = .nowhere := rfl

@[simp] theorem name_bare (name : Parser.PlacedName) : (bare name).name = name.name := rfl

/-- Token lists are the same up to places if their tokens are. -/
theorem bare_eq_bare_iff (first second : List Placed) :
    bare first = bare second ↔ Placed.tokens first = Placed.tokens second := by
  have recover : ∀ placed : List Placed,
      bare placed = (Placed.tokens placed).map fun token => ⟨token, .nowhere⟩ := by
    intro placed
    rw [Placed.tokens, List.map_map]
    rfl
  constructor
  · intro same
    have tokens := congrArg Placed.tokens same
    have kept : ∀ placed : List Placed, Placed.tokens (bare placed) = Placed.tokens placed := by
      intro placed
      rw [Placed.tokens, Placed.tokens]
      exact List.map_map
    rw [kept, kept] at tokens
    exact tokens
  · intro same
    rw [recover, recover, same]

/-! ### Trees -/

mutual

/-- An expression without places. -/
def Expr.bare : Expr → Expr
  | .literal value _ => .literal value .nowhere
  | .identifier name _ => .identifier name .nowhere
  | .unary op operand _ => .unary op operand.bare .nowhere
  | .binary op left right _ => .binary op left.bare right.bare .nowhere
  | .logical op left right _ => .logical op left.bare right.bare .nowhere
  | .call callee arguments _ => .call callee.bare (bareExprs arguments) .nowhere
  | .lambda procedure _ => .lambda procedure.bare .nowhere
  | .index target index _ => .index target.bare index.bare .nowhere

/-- Expressions without places. -/
def bareExprs : List Expr → List Expr
  | [] => []
  | first :: rest => first.bare :: bareExprs rest

/-- A statement without places. -/
def Statement.bare : Statement → Statement
  | .declare name value mutability _ => .declare name value.bare mutability .nowhere
  | .assign name value _ => .assign name value.bare .nowhere
  | .leave none _ => .leave none .nowhere
  | .leave (some value) _ => .leave (some value.bare) .nowhere
  | .branch condition thenBranch none _ =>
    .branch condition.bare (bareStatements thenBranch) none .nowhere
  | .branch condition thenBranch (some elseBranch) _ =>
    .branch condition.bare (bareStatements thenBranch) (some (bareStatements elseBranch)) .nowhere
  | .loop condition body _ => .loop condition.bare (bareStatements body) .nowhere
  | .block statements _ => .block (bareStatements statements) .nowhere
  | .loopBody statements _ => .loopBody (bareStatements statements) .nowhere
  | .evaluate expression _ => .evaluate expression.bare .nowhere
  | .breakLoop _ => .breakLoop .nowhere
  | .continueLoop _ => .continueLoop .nowhere

/-- Statements without places. -/
def bareStatements : List Statement → List Statement
  | [] => []
  | first :: rest => first.bare :: bareStatements rest

/-- A procedure without places. -/
def Procedure.bare : Procedure → Procedure
  | ⟨name, parameters, body, _⟩ => ⟨name, parameters, bareStatements body, .nowhere⟩

end

instance : Placing Expr := ⟨Expr.bare⟩
instance : Placing Statement := ⟨Statement.bare⟩
instance : Placing Procedure := ⟨Procedure.bare⟩
instance : Placing Program := ⟨fun program => ⟨bare program.procedures⟩⟩
instance : Placing Parser.Block := ⟨fun block => ⟨bare block.statements, .nowhere⟩⟩

/-- Lists of expressions are made bare item by item. -/
theorem bareExprs_eq (expressions : List Expr) : bareExprs expressions = bare expressions := by
  induction expressions with
  | nil => rfl
  | cons first rest inductionHypothesis =>
    rw [bareExprs, inductionHypothesis]
    rfl

/-- Lists of statements are made bare item by item. -/
theorem bareStatements_eq (statements : List Statement) :
    bareStatements statements = bare statements := by
  induction statements with
  | nil => rfl
  | cons first rest inductionHypothesis =>
    rw [bareStatements, inductionHypothesis]
    rfl

section

variable (position : Position)

@[simp] theorem bare_literal (value : Literal) :
    bare (Expr.literal value position) = .literal value .nowhere := rfl

@[simp] theorem bare_identifier (name : String) :
    bare (Expr.identifier name position) = .identifier name .nowhere := rfl

@[simp] theorem bare_unary (op : UnaryOp) (operand : Expr) :
    bare (Expr.unary op operand position) = .unary op (bare operand) .nowhere := rfl

@[simp] theorem bare_binary (op : BinaryOp) (left right : Expr) :
    bare (Expr.binary op left right position) = .binary op (bare left) (bare right) .nowhere := rfl

@[simp] theorem bare_logical (op : LogicalOp) (left right : Expr) :
    bare (Expr.logical op left right position) = .logical op (bare left) (bare right) .nowhere := rfl

/-- A call is made bare in its callee and in its arguments. -/
@[simp] theorem bare_call (callee : Expr) (arguments : List Expr) :
    bare (Expr.call callee arguments position) = .call (bare callee) (bare arguments) .nowhere := by
  rw [← bareExprs_eq]
  rfl

@[simp] theorem bare_lambda (procedure : Procedure) :
    bare (Expr.lambda procedure position) = .lambda (bare procedure) .nowhere := rfl

@[simp] theorem bare_index (target index : Expr) :
    bare (Expr.index target index position) = .index (bare target) (bare index) .nowhere := rfl

@[simp] theorem bare_declare (name : String) (value : Expr) (mutability : Mutability) :
    bare (Statement.declare name value mutability position) =
      .declare name (bare value) mutability .nowhere := rfl

@[simp] theorem bare_assign (name : String) (value : Expr) :
    bare (Statement.assign name value position) = .assign name (bare value) .nowhere := rfl

@[simp] theorem bare_leave (value : Option Expr) :
    bare (Statement.leave value position) = .leave (bare value) .nowhere := by
  cases value <;> rfl

/-- Both branches of a conditional are made bare, the alternative only if there is one. -/
@[simp] theorem bare_branch (condition : Expr) (thenBranch : List Statement)
    (elseBranch : Option (List Statement)) :
    bare (Statement.branch condition thenBranch elseBranch position) =
      .branch (bare condition) (bare thenBranch) (bare elseBranch) .nowhere := by
  cases elseBranch with
  | none =>
    rw [← bareStatements_eq]
    rfl
  | some statements =>
    rw [bare_some, ← bareStatements_eq, ← bareStatements_eq]
    rfl

@[simp] theorem bare_loop (condition : Expr) (body : List Statement) :
    bare (Statement.loop condition body position) = .loop (bare condition) (bare body) .nowhere := by
  rw [← bareStatements_eq]
  rfl

@[simp] theorem bare_block (statements : List Statement) :
    bare (Statement.block statements position) = .block (bare statements) .nowhere := by
  rw [← bareStatements_eq]
  rfl

@[simp] theorem bare_loopBody (statements : List Statement) :
    bare (Statement.loopBody statements position) = .loopBody (bare statements) .nowhere := by
  rw [← bareStatements_eq]
  rfl

@[simp] theorem bare_evaluate (expression : Expr) :
    bare (Statement.evaluate expression position) = .evaluate (bare expression) .nowhere := rfl

@[simp] theorem bare_procedure (name : String) (parameters : List String) (body : List Statement) :
    bare (Procedure.mk name parameters body position) =
      ⟨name, parameters, bare body, .nowhere⟩ := by
  rw [← bareStatements_eq]
  rfl

end

/-- A bare expression has no place left. -/
@[simp] theorem Expr.position_bare (expression : Expr) :
    (Placing.bare expression).position = .nowhere := by
  cases expression <;> rfl

/-- A bare statement has no place left. -/
@[simp] theorem Statement.position_bare (statement : Statement) :
    (Placing.bare statement).position = .nowhere := by
  cases statement with
  | leave value position => rw [bare_leave]; rfl
  | branch condition thenBranch elseBranch position => rw [bare_branch]; rfl
  | _ => rfl

/-- Names are kept, so what a name finds is still found. -/
@[simp] theorem Procedure.name_bare (procedure : Procedure) :
    (Placing.bare procedure).name = procedure.name := by
  cases procedure
  rfl

@[simp] theorem Procedure.parameters_bare (procedure : Procedure) :
    (Placing.bare procedure).parameters = procedure.parameters := by
  cases procedure
  rfl

/-- The places in the body of a procedure are forgotten with its own. -/
@[simp] theorem Procedure.body_bare (procedure : Procedure) :
    (Placing.bare procedure).body = Placing.bare procedure.body := by
  cases procedure
  rw [bare_procedure]

@[simp] theorem Procedure.position_bare (procedure : Procedure) :
    (Placing.bare procedure).position = .nowhere := by
  cases procedure
  rfl

/-! ### Faults and results -/

instance : Placing ParseError := ⟨fun error => ⟨error.fault, .nowhere⟩⟩
instance : Placing RuntimeError := ⟨fun error => ⟨error.fault, bare error.position⟩⟩

/-- Why a reader stopped, without places. -/
instance : Placing Stop where
  bare
    | .fault error => .fault (bare error)
    | .exhausted => .exhausted

/-- Why a run was interrupted, without places. -/
instance : Placing Interrupt where
  bare
    | .fault error => .fault (bare error)
    | .exhausted => .exhausted

/-- A value or a reason, without places. -/
instance {ε α : Type} [Placing ε] [Placing α] : Placing (Except ε α) where
  bare
    | .ok value => .ok (bare value)
    | .error reason => .error (bare reason)

/-- What came of a step, without places. -/
instance {ε σ α : Type} [Placing ε] [Placing σ] [Placing α] : Placing (EStateM.Result ε σ α) where
  bare
    | .ok value state => .ok (bare value) (bare state)
    | .error reason state => .error (bare reason) (bare state)

/-! ### Steps -/

section

variable {ε σ α β γ δ : Type} [Placing ε] [Placing σ]

/-- The second step does to bare states what the first one does, up to places. The change says how
the values of the first one lose theirs. -/
def AlikeBy (change : α → β) (step : EStateM ε σ α) (other : EStateM ε σ β) : Prop :=
  ∀ state, other (bare state) =
    match step state with
    | .ok value state => .ok (change value) (bare state)
    | .error reason state => .error (bare reason) (bare state)

/-- The second step does to bare states what the first one does, up to places. -/
abbrev Alike [Placing α] (step other : EStateM ε σ α) : Prop :=
  AlikeBy bare step other

namespace AlikeBy

/-- A value is yielded alike if the change leads to the other one. -/
theorem pure {change : α → β} {value : α} {other : β} (same : change value = other) :
    AlikeBy change (Pure.pure value : EStateM ε σ α) (Pure.pure other) := by
  intro state
  rw [← same]
  rfl

/-- Sequences are alike if their parts are. The second part gets the changed value of the first. -/
theorem bind {change : α → β} {changeNext : γ → δ} {step : EStateM ε σ α} {other : EStateM ε σ β}
    {next : α → EStateM ε σ γ} {following : β → EStateM ε σ δ} (first : AlikeBy change step other)
    (rest : ∀ value, AlikeBy changeNext (next value) (following (change value))) :
    AlikeBy changeNext (step >>= next) (other >>= following) := by
  intro state
  have start := first state
  cases came : step state with
  | ok value middle =>
    rw [came] at start
    rw [EStateM.bind_of_ok came, EStateM.bind_of_ok start]
    exact rest value middle
  | error reason middle =>
    rw [came] at start
    rw [EStateM.bind_of_error came, EStateM.bind_of_error start]

/-- Reasons that are the same up to places stop steps alike. -/
theorem throw {change : α → β} {reason other : ε} (same : bare reason = other) :
    AlikeBy change (MonadExcept.throw reason : EStateM ε σ α) (MonadExcept.throw other) := by
  intro state
  rw [← same]
  rfl

end AlikeBy

end

end Scriptlet
