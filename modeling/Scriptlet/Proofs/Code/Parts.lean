/-
This file takes code apart. An expression is made of operands, a statement of expressions
and of the statements in its blocks. The functions of a program are its procedures and the
functions written as expressions, at any depth; each has its own jumps, and whether a loop
of the same function stands around a jump is part of what is recorded about it.

A codebase is a set of code that has the parts of all its code. What a run of a program
comes across stays in every codebase that has the procedures of the program.
-/

import Scriptlet.Proofs.CounterLoop

namespace Scriptlet

/-! ### Parts -/

/-- The expressions that an expression is made of. -/
def Expr.operands : Expr → List Expr
  | .unary _ operand _ => [operand]
  | .binary _ left right _ => [left, right]
  | .logical _ left right _ => [left, right]
  | .call callee arguments _ => callee :: arguments
  | .index target place _ => [target, place]
  | _ => []

/-- The expressions that a statement evaluates by itself. -/
def Statement.expressions : Statement → List Expr
  | .declare _ value _ _ => [value]
  | .assign _ value _ => [value]
  | .leave value _ => value.toList
  | .branch condition _ _ _ => [condition]
  | .loop condition _ _ => [condition]
  | .evaluate expression _ => [expression]
  | _ => []

/-- The statements in the blocks of a statement. -/
def Statement.inner : Statement → List Statement
  | .branch _ thenBranch elseBranch _ => thenBranch ++ elseBranch.getD []
  | .loop _ body _ => body
  | .block statements _ => statements
  | .loopBody statements _ => statements
  | _ => []

/-! ### Functions -/

mutual

/-- The functions that are written in an expression. -/
def Expr.functions : Expr → List Procedure
  | .literal _ _ => []
  | .identifier _ _ => []
  | .unary _ operand _ => operand.functions
  | .binary _ left right _ => left.functions ++ right.functions
  | .logical _ left right _ => left.functions ++ right.functions
  | .call callee arguments _ => callee.functions ++ exprFunctions arguments
  | .lambda procedure _ => procedure.functions
  | .index target index _ => target.functions ++ index.functions

/-- The functions that are written in expressions. -/
def exprFunctions : List Expr → List Procedure
  | [] => []
  | first :: rest => first.functions ++ exprFunctions rest

/-- The functions that are written in a statement. -/
def Statement.functions : Statement → List Procedure
  | .declare _ value _ _ => value.functions
  | .assign _ value _ => value.functions
  | .leave none _ => []
  | .leave (some value) _ => value.functions
  | .branch condition thenBranch none _ => condition.functions ++ statementFunctions thenBranch
  | .branch condition thenBranch (some elseBranch) _ =>
    condition.functions ++ (statementFunctions thenBranch ++ statementFunctions elseBranch)
  | .loop condition body _ => condition.functions ++ statementFunctions body
  | .block statements _ => statementFunctions statements
  | .loopBody statements _ => statementFunctions statements
  | .evaluate expression _ => expression.functions
  | .breakLoop _ => []
  | .continueLoop _ => []

/-- The functions that are written in statements. -/
def statementFunctions : List Statement → List Procedure
  | [] => []
  | first :: rest => first.functions ++ statementFunctions rest

/-- A procedure and the functions that are written in its body. -/
def Procedure.functions : Procedure → List Procedure
  | ⟨name, parameters, body, position⟩ =>
    ⟨name, parameters, body, position⟩ :: statementFunctions body

end

/-- The functions of a program: its procedures and all that are written in them. -/
def Program.functions (program : Program) : List Procedure :=
  program.procedures.flatMap Procedure.functions

theorem exprFunctions_eq (expressions : List Expr) :
    exprFunctions expressions = expressions.flatMap Expr.functions := by
  induction expressions with
  | nil => rfl
  | cons first rest inductionHypothesis =>
    rw [exprFunctions, inductionHypothesis, List.flatMap_cons]

theorem statementFunctions_eq (statements : List Statement) :
    statementFunctions statements = statements.flatMap Statement.functions := by
  induction statements with
  | nil => rfl
  | cons first rest inductionHypothesis =>
    rw [statementFunctions, inductionHypothesis, List.flatMap_cons]

theorem Procedure.functions_eq (procedure : Procedure) :
    procedure.functions = procedure :: procedure.body.flatMap Statement.functions := by
  cases procedure
  rw [Procedure.functions, statementFunctions_eq]

theorem Procedure.mem_functions (procedure : Procedure) : procedure ∈ procedure.functions := by
  rw [functions_eq]
  exact List.mem_cons_self

/-- An expression has the functions of its operands. -/
theorem Expr.functions_operands (expression : Expr) :
    expression.operands.flatMap Expr.functions ⊆ expression.functions := by
  cases expression with
  | lambda procedure position => exact List.nil_subset _
  | _ => simp [Expr.functions, operands, exprFunctions_eq]

theorem Statement.functions_eq (statement : Statement) :
    statement.functions =
      statement.expressions.flatMap Expr.functions ++
        statement.inner.flatMap Statement.functions := by
  cases statement with
  | leave value position =>
    cases value <;> simp [Statement.functions, expressions, inner]
  | branch condition thenBranch elseBranch position =>
    cases elseBranch <;>
      simp [Statement.functions, expressions, inner, statementFunctions_eq]
  | _ => simp [Statement.functions, expressions, inner, statementFunctions_eq]

/-! ### Jumps -/

/-- A jump in the body of a function, and what stands around it there. -/
structure JumpSite where
  jump : Jump
  position : Position
  inLoop : Bool
  inLoopBody : Bool

namespace JumpSite

/-- The site once a loop stands around it. -/
def enterLoop (site : JumpSite) : JumpSite := { site with inLoop := true }

/-- The site once a shielded body stands around it. -/
def enterLoopBody (site : JumpSite) : JumpSite := { site with inLoopBody := true }

/-- Whether something around a jump takes it up: a loop, and for a jump to the next round also a
shielded body. -/
def placed (site : JumpSite) : Bool :=
  match site.jump with
  | .leaveLoop => site.inLoop
  | .nextRound => site.inLoop || site.inLoopBody

end JumpSite

mutual

/-- The jumps in a statement, those in functions that are written in it left out. -/
def Statement.jumpSites : Statement → List JumpSite
  | .branch _ thenBranch none _ => statementJumpSites thenBranch
  | .branch _ thenBranch (some elseBranch) _ =>
    statementJumpSites thenBranch ++ statementJumpSites elseBranch
  | .loop _ body _ => (statementJumpSites body).map JumpSite.enterLoop
  | .block statements _ => statementJumpSites statements
  | .loopBody statements _ => (statementJumpSites statements).map JumpSite.enterLoopBody
  | .breakLoop position => [⟨.leaveLoop, position, false, false⟩]
  | .continueLoop position => [⟨.nextRound, position, false, false⟩]
  | _ => []

/-- The jumps in statements. -/
def statementJumpSites : List Statement → List JumpSite
  | [] => []
  | first :: rest => first.jumpSites ++ statementJumpSites rest

end

/-- The jumps in the body of a function. -/
def Procedure.jumpSites (procedure : Procedure) : List JumpSite :=
  statementJumpSites procedure.body

/-- Every jump of every function of a program has a loop around it that takes it up. -/
def Program.jumpsPlaced (program : Program) : Bool :=
  program.functions.all fun function => function.jumpSites.all JumpSite.placed

/-! ### Codebases -/

/-- Code that has the parts of all its code. -/
structure Codebase where
  expressions : Expr → Prop
  statements : Statement → Prop
  procedures : Procedure → Prop
  operand : ∀ {expression part}, expressions expression → part ∈ expression.operands →
    expressions part
  lambda : ∀ {procedure position}, expressions (.lambda procedure position) → procedures procedure
  expression : ∀ {statement part}, statements statement → part ∈ statement.expressions →
    expressions part
  inner : ∀ {statement part}, statements statement → part ∈ statement.inner → statements part
  body : ∀ {procedure part}, procedures procedure → part ∈ procedure.body → statements part

/-- The code whose functions are among the given ones. -/
def Codebase.ofFunctions (functions : List Procedure) : Codebase where
  expressions expression := expression.functions ⊆ functions
  statements statement := statement.functions ⊆ functions
  procedures procedure := procedure.functions ⊆ functions
  operand := by
    intro expression part known member function held
    exact known (expression.functions_operands (List.mem_flatMap.mpr ⟨part, member, held⟩))
  lambda known := known
  expression := by
    intro statement part known member
    rw [Statement.functions_eq] at known
    exact fun function held => known (List.mem_append_left _
      (List.mem_flatMap.mpr ⟨part, member, held⟩))
  inner := by
    intro statement part known member
    rw [Statement.functions_eq] at known
    exact fun function held => known (List.mem_append_right _
      (List.mem_flatMap.mpr ⟨part, member, held⟩))
  body := by
    intro procedure part known member
    rw [Procedure.functions_eq] at known
    exact fun function held => known (List.mem_cons_of_mem _
      (List.mem_flatMap.mpr ⟨part, member, held⟩))

end Scriptlet
