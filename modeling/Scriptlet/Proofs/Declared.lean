/-
This file says which names statements declare in the scope they run in, and in which
scope a block runs a statement. A block is then a sequence of two steps for its first
statement, finding the scope and running the statement there, and the rest.
-/

import Scriptlet.Evaluation

namespace Scriptlet

/-- The name a statement declares in the scope it runs in. -/
def Statement.declaredName? : Statement → Option String
  | .declare name _ _ _ => some name
  | _ => none

/-- The names that statements declare in the scope they run in, those in nested blocks left
out. -/
def declaredNames (statements : List Statement) : List String :=
  statements.filterMap Statement.declaredName?

/-- The scope of a statement in a block: a scope of its own if it declares a name that the
block's scope has. -/
def Eval.scopeFor (statement : Statement) (scope : ScopeId) : Eval ScopeId :=
  match statement.declaredName? with
  | some name => scopeForDeclaration scope name
  | none => pure scope

theorem Eval.execBlock_cons (context : Context) (budget : Nat) (statement : Statement)
    (rest : List Statement) (scope : ScopeId) :
    execBlock context (budget + 1) (statement :: rest) scope = do
      let inner ← scopeFor statement scope
      match ← execStatement context budget statement inner with
      | .normal => execBlock context budget rest inner
      | signal => return signal := by
  cases statement <;> rw [execBlock.eq_def] <;> rfl

end Scriptlet
