/-
This file runs expressions and statements. All functions are defined together, by
recursion on a budget that bounds how deep the recursion goes; a loop spends one
unit on every round, so a budget bounds the rounds as well. A budget that is
large enough does not change what a run does.
-/

import Scriptlet.Machine

namespace Scriptlet.Eval

/-- The truth value that decides a logical operation without its right operand. -/
def decides : LogicalOp → Bool → Bool
  | .both, left => !left
  | .either, left => left

mutual

/-- The value of an expression in a scope. -/
def eval (context : Context) : Nat → Expr → ScopeId → Eval Value
  | 0, _, _ => exhausted
  | budget + 1, expression, scope =>
    match expression with
    | .literal value _ => return .ofLiteral value
    | .identifier name position => readName context scope name position
    | .unary (.update step yield) operand position =>
      match operand with
      | .identifier name namePosition => do
        let previous ← readName context scope name namePosition
        let updated ← resultAt position ((UnaryOp.update step yield).apply previous)
        assign context scope name updated position
        match yield with
        | .updated => return updated
        | .previous => return previous
      | _ => fail .invalidAssignmentTarget position
    | .unary op operand position => do
      let value ← eval context budget operand scope
      resultAt position (op.apply value)
    | .binary op left right position => do
      let first ← eval context budget left scope
      let second ← eval context budget right scope
      resultAt position (op.apply first second)
    | .logical op left right _ => do
      let first ← evalCondition context budget left scope
      if decides op first then return .bool first
      else return .bool (← evalCondition context budget right scope)
    | .call callee arguments position => evalCall context budget callee arguments position scope
    | .lambda procedure _ => newClosure procedure scope
    | .index target index position => do
      let container ← eval context budget target scope
      let place ← eval context budget index scope
      if container.isIndexable then
        match place with
        | .int number => resultAt position (container.element number)
        | other => fail (.expectedInteger other.type) index.position
      else fail (.notIndexable container.type) position

/-- The truth value of an expression that must have one. -/
def evalCondition (context : Context) : Nat → Expr → ScopeId → Eval Bool
  | 0, _, _ => exhausted
  | budget + 1, condition, scope => do
    let value ← eval context budget condition scope
    resultAt condition.position value.expectBool

/-- The values of expressions, from left to right. -/
def evalAll (context : Context) : Nat → List Expr → ScopeId → Eval (List Value)
  | 0, _, _ => exhausted
  | _ + 1, [], _ => return []
  | budget + 1, expression :: rest, scope => do
    let value ← eval context budget expression scope
    return value :: (← evalAll context budget rest scope)

/-- The value of a call. A name that is neither a variable nor a procedure may be a builtin. -/
def evalCall (context : Context) :
    Nat → Expr → List Expr → Position → ScopeId → Eval Value
  | 0, _, _, _, _ => exhausted
  | budget + 1, callee, arguments, position, scope => do
    match callee with
    | .identifier name namePosition =>
      match ← lookup? context scope name with
      | some function =>
        let values ← evalAll context budget arguments scope
        callValue context budget function values position
      | none =>
        match Builtin.ofName? name with
        | none => fail (.undefinedVariable name) namePosition
        | some builtin =>
          let values ← evalAll context budget arguments scope
          callBuiltin builtin values position
    | _ =>
      let function ← eval context budget callee scope
      let values ← evalAll context budget arguments scope
      callValue context budget function values position

/-- Calls a value, which must be a function. -/
def callValue (context : Context) : Nat → Value → List Value → Position → Eval Value
  | 0, _, _, _ => exhausted
  | budget + 1, function, arguments, position =>
    match function with
    | .function closure => callClosure context budget closure arguments position
    | other => fail (.notCallable other.type) position

/-- Calls a function. Its body runs in a scope of its own, inside the scope it was made in. -/
def callClosure (context : Context) : Nat → Closure → List Value → Position → Eval Value
  | 0, _, _, _ => exhausted
  | budget + 1, closure, arguments, position => do
    let procedure := closure.procedure
    if arguments.length ≠ procedure.arity then
      fail (.arityMismatch procedure.name procedure.arity arguments.length) position
    else if context.maxDepth ≤ (← get).depth then
      failNowhere (.stackOverflow context.maxDepth)
    else
      let scope ← newChild closure.scope
      defineAll scope (procedure.parameters.zip arguments)
      let signal ← deeper (execBlock context budget procedure.body scope)
      callResult signal

/-- Runs statements one after the other, up to the first that does not end normally. A
declaration of a name that the scope has already opens a new scope for the rest. -/
def execBlock (context : Context) : Nat → List Statement → ScopeId → Eval Signal
  | 0, _, _ => exhausted
  | _ + 1, [], _ => return .normal
  | budget + 1, statement :: rest, scope => do
    let inner ←
      match statement with
      | .declare name _ _ _ => scopeForDeclaration scope name
      | _ => pure scope
    match ← execStatement context budget statement inner with
    | .normal => execBlock context budget rest inner
    | signal => return signal

/-- Runs a statement. -/
def execStatement (context : Context) : Nat → Statement → ScopeId → Eval Signal
  | 0, _, _ => exhausted
  | budget + 1, statement, scope =>
    match statement with
    | .declare name value mutability _ => do
      let result ← eval context budget value scope
      define scope ⟨name, result, mutability⟩
      return .normal
    | .assign name value position => do
      let result ← eval context budget value scope
      assign context scope name result position
      return .normal
    | .leave none _ => return .returning .void
    | .leave (some value) _ => do
      return .returning (← eval context budget value scope)
    | .branch condition thenBranch elseBranch _ => do
      if ← evalCondition context budget condition scope then
        execBlock context budget thenBranch (← newChild scope)
      else
        match elseBranch with
        | some statements => execBlock context budget statements (← newChild scope)
        | none => return .normal
    | .loop condition body _ => execLoop context budget condition body scope
    | .block statements _ => do
      execBlock context budget statements (← newChild scope)
    | .loopBody statements _ => do
      match ← execBlock context budget statements (← newChild scope) with
      | .continuing _ => return .normal
      | signal => return signal
    | .evaluate expression _ => do
      let _ ← eval context budget expression scope
      return .normal
    | .breakLoop position => return .breaking position
    | .continueLoop position => return .continuing position

/-- Runs the rounds of a loop, each in a scope of its own. -/
def execLoop (context : Context) : Nat → Expr → List Statement → ScopeId → Eval Signal
  | 0, _, _, _ => exhausted
  | budget + 1, condition, body, scope => do
    if ← evalCondition context budget condition scope then
      match ← execBlock context budget body (← newChild scope) with
      | .normal => execLoop context budget condition body scope
      | .continuing _ => execLoop context budget condition body scope
      | .breaking _ => return .normal
      | .returning value => return .returning value
    else return .normal

end

end Scriptlet.Eval
