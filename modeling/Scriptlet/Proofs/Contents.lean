/-
This file says what trees and values hold. A tree holds places, one for each of its
nodes. A value holds function values, in lists as well. Operations make no function
values: what a result holds, an operand holds.
-/

import Scriptlet.Machine
import Scriptlet.Proofs.Steps

namespace Scriptlet

/-! ### Places of trees -/

mutual

/-- The places of an expression and all that it is made of. -/
def Expr.places : Expr → List Position
  | .literal _ position => [position]
  | .identifier _ position => [position]
  | .unary _ operand position => position :: operand.places
  | .binary _ left right position => position :: (left.places ++ right.places)
  | .logical _ left right position => position :: (left.places ++ right.places)
  | .call callee arguments position => position :: (callee.places ++ exprPlaces arguments)
  | .lambda procedure position => position :: procedure.places
  | .index target index position => position :: (target.places ++ index.places)

/-- The places of expressions. -/
def exprPlaces : List Expr → List Position
  | [] => []
  | first :: rest => first.places ++ exprPlaces rest

/-- The places of a statement and all that it is made of. -/
def Statement.places : Statement → List Position
  | .declare _ value _ position => position :: value.places
  | .assign _ value position => position :: value.places
  | .leave none position => [position]
  | .leave (some value) position => position :: value.places
  | .branch condition thenBranch none position =>
    position :: (condition.places ++ statementPlaces thenBranch)
  | .branch condition thenBranch (some elseBranch) position =>
    position :: (condition.places ++ (statementPlaces thenBranch ++ statementPlaces elseBranch))
  | .loop condition body position => position :: (condition.places ++ statementPlaces body)
  | .block statements position => position :: statementPlaces statements
  | .loopBody statements position => position :: statementPlaces statements
  | .evaluate expression position => position :: expression.places
  | .breakLoop position => [position]
  | .continueLoop position => [position]

/-- The places of statements. -/
def statementPlaces : List Statement → List Position
  | [] => []
  | first :: rest => first.places ++ statementPlaces rest

/-- The places of a procedure and its body. -/
def Procedure.places : Procedure → List Position
  | ⟨_, _, body, position⟩ => position :: statementPlaces body

end

theorem exprPlaces_eq (expressions : List Expr) :
    exprPlaces expressions = expressions.flatMap Expr.places := by
  induction expressions with
  | nil => rfl
  | cons first rest inductionHypothesis =>
    rw [exprPlaces, inductionHypothesis, List.flatMap_cons]

theorem statementPlaces_eq (statements : List Statement) :
    statementPlaces statements = statements.flatMap Statement.places := by
  induction statements with
  | nil => rfl
  | cons first rest inductionHypothesis =>
    rw [statementPlaces, inductionHypothesis, List.flatMap_cons]

theorem Expr.position_mem_places (expression : Expr) : expression.position ∈ expression.places := by
  cases expression with
  | literal value position => exact List.mem_singleton_self position
  | identifier name position => exact List.mem_singleton_self position
  | _ => exact List.mem_cons_self

/-- All of some places have a property. -/
def AllOf (holds : Position → Prop) (places : List Position) : Prop :=
  ∀ place ∈ places, holds place

theorem allOf_nil {holds : Position → Prop} : AllOf holds [] :=
  List.forall_mem_nil holds

theorem allOf_cons {holds : Position → Prop} {first : Position} {rest : List Position} :
    AllOf holds (first :: rest) ↔ holds first ∧ AllOf holds rest :=
  List.forall_mem_cons

theorem allOf_append {holds : Position → Prop} {front back : List Position} :
    AllOf holds (front ++ back) ↔ AllOf holds front ∧ AllOf holds back :=
  List.forall_mem_append

theorem AllOf.position {holds : Position → Prop} {expression : Expr}
    (all : AllOf holds expression.places) : holds expression.position :=
  all _ expression.position_mem_places

theorem Procedure.places_eq (procedure : Procedure) :
    procedure.places = procedure.position :: statementPlaces procedure.body := by
  cases procedure
  rfl

/-! ### Function values in values -/

mutual

/-- The function values that a value holds, also inside lists. -/
def Value.closures : Value → List Closure
  | .list items => closuresOf items
  | .function closure => [closure]
  | _ => []

/-- The function values that values hold. -/
def closuresOf : List Value → List Closure
  | [] => []
  | first :: rest => first.closures ++ closuresOf rest

end

theorem closuresOf_eq (values : List Value) :
    closuresOf values = values.flatMap Value.closures := by
  induction values with
  | nil => rfl
  | cons first rest inductionHypothesis =>
    rw [closuresOf, inductionHypothesis, List.flatMap_cons]

theorem closures_list (items : List Value) :
    (Value.list items).closures = items.flatMap Value.closures :=
  closuresOf_eq items

/-- An item of a list holds no more than the list. -/
theorem closures_subset_of_mem {item : Value} {items : List Value} (member : item ∈ items) :
    item.closures ⊆ items.flatMap Value.closures :=
  fun _ held => List.mem_flatMap.mpr ⟨item, member, held⟩

theorem closures_ofLiteral (literal : Literal) : (Value.ofLiteral literal).closures = [] := by
  cases literal with
  | _ => rfl

/-- The result of an operation holds nothing, if it has one. -/
def Closureless (result : Except RuntimeFault Value) : Prop :=
  ∀ value, result = .ok value → value.closures = []

theorem Closureless.error (fault : RuntimeFault) : Closureless (.error fault) :=
  fun _ impossible => by cases impossible

theorem Closureless.ok {value : Value} (empty : value.closures = []) : Closureless (.ok value) := by
  intro other same
  injection same with same
  rw [← same]
  exact empty

theorem closureless_ofInt (number : Int) : Closureless (Value.ofInt number) := by
  unfold Value.ofInt
  split
  · exact .ok rfl
  · exact .error _

theorem closureless_onInts (operation : Arithmetic) (left right : Int64) :
    Closureless (operation.onInts left right) := by
  cases operation with
  | divide =>
    unfold Arithmetic.onInts
    dsimp only
    split
    · exact .error _
    · exact closureless_ofInt _
  | remainder =>
    unfold Arithmetic.onInts
    dsimp only
    split
    · exact .error _
    · split
      · exact closureless_ofInt _
      · exact .error _
  | _ => exact closureless_ofInt _

theorem closureless_onFloats (operation : Arithmetic) (left right : Float) :
    Closureless (operation.onFloats left right) := by
  cases operation with
  | divide =>
    unfold Arithmetic.onFloats
    dsimp only
    split
    · exact .error _
    · exact .ok rfl
  | remainder =>
    unfold Arithmetic.onFloats
    dsimp only
    split
    · exact .error _
    · exact .ok rfl
  | _ => exact .ok rfl

theorem closureless_onNumbers (operation : Arithmetic) (left right : Value) :
    Closureless (operation.onNumbers left right) := by
  unfold Arithmetic.onNumbers
  split
  · exact closureless_onFloats _ _ _
  · exact .error _

theorem closureless_join (left right : Value) : Closureless (left.join right) := by
  unfold Value.join
  split
  · exact .ok rfl
  · exact .error _

/-- Only joining lists yields a value that holds anything. -/
theorem closures_arithmetic {operation : Arithmetic} {left right result : Value}
    (applied : operation.apply left right = .ok result) :
    result.closures ⊆ left.closures ++ right.closures := by
  have plain : ∀ {found : Except RuntimeFault Value}, Closureless found → found = .ok result →
      result.closures ⊆ left.closures ++ right.closures := by
    intro found closureless same
    rw [closureless result same]
    exact List.nil_subset _
  unfold Arithmetic.apply at applied
  split at applied
  · exact plain (closureless_onInts _ _ _) applied
  · injection applied with same
    rw [← same, closures_list, closures_list, closures_list, List.flatMap_append]
    exact List.Subset.refl _
  · split at applied
    · exact plain (closureless_join _ _) applied
    · exact plain (closureless_onNumbers _ _ _) applied
  · exact plain (closureless_onNumbers _ _ _) applied

/-- An operator makes no function values; the result holds those of its operands at most. -/
theorem closures_binary {op : BinaryOp} {left right result : Value}
    (applied : op.apply left right = .ok result) :
    result.closures ⊆ left.closures ++ right.closures := by
  cases op with
  | arithmetic operation => exact closures_arithmetic applied
  | _ =>
    injection applied with same
    rw [← same]
    exact List.nil_subset _

theorem closureless_unary (op : UnaryOp) (value : Value) : Closureless (op.apply value) := by
  unfold UnaryOp.apply
  split
  · exact .ok rfl
  · exact .error _
  · exact closureless_ofInt _
  · exact .ok rfl
  · exact closureless_ofInt _
  · exact .ok rfl
  · exact .error _

theorem mem_of_elementAt {α : Type} {items : List α} {index : Int64} {item : α}
    (found : elementAt items index = .ok item) : item ∈ items := by
  unfold elementAt at found
  dsimp only at found
  split at found
  · split at found
    · rename_i present
      injection found with same
      rw [← same]
      exact List.mem_of_getElem? present
    · cases found
  · cases found

/-- An element of a list holds no other function values than the list. -/
theorem closures_element {target result : Value} {index : Int64}
    (found : target.element index = .ok result) : result.closures ⊆ target.closures := by
  unfold Value.element at found
  split at found
  · rw [closures_list]
    exact closures_subset_of_mem (mem_of_elementAt found)
  · rename_i text
    cases character : elementAt text.toList index with
    | error fault =>
      rw [character] at found
      cases found
    | ok value =>
      rw [character] at found
      injection found with same
      rw [← same]
      exact List.nil_subset _
  · cases found

/-! ### Builtins -/

/-- A builtin with one argument yields the argument's first item, its other items, or a value that
holds nothing. -/
theorem closures_single {builtin : SingleBuiltin} {value result : Value}
    (applied : builtin.apply value = .ok result) : result.closures ⊆ value.closures := by
  cases builtin with
  | assert =>
    cases value with
    | bool truth =>
      cases truth with
      | true =>
        cases applied
        exact List.nil_subset _
      | false => cases applied
    | _ => cases applied
  | str =>
    cases applied
    exact List.nil_subset _
  | len =>
    have closureless : Closureless value.length := by
      cases value with
      | str text => exact closureless_ofInt _
      | list items => exact closureless_ofInt _
      | _ => exact .error _
    rw [closureless result applied]
    exact List.nil_subset _
  | head =>
    cases value with
    | list items =>
      cases items with
      | nil =>
        cases applied
        exact List.nil_subset _
      | cons first others =>
        cases applied
        rw [closures_list]
        exact closures_subset_of_mem List.mem_cons_self
    | _ => cases applied
  | rest =>
    cases value with
    | list items =>
      cases items with
      | nil =>
        cases applied
        exact List.nil_subset _
      | cons first others =>
        cases applied
        rw [closures_list, closures_list, List.flatMap_cons]
        exact List.subset_append_right _ _
    | _ => cases applied
  | isEmpty =>
    cases value with
    | list items =>
      cases applied
      exact List.nil_subset _
    | _ => cases applied
  | isNil =>
    cases value with
    | _ =>
      cases applied
      exact List.nil_subset _

theorem closures_variadic {builtin : VariadicBuiltin} {arguments : List Value} {sink last : Sink}
    {result : Value} (ran : builtin.run arguments sink = .ok result last) :
    result.closures ⊆ arguments.flatMap Value.closures := by
  cases builtin with
  | print =>
    obtain ⟨_, middle, _, ran⟩ := EStateM.of_bind_ok ran
    rw [← (EStateM.of_pure_ok ran).1]
    exact List.nil_subset _
  | println =>
    obtain ⟨_, middle, _, ran⟩ := EStateM.of_bind_ok ran
    obtain ⟨_, later, _, ran⟩ := EStateM.of_bind_ok ran
    rw [← (EStateM.of_pure_ok ran).1]
    exact List.nil_subset _
  | list =>
    rw [← (EStateM.of_pure_ok ran).1, closures_list]
    exact List.Subset.refl _

/-- A builtin with one argument yields what it comes to, if that is a value. -/
theorem apply_of_run_single {builtin : SingleBuiltin} {value result : Value} {sink last : Sink}
    (ran : (Builtin.single builtin).run [value] sink = .ok result last) :
    builtin.apply value = .ok result := by
  rw [Builtin.run] at ran
  cases applied : builtin.apply value with
  | ok found =>
    rw [applied] at ran
    rw [(EStateM.of_pure_ok ran).1]
  | error fault =>
    rw [applied] at ran
    cases ran

/-- What the result of a builtin holds, an argument holds. -/
theorem closures_builtin {builtin : Builtin} {arguments : List Value} {sink last : Sink}
    {result : Value} (ran : builtin.run arguments sink = .ok result last) :
    result.closures ⊆ arguments.flatMap Value.closures := by
  cases builtin with
  | variadic builtin => exact closures_variadic ran
  | single builtin =>
    cases arguments with
    | nil => cases ran
    | cons value others =>
      cases others with
      | nil =>
        rw [List.flatMap_singleton]
        exact closures_single (apply_of_run_single ran)
      | cons => cases ran

end Scriptlet
