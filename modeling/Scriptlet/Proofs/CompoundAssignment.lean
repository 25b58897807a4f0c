/-
This file proves that a compound assignment writes the binding it read. The statement reads
a variable, evaluates its operand and writes the result of the operation, and the operand
may call functions that assign to the same variable or declare others of the same name.
Evaluating an expression adds no name to any scope that was there before, so the nearest
binding of the name is in the same scope at the write as at the reading. Whatever the
operand has made of that one binding is written over, and all else stays as the operand
left it.

A name that stands for a procedure is read as well, but no operation takes a function, so
such a statement does not come to its write.
-/

import Scriptlet.Proofs.Bindings
import Scriptlet.Proofs.Budget
import Scriptlet.Proofs.Nearest
import Scriptlet.Tree.Sugar

namespace Scriptlet

/-! ### Reading and writing a name -/

/-- No operation takes a function. -/
theorem Arithmetic.apply_function (operation : Arithmetic) (closure : Closure) (right : Value) :
    operation.apply (.function closure) right =
      .error (operation.mismatch (.function closure) right) := by
  cases operation with
  | add =>
    cases right with
    | _ => rfl
  | _ => rfl

namespace Eval

section

variable (context : Context) (scope : ScopeId) (name : String)

/-- A name is read as a variable, else as a procedure, and the machine stays as it is. -/
theorem readName_cases (machine : Machine) :
    (∃ value, machine.store.get? scope name = some value ∧
      ∀ position, readName context scope name position machine = .ok value machine) ∨
    (machine.store.get? scope name = none ∧ ∃ closure, ∀ position,
      readName context scope name position machine = .ok (.function closure) machine) ∨
    (machine.store.get? scope name = none ∧ ∀ position,
      readName context scope name position machine =
        .error (.fault ⟨.undefinedVariable name, some position⟩) machine) := by
  simp only [readName, lookup?, bind_assoc, EStateM.bind_of_ok (EStateM.get_apply machine)]
  cases machine.store.get? scope name with
  | some value => exact .inl ⟨value, rfl, fun _ => rfl⟩
  | none =>
    cases context.procedures.find? name with
    | some closure => exact .inr (.inl ⟨rfl, closure, fun _ => rfl⟩)
    | none => exact .inr (.inr ⟨rfl, fun _ => rfl⟩)

variable {context scope name} in
theorem readName_of_get? {machine : Machine} {value : Value} (position : Position)
    (got : machine.store.get? scope name = some value) :
    readName context scope name position machine = .ok value machine := by
  rcases readName_cases context scope name machine with
    ⟨other, gotOther, reads⟩ | ⟨missing, _⟩ | ⟨missing, _⟩
  · cases got.symm.trans gotOther
    exact reads position
  · cases got.symm.trans missing
  · cases got.symm.trans missing

theorem readName_ends (machine : Machine) :
    (∃ value, ∀ position, readName context scope name position machine = .ok value machine) ∨
      ∀ position, readName context scope name position machine =
        .error (.fault ⟨.undefinedVariable name, some position⟩) machine := by
  rcases readName_cases context scope name machine with
    ⟨value, _, reads⟩ | ⟨_, closure, reads⟩ | ⟨_, stops⟩
  · exact .inl ⟨value, reads⟩
  · exact .inl ⟨.function closure, reads⟩
  · exact .inr stops

variable (position : Position)

/-- Gives a computed value to the nearest variable of a name and yields it. A fault of the
computation is reported at a place of its own. -/
def put (computedAt : Position) (computed : Except RuntimeFault Value) : Eval Value := do
  let updated ← resultAt computedAt computed
  assign context scope name updated position
  return updated

theorem put_error (computedAt : Position) (fault : RuntimeFault) (machine : Machine) :
    put context scope name position computedAt (.error fault) machine =
      .error (.fault ⟨fault, some computedAt⟩) machine := rfl

theorem put_ok (computedAt : Position) (updated : Value) (machine : Machine) :
    put context scope name position computedAt (.ok updated) machine =
      match machine.store.target scope name with
      | .ok holder => .ok updated { machine with store := machine.store.write holder name updated }
      | .error fault =>
        .error (.fault ⟨assignFault context name fault, some position⟩) machine := by
  have assigned := assign_apply context scope name updated position machine
  show (assign context scope name updated position >>= fun _ => pure updated) machine = _
  cases reached : machine.store.target scope name with
  | ok holder =>
    rw [reached] at assigned
    rw [EStateM.bind_of_ok assigned]
    rfl
  | error fault =>
    rw [reached] at assigned
    rw [EStateM.bind_of_error assigned]

end

variable {context : Context} {scope : ScopeId} {name : String} {position computedAt : Position}
  {computed : Except RuntimeFault Value} {machine last : Machine} {updated : Value}

theorem put_eq_ok_iff :
    put context scope name position computedAt computed machine = .ok updated last ↔
      computed = .ok updated ∧ ∃ holder, machine.store.target scope name = .ok holder ∧
        last = { machine with store := machine.store.write holder name updated } := by
  cases computed with
  | error fault =>
    rw [put_error]
    exact ⟨nofun, nofun⟩
  | ok value =>
    rw [put_ok]
    cases machine.store.target scope name with
    | error fault => exact ⟨nofun, fun ⟨_, _, impossible, _⟩ => nomatch impossible⟩
    | ok holder =>
      constructor
      · rintro ⟨⟩
        exact ⟨rfl, holder, rfl, rfl⟩
      · rintro ⟨⟨⟩, _, ⟨⟩, rfl⟩
        rfl

/-- A value that is not put leaves the machine as it is. -/
theorem put_stopped {interrupt : Interrupt}
    (stops : put context scope name position computedAt computed machine =
      .error interrupt last) : last = machine := by
  cases computed with
  | error fault =>
    rw [put_error] at stops
    cases stops
    rfl
  | ok value =>
    rw [put_ok] at stops
    cases reached : machine.store.target scope name with
    | ok holder =>
      rw [reached] at stops
      cases stops
    | error fault =>
      rw [reached] at stops
      cases stops
      rfl

end Eval

/-! ### Compound assignments -/

/-- What a compound assignment goes through: the binding it reads and the scope that holds it, the
value of the operand and the machine that the operand leaves, and the value that is written. -/
structure CompoundWrite where
  holder : ScopeId
  previous : Binding
  operand : Value
  middle : Machine
  updated : Value

/-- A compound assignment, run in a scope from one machine to another one, writes the binding it
has read. The holder is the nearest scope at both moments, and apart from the one binding the last
machine is the one that the operand leaves. -/
structure CompoundWrite.TakesPlace (write : CompoundWrite) (context : Context) (name : String)
    (operation : Arithmetic) (value : Expr) (scope : ScopeId) (machine last : Machine) : Prop where
  read : machine.store.locate? scope name = some ⟨write.holder, write.previous⟩
  mutable : write.previous.mutability = .mutable
  nearest : ∀ other, machine.store.Nearest name scope other ↔ other = write.holder
  evaluated : Eval.Settles (fun budget => Eval.eval context budget value scope) machine
    (.ok write.operand write.middle)
  nearestAfter : ∀ other, write.middle.store.Nearest name scope other ↔ other = write.holder
  computed : operation.apply write.previous.value write.operand = .ok write.updated
  written : last = { write.middle with
    store := write.middle.store.write write.holder name write.updated }
  bound : last.store.binding? write.holder name =
    some { write.previous with value := write.updated }
  others : ∀ place label, ¬(place = write.holder ∧ label = name) →
    last.store.binding? place label = write.middle.store.binding? place label

namespace Eval

section

variable {context : Context} {name : String} {operation : Arithmetic} {value : Expr}
  {namePosition position : Position} {scope : ScopeId} {machine middle last : Machine}

/-- A compound assignment reads, evaluates, and puts what it has computed. -/
theorem execStatement_compoundAssign (budget : Nat) :
    execStatement context (budget + 3) (.compoundAssign name operation value namePosition position)
        scope = (do
      let previous ← readName context scope name namePosition
      let operand ← eval context (budget + 1) value scope
      let _ ← put context scope name namePosition position (operation.apply previous operand)
      return .normal) := by
  simp only [Statement.compoundAssign, execStatement, eval, BinaryOp.apply, put, bind_assoc,
    pure_bind]

/-- Once the name has been read, the statement settles on a fault of the operand or on what putting
the result of the operation comes to. -/
theorem settles_compoundAssign_of_read {previous : Value}
    (read : readName context scope name namePosition machine = .ok previous machine)
    {outcome : Outcome Signal} :
    Settles (fun budget => execStatement context budget
        (.compoundAssign name operation value namePosition position) scope) machine outcome ↔
      (∃ operand middle,
        Settles (fun budget => eval context budget value scope) machine (.ok operand middle) ∧
          Settled outcome ∧ (do
            let _ ← put context scope name namePosition position (operation.apply previous operand)
            return .normal : Eval Signal) middle = outcome) ∨
      ∃ error middle,
        Settles (fun budget => eval context budget value scope) machine
            (.error (.fault error) middle) ∧
          outcome = .error (.fault error) middle := by
  have operands : ∀ outcome,
      Settles (fun budget => eval context (budget + 1) value scope) machine outcome ↔
        Settles (fun budget => eval context budget value scope) machine outcome :=
    fun _ => settles_add_iff (.eval value scope) 1
  refine (settles_add_iff (.execStatement _ scope) 3).symm.trans ?_
  simp only [Task.perform, execStatement_compoundAssign]
  refine (settles_bind_of_ok read).trans (settles_bind_iff.trans ?_)
  simp only [operands]

/-- A name that cannot be read ends the statement before anything is evaluated. -/
theorem settles_compoundAssign_of_unread {error : RuntimeError}
    (unread : readName context scope name namePosition machine = .error (.fault error) machine)
    {outcome : Outcome Signal} :
    Settles (fun budget => execStatement context budget
        (.compoundAssign name operation value namePosition position) scope) machine outcome ↔
      outcome = .error (.fault error) machine := by
  refine (settles_add_iff (.execStatement _ scope) 3).symm.trans ?_
  simp only [Task.perform, execStatement_compoundAssign]
  exact settles_bind_of_error unread

/-- Evaluating an expression adds no name to a scope. -/
theorem kept_of_settles {operand : Value}
    (evaluated : Settles (fun budget => eval context budget value scope) machine
      (.ok operand middle)) : machine.store.Kept noNames middle.store := by
  obtain ⟨_, budget, came⟩ := evaluated
  have kept : machine.store.Kept noNames ((eval context budget value scope).after machine).store :=
    Task.keepsBindings context budget (.eval value scope) machine trivial
  rw [after_of_ok came] at kept
  exact kept

end

end Eval

/-- A binding that is read before the operand and written behind it. -/
theorem CompoundWrite.TakesPlace.of_read {write : CompoundWrite} {context : Context} {name : String}
    {operation : Arithmetic} {value : Expr} {scope : ScopeId} {machine : Machine}
    (read : machine.store.locate? scope name = some ⟨write.holder, write.previous⟩)
    (mutable : write.previous.mutability = .mutable)
    (evaluated : Eval.Settles (fun budget => Eval.eval context budget value scope) machine
      (.ok write.operand write.middle))
    (computed : operation.apply write.previous.value write.operand = .ok write.updated) :
    write.TakesPlace context name operation value scope machine { write.middle with
      store := write.middle.store.write write.holder name write.updated } := by
  obtain ⟨present, readAfter⟩ := Store.locate?_same (Eval.kept_of_settles evaluated) read
  exact {
    read, mutable, evaluated, computed
    nearest := Store.nearest_iff_of_locate? read
    nearestAfter := Store.nearest_iff_of_locate? readAfter
    written := rfl
    bound := by
      rw [Store.binding?_write, if_pos ⟨rfl, rfl⟩, Store.binding?_of_locate? readAfter]
      rfl
    others := fun place label other => by
      rw [Store.binding?_write, if_neg other] }

namespace Eval

section

variable {context : Context} {name : String} {operation : Arithmetic} {value : Expr}
  {namePosition position : Position} {scope : ScopeId} {machine last : Machine}

/-- A binding that a computed value can be written to behind the operand is the one that was read
before it, since what is not a variable cannot be computed with. -/
theorem located_of_target {previous operand updated : Value} {middle : Machine} {holder : ScopeId}
    (read : readName context scope name namePosition machine = .ok previous machine)
    (evaluated : Settles (fun budget => eval context budget value scope) machine
      (.ok operand middle))
    (computed : operation.apply previous operand = .ok updated)
    (reached : middle.store.target scope name = .ok holder) :
    ∃ binding, machine.store.locate? scope name = some ⟨holder, binding⟩ ∧
      binding.mutability = .mutable ∧ binding.value = previous := by
  rcases readName_cases context scope name machine with
    ⟨present, got, reads⟩ | ⟨_, closure, reads⟩ | ⟨_, stops⟩
  · -- The operand has added no name, so the walk comes to the same scope again.
    rw [reads namePosition] at read
    cases read
    obtain ⟨located, foundAt, sameValue⟩ := Option.map_eq_some_iff.mp got
    obtain ⟨later, foundAfter⟩ := Store.locate?_same (kept_of_settles evaluated) foundAt
    obtain ⟨binding, foundAgain, mutable⟩ := Store.target_eq_ok_iff.mp reached
    rw [foundAfter] at foundAgain
    cases foundAgain
    exact ⟨located.binding, foundAt, mutable, sameValue⟩
  · rw [reads namePosition] at read
    cases read
    rw [Arithmetic.apply_function] at computed
    cases computed
  · rw [stops namePosition] at read
    cases read

/-- The statement ends normally exactly when its write takes place. -/
theorem settles_compoundAssign_ok_iff {signal : Signal} :
    Settles (fun budget => execStatement context budget
        (.compoundAssign name operation value namePosition position) scope) machine
        (.ok signal last) ↔
      signal = .normal ∧ ∃ write : CompoundWrite,
        write.TakesPlace context name operation value scope machine last := by
  constructor
  · intro settles
    rcases readName_ends context scope name machine with ⟨previous, reads⟩ | stops
    · rcases (settles_compoundAssign_of_read (reads namePosition)).mp settles with
        ⟨operand, middle, evaluated, _, ends⟩ | ⟨_, _, _, impossible⟩
      · obtain ⟨updated, behind, puts, ended⟩ := EStateM.of_bind_ok ends
        obtain ⟨rfl, rfl⟩ := EStateM.of_pure_ok ended
        obtain ⟨computed, holder, reached, rfl⟩ := put_eq_ok_iff.mp puts
        obtain ⟨binding, foundAt, mutable, rfl⟩ :=
          located_of_target (reads namePosition) evaluated computed reached
        exact ⟨rfl, ⟨holder, binding, operand, middle, updated⟩,
          .of_read foundAt mutable evaluated computed⟩
      · cases impossible
    · cases (settles_compoundAssign_of_unread (stops namePosition)).mp settles
  · rintro ⟨rfl, write, takesPlace⟩
    have reads : readName context scope name namePosition machine =
        .ok write.previous.value machine :=
      readName_of_get? namePosition (Store.get?_of_locate? takesPlace.read)
    have reached : write.middle.store.target scope name = .ok write.holder :=
      Store.target_same (kept_of_settles takesPlace.evaluated)
        (Store.target_eq_ok_iff.mpr ⟨write.previous, takesPlace.read, takesPlace.mutable⟩)
    refine (settles_compoundAssign_of_read reads).mpr
      (.inl ⟨write.operand, write.middle, takesPlace.evaluated, trivial, ?_⟩)
    exact EStateM.bind_of_ok
      (put_eq_ok_iff.mpr ⟨takesPlace.computed, write.holder, reached, takesPlace.written⟩)

/-- A fault ends the statement before its write. -/
theorem machine_of_compoundAssign_error {interrupt : Interrupt}
    (settles : Settles (fun budget => execStatement context budget
        (.compoundAssign name operation value namePosition position) scope) machine
        (.error interrupt last)) :
    (readName context scope name namePosition machine = .error interrupt machine ∧
      last = machine) ∨
    ∃ previous outcome, readName context scope name namePosition machine = .ok previous machine ∧
      Settles (fun budget => eval context budget value scope) machine outcome ∧
      last = outcome.machine := by
  rcases readName_ends context scope name machine with ⟨previous, reads⟩ | stops
  · refine .inr ⟨previous, ?_⟩
    rcases (settles_compoundAssign_of_read (reads namePosition)).mp settles with
      ⟨operand, middle, evaluated, _, ends⟩ | ⟨error, middle, evaluated, same⟩
    · refine ⟨_, reads namePosition, evaluated, ?_⟩
      cases put : put context scope name namePosition position
          (operation.apply previous operand) middle with
      | ok updated behind => cases (EStateM.bind_of_ok put).symm.trans ends
      | error stop behind =>
        cases (EStateM.bind_of_error put).symm.trans ends
        exact put_stopped put
    · cases same
      exact ⟨_, reads namePosition, evaluated, rfl⟩
  · cases (settles_compoundAssign_of_unread (stops namePosition)).mp settles
    exact .inl ⟨stops namePosition, rfl⟩

end

end Eval

/-! ### The binding that was read -/

/-- A compound assignment ends normally exactly when the nearest binding of its name is mutable,
its operand has a value and the operation has a result for the value read before the operand and
the operand. The scope that holds the binding is the nearest one both before the operand is
evaluated and at the write, the binding has the result afterwards, and all other bindings are as
the operand left them. A statement that fails leaves the machine as its operand left it, or as it
was if the name could not be read. -/
theorem compound_assignment_writes_what_it_read (context : Context) (name : String)
    (operation : Arithmetic) (value : Expr) (namePosition position : Position) (scope : ScopeId)
    (machine : Machine) :
    (∀ signal last,
      Eval.Settles (fun budget => Eval.execStatement context budget
          (.compoundAssign name operation value namePosition position) scope) machine
          (.ok signal last) ↔
        signal = .normal ∧ ∃ write : CompoundWrite,
          write.TakesPlace context name operation value scope machine last) ∧
    ∀ interrupt last,
      Eval.Settles (fun budget => Eval.execStatement context budget
          (.compoundAssign name operation value namePosition position) scope) machine
          (.error interrupt last) →
        (Eval.readName context scope name namePosition machine = .error interrupt machine ∧
          last = machine) ∨
        ∃ previous outcome,
          Eval.readName context scope name namePosition machine = .ok previous machine ∧
          Eval.Settles (fun budget => Eval.eval context budget value scope) machine outcome ∧
          last = outcome.machine :=
  ⟨fun _ _ => Eval.settles_compoundAssign_ok_iff,
    fun _ _ => Eval.machine_of_compoundAssign_error⟩

/-- The function `fn f() { x = 10; return 5; }`, made in the outermost scope. -/
def overwritingFunction : Closure where
  identity := 0
  procedure := ⟨"f", [], [.assign "x" (.literal (.int 10) .start) .start,
    .leave (some (.literal (.int 5) .start)) .start], .start⟩
  scope := 0

/-- A machine whose outermost scope binds `x` and the function `f`. Inside it there is an empty
scope, and one more for every call of `f`. -/
def overwritingMachine (x : Int64) (calls : Nat) : Machine where
  store := ⟨(⟨none, [⟨"x", .int x, .mutable⟩, ⟨"f", .function overwritingFunction, .constant⟩]⟩ ::
    List.replicate (calls + 1) ⟨some 0, []⟩).toArray⟩
  sink := {}
  depth := 0
  closures := 1

/-- The operand of `x += f()`. -/
def overwritingCall : Expr := .call (.identifier "f" .start) [] .start

/-- In `x += f()` the call gives `x` the value 10, and then the sum of the value that `x` had before
and the result of the call is written. In `f += f()` the call does the same, and the sum has no
value. -/
theorem compound_assignment_writes_what_it_read_overwritten :
    (Eval.Settles (fun budget => Eval.execStatement ⟨.empty, 9⟩ budget
        (.compoundAssign "x" .add overwritingCall .start .start) 1) (overwritingMachine 1 0)
        (.ok .normal (overwritingMachine 6 1)) ∧
      ∃ write : CompoundWrite, write.holder = 0 ∧ write.previous.value = .int 1 ∧
        write.operand = .int 5 ∧ write.middle = overwritingMachine 10 1 ∧
        write.TakesPlace ⟨.empty, 9⟩ "x" .add overwritingCall 1 (overwritingMachine 1 0)
          (overwritingMachine 6 1)) ∧
    Eval.Settles (fun budget => Eval.execStatement ⟨.empty, 9⟩ budget
        (.compoundAssign "f" .add overwritingCall .start .start) 1) (overwritingMachine 1 0)
        (.error (.fault ⟨.typeMismatch (.operands .add .function .int), some .start⟩)
          (overwritingMachine 10 1)) ∧
      ∃ outcome : Outcome Value,
        Eval.Settles (fun budget => Eval.eval ⟨.empty, 9⟩ budget overwritingCall 1)
          (overwritingMachine 1 0) outcome ∧
        overwritingMachine 10 1 = outcome.machine := by
  have evaluated : Eval.Settles (fun budget => Eval.eval ⟨.empty, 9⟩ budget overwritingCall 1)
      (overwritingMachine 1 0) (.ok (.int 5) (overwritingMachine 10 1)) :=
    ⟨trivial, 9, by with_unfolding_all rfl⟩
  have ends : Eval.Settles (fun budget => Eval.execStatement ⟨.empty, 9⟩ budget
      (.compoundAssign "x" .add overwritingCall .start .start) 1) (overwritingMachine 1 0)
      (.ok .normal (overwritingMachine 6 1)) :=
    ⟨trivial, 12, by with_unfolding_all rfl⟩
  have fails : Eval.Settles (fun budget => Eval.execStatement ⟨.empty, 9⟩ budget
      (.compoundAssign "f" .add overwritingCall .start .start) 1) (overwritingMachine 1 0)
      (.error (.fault ⟨.typeMismatch (.operands .add .function .int), some .start⟩)
        (overwritingMachine 10 1)) :=
    ⟨trivial, 12, by with_unfolding_all rfl⟩
  refine ⟨⟨ends, ?_⟩, fails, ?_⟩
  · obtain ⟨_, write, takesPlace⟩ :=
      ((compound_assignment_writes_what_it_read _ _ _ _ _ _ _ _).1 _ _).mp ends
    have foundAt : (overwritingMachine 1 0).store.locate? 1 "x" =
        some ⟨0, ⟨"x", .int 1, .mutable⟩⟩ := by with_unfolding_all rfl
    injection Option.some.inj (takesPlace.read.symm.trans foundAt) with sameHolder sameBinding
    injection evaluated.unique (.eval overwritingCall 1) takesPlace.evaluated with
      sameOperand sameMiddle
    exact ⟨write, sameHolder, congrArg Binding.value sameBinding, sameOperand, sameMiddle,
      takesPlace⟩
  · rcases (compound_assignment_writes_what_it_read _ _ _ _ _ _ _ _).2 _ _ fails with
      ⟨unread, _⟩ | ⟨_, outcome, _, settles, same⟩
    · cases unread
    · exact ⟨outcome, settles, same⟩

end Scriptlet
