/-
This file proves that stepping a variable is short for reassigning it. An update and the
compound assignment with the number one both read the variable, compute with its value and
put the result, but they compute by different rules: the update adds a number of its own,
and the assignment applies an operation to two values of any type. For every value but a
text that is incremented, both come to the same value or to a fault of the same kind; a
text is joined with the number by the assignment and refused by the update.

Reading and putting go the same way for both, so the two statements leave the same machine,
or both fail and leave the machine as it was.
-/

import Scriptlet.Proofs.CompoundAssignment

namespace Scriptlet

/-! ### Doubles -/

namespace Double

open Float.Model (Format UnpackedFloat)
open Float.Model.UnpackedFloat

theorem apply_neg (sign : Sign) (number : Int) : (-sign).apply number = -sign.apply number := by
  cases sign with
  | negative => exact (Int.neg_neg number).symm
  | positive => rfl

/-- A finite number is subtracted by adding its negation, rounding included. -/
theorem sub_finite (format : Format) (number : UnpackedFloat) (sign : Sign) {significand : Nat}
    {exponent : Int} (positive : 0 < significand) :
    UnpackedFloat.sub format number (.finite sign significand exponent positive) =
      UnpackedFloat.add format number (.finite (-sign) significand exponent positive) := by
  cases number with
  | finite =>
    show normalize format (_ + -sign.apply _) _ _ = normalize format (_ + (-sign).apply _) _ _
    rw [apply_neg]
  | _ => rfl

/-- One is 2^52 times 2^-52. -/
theorem unpack_one :
    (1.0 : Float).toModel.unpack = .finite .positive 4503599627370496 (-52) (by decide) := by
  with_unfolding_all rfl

theorem unpack_minus_one :
    (-1.0 : Float).toModel.unpack = .finite .negative 4503599627370496 (-52) (by decide) := by
  with_unfolding_all rfl

theorem add_minus_one (number : Float) : number + -1.0 = number - 1.0 := by
  show Float.ofModel (Float.Model.add number.toModel (-1.0 : Float).toModel) =
    Float.ofModel (Float.Model.sub number.toModel (1.0 : Float).toModel)
  rw [Float.Model.add, Float.Model.sub, unpack_one, unpack_minus_one, sub_finite]
  rfl

end Double

/-! ### Computing the next value -/

/-- The operation that a step is short for. -/
def Step.operation : Step → Arithmetic
  | .increment => .add
  | .decrement => .subtract

/-- Faults of the same kind: they are the same, unless both are about the types of operands. -/
inductive RuntimeFault.SameKind : RuntimeFault → RuntimeFault → Prop where
  | same (fault : RuntimeFault) : SameKind fault fault
  | mismatches (first second : Mismatch) : SameKind (.typeMismatch first) (.typeMismatch second)

/-- Results that are the same value or faults of the same kind. -/
inductive AlikeResults : Except RuntimeFault Value → Except RuntimeFault Value → Prop where
  | ok (value : Value) : AlikeResults (.ok value) (.ok value)
  | error {first second : RuntimeFault} :
    first.SameKind second → AlikeResults (.error first) (.error second)

theorem AlikeResults.refl (result : Except RuntimeFault Value) : AlikeResults result result := by
  cases result with
  | ok value => exact .ok value
  | error fault => exact .error (.same fault)

theorem Step.ofInt_delta (step : Step) (number : Int64) :
    Value.ofInt (number.toInt + step.delta) = step.operation.apply (.int number) (.int 1) := by
  cases step with
  | increment => rfl
  | decrement => rfl

theorem Step.float_delta (step : Step) (number : Float) :
    .ok (.float (number + step.deltaFloat)) = step.operation.apply (.float number) (.int 1) := by
  cases step with
  | increment => rfl
  | decrement =>
    show Except.ok (Value.float (number + -1.0)) = .ok (.float (number - 1.0))
    rw [Double.add_minus_one]

/-- Stepping a value is like applying the operation to it and one, unless a text is
incremented. -/
theorem Step.apply_alike (step : Step) (yield : Yield) (value : Value)
    (noText : step = .increment → value.isText = false) :
    AlikeResults ((UnaryOp.update step yield).apply value)
      (step.operation.apply value (.int 1)) := by
  cases value with
  | int number =>
    rw [← step.ofInt_delta]
    exact .refl _
  | float number =>
    rw [← step.float_delta]
    exact .refl _
  | str text =>
    cases step with
    | increment => cases noText rfl
    | decrement => exact .error (.mismatches _ _)
  | _ =>
    cases step with
    | _ => exact .error (.mismatches _ _)

-- Why a text is left out: the update refuses it, and the addition joins it with the number.
example : (UnaryOp.update .increment .updated).apply (.str "a") =
      .error (.typeMismatch (.operand (.update .increment .updated) .string)) ∧
    Step.increment.operation.apply (.str "a") (.int 1) = .ok (.str "a1") :=
  ⟨rfl, by with_unfolding_all rfl⟩

/-! ### Reassigning -/

/-- What an update yields, of something before it and behind it. -/
def Yield.choose {α : Type} (yield : Yield) (previous updated : α) : α :=
  match yield with
  | .updated => updated
  | .previous => previous

/-- Outcomes from a machine that are the same, or failures of the same kind that have changed
nothing. -/
inductive AlikeOutcomes {α : Type} (machine : Machine) : Outcome α → Outcome α → Prop where
  | ok (value : α) (last : Machine) : AlikeOutcomes machine (.ok value last) (.ok value last)
  | error {first second : RuntimeError} : first.fault.SameKind second.fault →
    AlikeOutcomes machine (.error (.fault first) machine) (.error (.fault second) machine)

theorem AlikeOutcomes.andThen {α β : Type} {machine : Machine} {first second : Eval α}
    (alike : AlikeOutcomes machine (first machine) (second machine)) (next : α → β) :
    AlikeOutcomes machine ((do return next (← first) : Eval β) machine)
      ((do return next (← second) : Eval β) machine) := by
  generalize cameFirst : first machine = outcome at alike
  generalize cameSecond : second machine = other at alike
  cases alike with
  | ok value last =>
    rw [EStateM.bind_of_ok cameFirst, EStateM.bind_of_ok cameSecond]
    exact .ok _ _
  | error sameKind =>
    rw [EStateM.bind_of_error cameFirst, EStateM.bind_of_error cameSecond]
    exact .error sameKind

namespace Eval

/-- Reads a name, computes with its value and puts the result. Yields the value before and the
value behind. -/
def reassign (context : Context) (scope : ScopeId) (name : String)
    (readAt computedAt position : Position) (change : Value → Except RuntimeFault Value) :
    Eval (Value × Value) := do
  let previous ← readName context scope name readAt
  let updated ← put context scope name position computedAt (change previous)
  return (previous, updated)

variable {context : Context} {scope : ScopeId} {name : String} {machine : Machine}

theorem reassign_of_read {readAt computedAt position : Position}
    {change : Value → Except RuntimeFault Value} {previous : Value}
    (read : readName context scope name readAt machine = .ok previous machine) :
    reassign context scope name readAt computedAt position change machine = (do
      let updated ← put context scope name position computedAt (change previous)
      return (previous, updated) : Eval (Value × Value)) machine :=
  EStateM.bind_of_ok read

/-- Results that are alike are put in the same way. -/
theorem put_alike {first second : Except RuntimeFault Value} (alike : AlikeResults first second)
    (position computedAt otherPosition otherComputedAt : Position) :
    AlikeOutcomes machine (put context scope name position computedAt first machine)
      (put context scope name otherPosition otherComputedAt second machine) := by
  cases alike with
  | error sameKind =>
    rw [put_error, put_error]
    exact .error sameKind
  | ok updated =>
    rw [put_ok, put_ok]
    cases machine.store.target scope name with
    | ok holder => exact .ok _ _
    | error fault => exact .error (.same _)

/-- Two ways to compute the new value that are alike at the value that is read. -/
theorem reassign_alike {change other : Value → Except RuntimeFault Value}
    (alike : ∀ value, (∀ position, readName context scope name position machine =
      .ok value machine) → AlikeResults (change value) (other value))
    (readAt computedAt position otherReadAt otherComputedAt otherPosition : Position) :
    AlikeOutcomes machine
      (reassign context scope name readAt computedAt position change machine)
      (reassign context scope name otherReadAt otherComputedAt otherPosition other machine) := by
  rcases readName_ends context scope name machine with ⟨previous, reads⟩ | stops
  · rw [reassign_of_read (reads readAt), reassign_of_read (reads otherReadAt)]
    exact (put_alike (alike previous reads) ..).andThen fun updated => (previous, updated)
  · rw [reassign, reassign, EStateM.bind_of_error (stops readAt),
      EStateM.bind_of_error (stops otherReadAt)]
    exact .error (.same _)

/-- What is reassigned is a variable; a procedure is read as well, but has no binding to write. -/
theorem values_of_reassign {readAt computedAt position : Position}
    {change : Value → Except RuntimeFault Value} {previous updated : Value} {last : Machine}
    (ends : reassign context scope name readAt computedAt position change machine =
      .ok (previous, updated) last) :
    machine.store.get? scope name = some previous ∧ last.store.get? scope name = some updated := by
  have written : ∀ {value}, readName context scope name readAt machine = .ok value machine →
      value = previous ∧ ∃ holder, machine.store.target scope name = .ok holder ∧
        last = { machine with store := machine.store.write holder name updated } := by
    intro value read
    rw [reassign_of_read read] at ends
    obtain ⟨result, behind, puts, ended⟩ := EStateM.of_bind_ok ends
    obtain ⟨same, rfl⟩ := EStateM.of_pure_ok ended
    cases same
    exact ⟨rfl, (put_eq_ok_iff.mp puts).2⟩
  rcases readName_cases context scope name machine with
    ⟨value, got, reads⟩ | ⟨missing, closure, reads⟩ | ⟨_, stops⟩
  · obtain ⟨rfl, holder, reached, rfl⟩ := written (reads readAt)
    exact ⟨got, Store.get?_write reached updated⟩
  · obtain ⟨_, holder, reached, _⟩ := written (reads readAt)
    obtain ⟨binding, foundAt, _⟩ := Store.target_eq_ok_iff.mp reached
    cases missing.symm.trans (Store.get?_of_locate? foundAt)
  · rw [reassign, EStateM.bind_of_error (stops readAt)] at ends
    cases ends

theorem isText_of_read {value : Value} {position : Position}
    (noText : ∀ text, machine.store.get? scope name ≠ some (.str text))
    (read : readName context scope name position machine = .ok value machine) :
    value.isText = false := by
  rcases readName_cases context scope name machine with
    ⟨previous, got, reads⟩ | ⟨_, closure, reads⟩ | ⟨_, stops⟩
  · cases (reads position).symm.trans read
    cases value with
    | str text => exact absurd got (noText text)
    | _ => rfl
  · cases (reads position).symm.trans read
    rfl
  · cases (stops position).symm.trans read

/-- Stepping a variable and assigning the result of the operation with one to it. -/
theorem update_alike (context : Context) (step : Step) (yield : Yield)
    (noText : step = .increment → ∀ text, machine.store.get? scope name ≠ some (.str text))
    (readAt computedAt position otherReadAt otherComputedAt otherPosition : Position) :
    AlikeOutcomes machine
      (reassign context scope name readAt computedAt position (UnaryOp.update step yield).apply
        machine)
      (reassign context scope name otherReadAt otherComputedAt otherPosition
        (fun previous => step.operation.apply previous (.int 1)) machine) := by
  refine reassign_alike (fun value reads => ?_) ..
  exact step.apply_alike yield value fun increment =>
    isText_of_read (noText increment) (reads readAt)

/-! ### The two statements -/

section

variable (context scope name) (step : Step) (yield : Yield)
  (readAt position statementPosition literalPosition : Position) (budget : Nat)

theorem eval_update :
    eval context (budget + 1) (.unary (.update step yield) (.identifier name readAt) position)
        scope = (do
      let both ← reassign context scope name readAt position position
        (UnaryOp.update step yield).apply
      return yield.choose both.1 both.2) := by
  cases yield with
  | _ => simp only [eval, reassign, put, Yield.choose, bind_assoc, pure_bind]

theorem execStatement_update :
    execStatement context (budget + 2)
        (.evaluate (.unary (.update step yield) (.identifier name readAt) position)
          statementPosition) scope = (do
      let _ ← reassign context scope name readAt position position
        (UnaryOp.update step yield).apply
      return .normal) := by
  simp only [execStatement, eval_update, bind_assoc, pure_bind]

theorem execStatement_compoundAssign_one :
    execStatement context (budget + 3)
        (.compoundAssign name step.operation (.literal (.int 1) literalPosition) readAt position)
        scope = (do
      let _ ← reassign context scope name readAt position readAt
        fun previous => step.operation.apply previous (.int 1)
      return .normal) := by
  simp only [execStatement_compoundAssign, eval, reassign, bind_assoc, pure_bind]
  rfl

end

end Eval

/-! ### Steps are short for reassignments -/

/-- The statement that steps a variable and the one that assigns the result of the operation with
one to it: both end normally with the same machine, or both fail with faults of the same kind and
leave the machine as it was. Only the increment of a text is excluded. Where they end normally,
the update yields the value that the variable has behind it or the one it had before, as it is
written. -/
theorem update_is_reassignment (context : Context) (step : Step) (yield : Yield) (name : String)
    (readAt position statementPosition otherReadAt otherPosition literalPosition : Position)
    (scope : ScopeId) (machine : Machine)
    (noText : step = .increment → ∀ text, machine.store.get? scope name ≠ some (.str text)) :
    (∃ value last,
      yield.choose (machine.store.get? scope name) (last.store.get? scope name) = some value ∧
      Eval.SettlesOnlyOn (fun budget => Eval.eval context budget
        (.unary (.update step yield) (.identifier name readAt) position) scope) machine
        (.ok value last) ∧
      Eval.SettlesOnlyOn (fun budget => Eval.execStatement context budget
        (.evaluate (.unary (.update step yield) (.identifier name readAt) position)
          statementPosition) scope) machine (.ok .normal last) ∧
      Eval.SettlesOnlyOn (fun budget => Eval.execStatement context budget
        (.compoundAssign name step.operation (.literal (.int 1) literalPosition) otherReadAt
          otherPosition) scope) machine (.ok .normal last)) ∨
    ∃ error other : RuntimeError, error.fault.SameKind other.fault ∧
      Eval.SettlesOnlyOn (fun budget => Eval.execStatement context budget
        (.evaluate (.unary (.update step yield) (.identifier name readAt) position)
          statementPosition) scope) machine (.error (.fault error) machine) ∧
      Eval.SettlesOnlyOn (fun budget => Eval.execStatement context budget
        (.compoundAssign name step.operation (.literal (.int 1) literalPosition) otherReadAt
          otherPosition) scope) machine (.error (.fault other) machine) := by
  have evaluates := Eval.eval_update context scope name step yield readAt position
  have steps := Eval.execStatement_update context scope name step yield readAt position
    statementPosition
  have assigns := Eval.execStatement_compoundAssign_one context scope name step otherReadAt
    otherPosition literalPosition
  have alike := Eval.update_alike context step yield noText readAt position position otherReadAt
    otherPosition otherReadAt
  generalize first : Eval.reassign context scope name readAt position position
    (UnaryOp.update step yield).apply machine = outcome at alike
  generalize second : Eval.reassign context scope name otherReadAt otherPosition otherReadAt
    (fun previous => step.operation.apply previous (.int 1)) machine = other at alike
  cases alike with
  | ok values last =>
    obtain ⟨before, behind⟩ := Eval.values_of_reassign first
    refine .inl ⟨yield.choose values.1 values.2, last, ?_, ?_, ?_, ?_⟩
    · rw [before, behind]
      cases yield with
      | _ => rfl
    · exact Eval.settlesOnlyOn_of_const (.eval _ scope) evaluates (EStateM.bind_of_ok first) trivial
    · exact Eval.settlesOnlyOn_of_const (.execStatement _ scope) steps (EStateM.bind_of_ok first)
        trivial
    · exact Eval.settlesOnlyOn_of_const (.execStatement _ scope) assigns
        (EStateM.bind_of_ok second) trivial
  | @error error other sameKind =>
    refine .inr ⟨error, other, sameKind, ?_, ?_⟩
    · exact Eval.settlesOnlyOn_of_const (.execStatement _ scope) steps
        (EStateM.bind_of_error first) trivial
    · exact Eval.settlesOnlyOn_of_const (.execStatement _ scope) assigns
        (EStateM.bind_of_error second) trivial

/-- A machine whose outermost scope binds `x` to a double, with a scope inside it. -/
def countingMachine (x : Float) : Machine :=
  ⟨⟨#[⟨none, [⟨"x", .float x, .mutable⟩]⟩, ⟨some 0, []⟩]⟩, {}, 0, 0⟩

/-- With `x` bound to 1.5 in the scope around, `x++` yields 1.5 and leaves 2.5, as `x += 1`
does. -/
theorem update_is_reassignment_double :
    (∀ text, (countingMachine 1.5).store.get? 1 "x" ≠ some (.str text)) ∧
    Eval.Settles (fun budget => Eval.execStatement ⟨.empty, 9⟩ budget
      (.evaluate (.unary (.update .increment .previous) (.identifier "x" .start) .start) .start) 1)
      (countingMachine 1.5) (.ok .normal (countingMachine 2.5)) ∧
    Eval.Settles (fun budget => Eval.eval ⟨.empty, 9⟩ budget
      (.unary (.update .increment .previous) (.identifier "x" .start) .start) 1)
      (countingMachine 1.5) (.ok (.float 1.5) (countingMachine 2.5)) ∧
    Eval.Settles (fun budget => Eval.execStatement ⟨.empty, 9⟩ budget
      (.compoundAssign "x" .add (.literal (.int 1) .start) .start .start) 1)
      (countingMachine 1.5) (.ok .normal (countingMachine 2.5)) := by
  have before : (countingMachine 1.5).store.get? 1 "x" = some (.float 1.5) := by
    with_unfolding_all rfl
  have noText : ∀ text, (countingMachine 1.5).store.get? 1 "x" ≠ some (.str text) := by
    intro text same
    cases before.symm.trans same
  have steps : Eval.Settles (fun budget => Eval.execStatement ⟨.empty, 9⟩ budget
      (.evaluate (.unary (.update .increment .previous) (.identifier "x" .start) .start) .start) 1)
      (countingMachine 1.5) (.ok .normal (countingMachine 2.5)) :=
    ⟨trivial, 2, by with_unfolding_all rfl⟩
  refine ⟨noText, steps, ?_⟩
  rcases update_is_reassignment ⟨.empty, 9⟩ .increment .previous "x" .start .start .start .start
      .start .start 1 (countingMachine 1.5) fun _ => noText with
    ⟨value, last, yielded, evaluates, ends, assigns⟩ | ⟨_, _, _, fails, _⟩
  · cases (ends _).mp steps
    cases before.symm.trans yielded
    exact ⟨(evaluates _).mpr rfl, (assigns _).mpr rfl⟩
  · cases (fails _).mp steps

end Scriptlet
