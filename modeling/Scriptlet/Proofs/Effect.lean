/-
This file says what a step of a run does to the machine, whether the step yields
a value or is interrupted. An effect is a kind of change that doing nothing has
and that two changes in a row add up to; a step has an effect when every machine
it may start from is changed in that way. Steps made of steps then have the
effects of their parts, and only the primitive steps need to be looked into.
-/

import Scriptlet.Evaluation
import Scriptlet.Proofs.Steps

namespace Scriptlet

/-- A kind of change of the machine. -/
structure Effect where
  allows : Machine → Machine → Prop
  refl : ∀ machine, allows machine machine
  trans : ∀ {first second third}, allows first second → allows second third → allows first third

namespace Eval

variable {α β : Type}

/-! ### The machine behind a step -/

/-- The machine a step leaves behind. -/
def after (step : Eval α) (machine : Machine) : Machine :=
  match step machine with
  | .ok _ machine => machine
  | .error _ machine => machine

/-- Behind a step that yields a value stands the machine it yields it with. -/
theorem after_of_ok {step : Eval α} {machine middle : Machine} {value : α}
    (yields : step machine = .ok value middle) : step.after machine = middle := by
  rw [after, yields]

/-- Behind a step that is interrupted stands the machine it is interrupted with. -/
theorem after_of_error {step : Eval α} {machine middle : Machine} {interrupt : Interrupt}
    (stops : step machine = .error interrupt middle) : step.after machine = middle := by
  rw [after, stops]

theorem newChild_apply (parent : ScopeId) (machine : Machine) :
    newChild parent machine =
      .ok machine.store.scopes.size { machine with store := (machine.store.newChild parent).2 } :=
  rfl

theorem define_apply (scope : ScopeId) (binding : Binding) (machine : Machine) :
    define scope binding machine =
      .ok () { machine with store := machine.store.define scope binding } := rfl

/-- An assignment writes to the scope the name leads to, or fails and leaves the machine as it is.
-/
theorem assign_apply (context : Context) (scope : ScopeId) (name : String) (value : Value)
    (position : Position) (machine : Machine) :
    assign context scope name value position machine =
      match machine.store.target scope name with
      | .ok found => .ok () { machine with store := machine.store.write found name value }
      | .error fault => fail (assignFault context name fault) position machine := by
  rw [assign, EStateM.bind_of_ok (EStateM.get_apply machine)]
  cases machine.store.target scope name with
  | ok found => rfl
  | error fault => rfl

/-- A builtin is run on the sink alone. -/
theorem callBuiltin_apply (builtin : Builtin) (arguments : List Value) (position : Position)
    (machine : Machine) :
    callBuiltin builtin arguments position machine =
      match builtin.run arguments machine.sink with
      | .ok value sink => .ok value { machine with sink }
      | .error fault sink => .error (.fault ⟨fault, some position⟩) { machine with sink } := rfl

/-! ### Steps made of steps -/

/-- The step has the effect from every machine. -/
def Has (effect : Effect) (step : Eval α) : Prop :=
  ∀ machine, effect.allows machine (step.after machine)

/-- What one step and then the next do to a machine is allowed if what each does is. -/
theorem allows_bind (effect : Effect) {step : Eval α} {next : α → Eval β} {machine : Machine}
    (first : effect.allows machine (step.after machine))
    (second : ∀ value middle, step machine = .ok value middle →
      effect.allows middle ((next value).after middle)) :
    effect.allows machine ((step >>= next).after machine) := by
  cases result : step machine with
  | ok value middle =>
    rw [after_of_ok result] at first
    have rest := second value middle result
    rw [after, EStateM.bind_of_ok result]
    exact effect.trans first rest
  | error interrupt middle =>
    rw [after_of_error result] at first
    rw [after_of_error (EStateM.bind_of_error result)]
    exact first

namespace Has

variable {effect : Effect}

theorem pure (value : α) : (pure value : Eval α).Has effect :=
  fun machine => effect.refl machine

/-- Sequences have the effects of their parts, also when the first part is interrupted. -/
theorem bind {step : Eval α} {next : α → Eval β} (first : step.Has effect)
    (second : ∀ value, (next value).Has effect) : (step >>= next).Has effect :=
  fun machine => allows_bind effect (first machine) fun value middle _ => second value middle

theorem get : (get : Eval Machine).Has effect :=
  fun machine => effect.refl machine

/-- A fault leaves the machine as it is. -/
theorem fail (fault : RuntimeFault) (position : Position) :
    (fail fault position : Eval α).Has effect :=
  fun machine => effect.refl machine

theorem failNowhere (fault : RuntimeFault) : (failNowhere fault : Eval α).Has effect :=
  fun machine => effect.refl machine

theorem resultAt (position : Position) (result : Except RuntimeFault α) :
    (resultAt position result).Has effect := by
  cases result with
  | ok value => exact pure value
  | error fault => exact fail fault position

/-- What a call makes of a signal leaves the machine as it is. -/
theorem callResult (signal : Signal) : (callResult signal).Has effect := by
  cases signal with
  | normal => exact pure _
  | returning value => exact pure value
  | breaking position => exact fail _ position
  | continuing position => exact fail _ position

/-- Looking a name up leaves the machine as it is. -/
theorem lookup? (context : Context) (scope : ScopeId) (name : String) :
    (lookup? context scope name).Has effect := by
  refine bind get fun machine => ?_
  cases machine.store.get? scope name with
  | some value => exact pure _
  | none => exact pure _

theorem readName (context : Context) (scope : ScopeId) (name : String) (position : Position) :
    (readName context scope name position).Has effect := by
  refine bind (lookup? context scope name) fun found => ?_
  cases found with
  | some value => exact pure value
  | none => exact fail _ position

end Has

end Eval

end Scriptlet
