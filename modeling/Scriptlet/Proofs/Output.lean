/-
This file says how output comes about. A write adds to a sink as much of its text as the
sink takes, so a sink is only ever extended. A builtin writes some texts, one after the
other, and then comes to a result that does not depend on the sink; so a call of a builtin
is a few writes and a step that has nothing to do with output.
-/

import Scriptlet.Proofs.Effect

namespace Scriptlet

/-! ### Sinks -/

namespace Sink

/-- The sink with more bytes. -/
def appending (sink : Sink) (bytes : ByteArray) : Sink :=
  { sink with written := sink.written ++ bytes }

/-- A sink afterwards: some bytes have been added, at the end. -/
def Extends (before after : Sink) : Prop :=
  ∃ bytes, after = before.appending bytes

theorem appending_appending (sink : Sink) (first second : ByteArray) :
    (sink.appending first).appending second = sink.appending (first ++ second) := by
  simp only [appending, ByteArray.append_assoc]

theorem appending_empty (sink : Sink) : sink.appending .empty = sink := by
  simp only [appending, ByteArray.append_empty]

namespace Extends

theorem refl (sink : Sink) : sink.Extends sink :=
  ⟨.empty, sink.appending_empty.symm⟩

theorem trans {first second third : Sink} (earlier : first.Extends second)
    (later : second.Extends third) : first.Extends third := by
  obtain ⟨front, rfl⟩ := earlier
  obtain ⟨back, rfl⟩ := later
  exact ⟨front ++ back, appending_appending first front back⟩

end Extends

theorem write_apply (text : String) (sink : Sink) :
    write text sink =
      if sink.fits text.toUTF8 then .ok () (sink.take text.toUTF8)
      else .error (.output sink.failure) (sink.take text.toUTF8) := by
  show (if !sink.fits text.toUTF8 then _ else _ : EStateM RuntimeFault Sink Unit)
    (sink.take text.toUTF8) = _
  cases sink.fits text.toUTF8 with
  | true => rfl
  | false => rfl

/-- A sink without a limit takes every text. -/
theorem write_of_unlimited {sink : Sink} (unlimited : sink.limit = none) (text : String) :
    write text sink = .ok () (sink.appending text.toUTF8) := by
  have fits := fits_of_unlimited sink text.toUTF8 unlimited
  rw [write_apply, if_pos fits, take, accepted_of_fits sink text.toUTF8 fits]
  rfl

/-- What a sink without a limit has taken is followed by the text. -/
theorem write_appending {sink : Sink} (unlimited : sink.limit = none) (bytes : ByteArray)
    (text : String) :
    write text (sink.appending bytes) = .ok () (sink.appending (bytes ++ text.toUTF8)) := by
  have stillUnlimited : (sink.appending bytes).limit = none := unlimited
  rw [write_of_unlimited stillUnlimited, appending_appending]

end Sink

/-! ### Builtins -/

namespace Builtin

/-- The texts that a builtin writes. -/
def texts : Builtin → List Value → List String
  | .variadic .print, values => [Value.line values]
  | .variadic .println, values => [Value.line values, "\n"]
  | _, _ => []

/-- What a builtin comes to once it has written its texts. -/
def result : Builtin → List Value → Except RuntimeFault Value
  | .variadic .list, values => .ok (.list values)
  | .variadic _, _ => .ok .void
  | .single builtin, [value] => builtin.apply value
  | .single builtin, values =>
    .error (.arityMismatch (Builtin.single builtin).name 1 values.length)

end Builtin

namespace Eval

variable {α β : Type}

/-- Takes a step on the sink; a failure is reported at a place. -/
def onSink (position : Position) (step : EStateM RuntimeFault Sink α) : Eval α := fun machine =>
  match step machine.sink with
  | .ok value sink => .ok value { machine with sink }
  | .error fault sink => .error (.fault ⟨fault, some position⟩) { machine with sink }

theorem onSink_of_ok {position : Position} {step : EStateM RuntimeFault Sink α} {machine : Machine}
    {value : α} {sink : Sink} (yields : step machine.sink = .ok value sink) :
    onSink position step machine = .ok value { machine with sink } := by
  rw [onSink, yields]

theorem onSink_of_error {position : Position} {step : EStateM RuntimeFault Sink α}
    {machine : Machine} {fault : RuntimeFault} {sink : Sink}
    (stops : step machine.sink = .error fault sink) :
    onSink position step machine =
      .error (.fault ⟨fault, some position⟩) { machine with sink } := by
  rw [onSink, stops]

theorem onSink_bind (position : Position) (step : EStateM RuntimeFault Sink α)
    (next : α → EStateM RuntimeFault Sink β) :
    onSink position (step >>= next) =
      onSink position step >>= fun value => onSink position (next value) := by
  funext machine
  cases came : step machine.sink with
  | ok value sink =>
    rw [EStateM.bind_of_ok (onSink_of_ok came), onSink, EStateM.bind_of_ok came]
    rfl
  | error fault sink =>
    rw [EStateM.bind_of_error (onSink_of_error came), onSink, EStateM.bind_of_error came]

/-- Writes a text. -/
def write (position : Position) (text : String) : Eval Unit :=
  onSink position (Sink.write text)

/-- Writes texts, one after the other. -/
def writeAll (position : Position) : List String → Eval Unit
  | [] => pure ()
  | text :: rest => write position text >>= fun _ => writeAll position rest

/-- A call of a builtin writes the builtin's texts and then comes to its result. -/
theorem callBuiltin_eq (builtin : Builtin) (arguments : List Value) (position : Position) :
    callBuiltin builtin arguments position =
      writeAll position (builtin.texts arguments) >>= fun _ =>
        resultAt position (builtin.result arguments) := by
  have lifted : callBuiltin builtin arguments position =
      onSink position (builtin.run arguments) := by
    funext machine
    rw [callBuiltin_apply, onSink]
    cases builtin.run arguments machine.sink with
    | ok value sink => rfl
    | error fault sink => rfl
  rw [lifted]
  rcases builtin with builtin | builtin
  · cases builtin with
    | list => rfl
    | print =>
      simp only [Builtin.run, VariadicBuiltin.run, Builtin.texts, writeAll, onSink_bind, bind_assoc,
        pure_bind]
      rfl
    | println =>
      simp only [Builtin.run, VariadicBuiltin.run, Builtin.texts, writeAll, onSink_bind, bind_assoc,
        pure_bind]
      rfl
  · match arguments with
    | [] => rfl
    | [value] =>
      rw [Builtin.run, Builtin.result]
      cases builtin.apply value with
      | ok result => rfl
      | error fault => rfl
    | first :: second :: rest => rfl

end Eval

end Scriptlet
