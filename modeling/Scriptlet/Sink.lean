/-
This file defines where output goes. A sink keeps the bytes it was given. It may
accept only so many: a write that does not fit leaves the bytes that do, and
then fails. It may also refuse to be flushed.

A program cannot look at a sink, and it is over with the first write that fails: no
task goes on behind a fault. Until then every write has taken all of its bytes, and
empty writes ask nothing of the sink. So all that one run can tell of whatever takes
its output is how many bytes were taken when a write first failed, with what text,
and whether the flush at the end fails, with what text. A limit and two texts stand
for every writer that one run can tell apart; a writer that would answer later
writes in some other way is never asked.
-/

import Scriptlet.RuntimeError

namespace Scriptlet

/-- Collected output and when it fails. -/
structure Sink where
  written : ByteArray := .empty
  limit : Option Nat := none
  failure : String := "failed to write whole buffer"
  flushFailure : Option String := none

namespace Sink

/-- The number of bytes a sink still takes, if it is limited. -/
def room? (sink : Sink) : Option Nat :=
  sink.limit.map fun limit => limit - sink.written.size

/-- Whether a sink takes all bytes of a write. -/
def fits (sink : Sink) (bytes : ByteArray) : Bool :=
  match sink.room? with
  | none => true
  | some room => bytes.size ≤ room

/-- The bytes of a write that a sink still takes. -/
def accepted (sink : Sink) (bytes : ByteArray) : ByteArray :=
  if sink.fits bytes then bytes else bytes.extract 0 (sink.room?.getD 0)

/-- The sink with as many bytes of a write as it takes. -/
def take (sink : Sink) (bytes : ByteArray) : Sink :=
  let accepted := sink.accepted bytes
  { sink with written := sink.written ++ accepted }

theorem accepted_of_fits (sink : Sink) (bytes : ByteArray) (fits : sink.fits bytes = true) :
    sink.accepted bytes = bytes := by
  rw [accepted, if_pos fits]

theorem fits_of_unlimited (sink : Sink) (bytes : ByteArray) (unlimited : sink.limit = none) :
    sink.fits bytes = true := by
  simp [fits, room?, unlimited]

theorem written_take (sink : Sink) (bytes : ByteArray) :
    (sink.take bytes).written = sink.written ++ sink.accepted bytes := rfl

/-- Writes a text. -/
def write (text : String) : EStateM RuntimeFault Sink Unit := do
  let fits := (← get).fits text.toUTF8
  modify fun sink => sink.take text.toUTF8
  if !fits then throw (.output (← get).failure)

/-- Flushes a sink. -/
def flush : EStateM RuntimeFault Sink Unit := do
  match (← get).flushFailure with
  | some details => throw (.output details)
  | none => pure ()

end Sink

end Scriptlet
