/-
This file looks at a run as the call of its entry procedure and a flush behind it. Output
that can be flushed is left alone by the flush, so such a run comes to what the call comes
to. A flush that fails leaves the machine alone, too, and the run ends with an error of the
output.
-/

import Scriptlet.Interpreter
import Scriptlet.Proofs.Assembly

namespace Scriptlet

/-- The value or the interrupt of an outcome. -/
def Outcome.result {α : Type} : Outcome α → Except Interrupt α
  | .ok value _ => .ok value
  | .error interrupt _ => .error interrupt

namespace Interpreter

/-- What the call of a program's entry procedure comes to, if there is one. -/
def entryCall? (interpreter : Interpreter) (budget : Nat) (program : Program) :
    Option (Outcome Value) :=
  let loaded := interpreter.load program
  (loaded.procedures.find? loaded.config.entry).map fun entry =>
    Eval.callClosure loaded.context budget entry [] entry.procedure.position loaded.machine

theorem run_of_entryCall?_none {interpreter : Interpreter} {budget : Nat} {program : Program}
    (missing : interpreter.entryCall? budget program = none) :
    interpreter.run budget program =
      ⟨.error (.fault ⟨.missingEntryPoint interpreter.config.entry, none⟩),
        interpreter.load program⟩ := by
  have absent := Option.map_eq_none_iff.mp missing
  rw [run, absent]
  rfl

theorem flush_of_none {position : Position} {machine : Machine}
    (calm : machine.sink.flushFailure = none) : flush position machine = .ok () machine := by
  have flushed : Sink.flush machine.sink = .ok () machine.sink := by
    rw [Sink.flush, EStateM.bind_of_ok (EStateM.get_apply machine.sink), calm]
    rfl
  rw [flush, flushed]

/-- A call does not change whether its output can be flushed. -/
theorem flushFailure_callClosure {context : Context} {budget : Nat} {closure : Closure}
    {arguments : List Value} {position : Position} {machine : Machine} {outcome : Outcome Value}
    (came : Eval.callClosure context budget closure arguments position machine = outcome) :
    outcome.machine.sink.flushFailure = machine.sink.flushFailure := by
  obtain ⟨⟨bytes, added⟩, -⟩ :=
    Task.perform_appends context budget (.callClosure closure arguments position) machine
  have same : outcome.machine.sink = machine.sink.appending bytes := by
    rw [← came]
    exact added
  rw [same]
  rfl

/-- With output that can be flushed the entry call is all there is. -/
theorem runEntry_of_calm {machine : Machine} (calm : machine.sink.flushFailure = none)
    (budget : Nat) (entry : Closure) (context : Context) :
    runEntry budget entry context machine =
      Eval.callClosure context budget entry [] entry.procedure.position machine := by
  unfold runEntry
  dsimp only
  cases came : Eval.callClosure context budget entry [] entry.procedure.position machine with
  | ok value later =>
    have flushed : flush entry.procedure.position later = .ok () later :=
      flush_of_none ((flushFailure_callClosure came).trans calm)
    show (flush entry.procedure.position >>= fun _ => pure value) later = _
    rw [EStateM.bind_of_ok flushed]
    rfl
  | error interrupt later =>
    cases interrupt with
    | exhausted => rfl
    | fault error =>
      have flushed : flush entry.procedure.position later = .ok () later :=
        flush_of_none ((flushFailure_callClosure came).trans calm)
      show (flush entry.procedure.position >>= fun _ =>
        (throw (.fault error) : Eval Value)) later = _
      rw [EStateM.bind_of_ok flushed]
      rfl

/-- A run whose output can be flushed comes to what its entry call comes to. -/
theorem run_of_entryCall?_some {interpreter : Interpreter} {budget : Nat} {program : Program}
    {outcome : Outcome Value} (calm : interpreter.machine.sink.flushFailure = none)
    (called : interpreter.entryCall? budget program = some outcome) :
    interpreter.run budget program =
      ⟨outcome.result, { interpreter.load program with machine := outcome.machine }⟩ := by
  obtain ⟨entry, present, came⟩ := Option.map_eq_some_iff.mp called
  have loaded : (interpreter.load program).machine.sink.flushFailure = none := calm
  have ran := (runEntry_of_calm loaded budget entry (interpreter.load program).context).trans came
  rw [run, present]
  dsimp only
  rw [perform, EStateM.run, ran]
  cases outcome with
  | ok value machine => rfl
  | error interrupt machine => rfl

/-! ### Output that cannot be flushed -/

/-- A flush changes nothing, and its failure tells of the output. -/
theorem flush_cases (position : Position) (machine : Machine) :
    flush position machine = .ok () machine ∨
      ∃ details, flush position machine =
        .error (.fault ⟨.output details, some position⟩) machine := by
  unfold flush Sink.flush
  rw [EStateM.bind_of_ok (EStateM.get_apply machine.sink)]
  cases machine.sink.flushFailure with
  | none => exact Or.inl rfl
  | some details => exact Or.inr ⟨details, rfl⟩

/-- The entry call is all there is, or the flush behind it fails. -/
theorem runEntry_cases {context : Context} {budget : Nat} {entry : Closure} {machine : Machine}
    {outcome : Outcome Value}
    (came : Eval.callClosure context budget entry [] entry.procedure.position machine = outcome) :
    runEntry budget entry context machine = outcome ∨
      ∃ details, runEntry budget entry context machine =
        .error (.fault ⟨.output details, some entry.procedure.position⟩) outcome.machine := by
  unfold runEntry
  dsimp only
  rw [came]
  rcases flush_cases entry.procedure.position outcome.machine with flushed | ⟨details, failed⟩
  · refine Or.inl ?_
    cases outcome with
    | ok value later => exact EStateM.bind_of_ok flushed
    | error interrupt later =>
      cases interrupt with
      | exhausted => rfl
      | fault error => exact EStateM.bind_of_ok flushed
  · cases outcome with
    | ok value later => exact Or.inr ⟨details, EStateM.bind_of_error failed⟩
    | error interrupt later =>
      cases interrupt with
      | exhausted => exact Or.inl rfl
      | fault error => exact Or.inr ⟨details, EStateM.bind_of_error failed⟩

/-- A run leaves the machine as its entry call does, and comes to what the call comes to unless
the output fails. -/
theorem run_cases_of_entryCall?_some {interpreter : Interpreter} {budget : Nat} {program : Program}
    {outcome : Outcome Value} (called : interpreter.entryCall? budget program = some outcome) :
    (interpreter.run budget program).interpreter =
      { interpreter.load program with machine := outcome.machine } ∧
    ((interpreter.run budget program).outcome = outcome.result ∨
      ∃ details position, (interpreter.run budget program).outcome =
        .error (.fault ⟨.output details, some position⟩)) := by
  obtain ⟨entry, present, came⟩ := Option.map_eq_some_iff.mp called
  rw [run, present]
  dsimp only
  unfold perform EStateM.run
  rcases runEntry_cases came with same | ⟨details, failed⟩
  · rw [same]
    cases outcome with
    | ok value machine => exact ⟨rfl, Or.inl rfl⟩
    | error interrupt machine => exact ⟨rfl, Or.inl rfl⟩
  · rw [failed]
    exact ⟨rfl, Or.inr ⟨details, _, rfl⟩⟩

end Interpreter

end Scriptlet
