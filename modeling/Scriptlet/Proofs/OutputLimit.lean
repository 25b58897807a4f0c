/-
This file proves that a sink with a limit cuts a run at exactly the byte it refuses. The
limit is a restraint: as long as all that has been written fits, the run does what it does
with a sink that takes everything. The first text that does not fit leaves the bytes that
do, so the sink is full to the byte, and the run ends there.
-/

import Scriptlet.Proofs.EntryCall
import Scriptlet.Proofs.Interruption
import Scriptlet.Proofs.Restraint

namespace ByteArray

theorem extract_of_size_le {bytes : ByteArray} {count : Nat} (short : bytes.size ≤ count) :
    bytes.extract 0 count = bytes := by
  have whole : max count bytes.size = count := Nat.max_eq_left short
  rw [← whole]
  exact extract_zero_max_size

/-- What is added behind the front does not belong to it. -/
theorem extract_append_of_le {bytes more : ByteArray} {count : Nat}
    (long : count ≤ bytes.size) : (bytes ++ more).extract 0 count = bytes.extract 0 count := by
  have none : count - bytes.size = 0 := Nat.sub_eq_zero_of_le long
  rw [extract_append, none, Nat.zero_sub, extract_same, append_empty]

end ByteArray

namespace Scriptlet

/-! ### The restraint of a full sink -/

namespace Sink

/-- The sink that takes no more than some bytes and then fails with a message. -/
def limitedTo (sink : Sink) (limit : Nat) (message : String) : Sink :=
  { sink with limit := some limit, failure := message }

variable {sink : Sink} {limit : Nat} {message : String}

/-- A text that fits is written as to a sink without a limit. -/
theorem write_limitedTo_of_fits {text : String}
    (fits : sink.written.size + text.toUTF8.size ≤ limit) :
    write text (sink.limitedTo limit message) =
      .ok () ((sink.appending text.toUTF8).limitedTo limit message) := by
  have taken : (sink.limitedTo limit message).fits text.toUTF8 = true :=
    decide_eq_true (Nat.le_sub_of_add_le' fits)
  rw [write_apply, if_pos taken, take, accepted_of_fits _ _ taken]
  rfl

/-- A text that does not fit fills the sink. -/
theorem write_limitedTo_of_not_fits {text : String} (message : String)
    (room : sink.written.size ≤ limit)
    (overfull : limit < sink.written.size + text.toUTF8.size) :
    ∃ full, write text (sink.limitedTo limit message) = .error (.output message) full ∧
      full.written = (sink.written ++ text.toUTF8).extract 0 limit := by
  have little : ¬ text.toUTF8.size ≤ limit - sink.written.size := by omega
  have refused : (sink.limitedTo limit message).fits text.toUTF8 ≠ true :=
    Bool.eq_false_iff.mp (decide_eq_false little)
  refine ⟨(sink.limitedTo limit message).take text.toUTF8, ?_, ?_⟩
  · rw [write_apply, if_neg refused]
    rfl
  · rw [ByteArray.extract_append, ByteArray.extract_of_size_le room, Nat.zero_sub, written_take,
      accepted, if_neg refused]
    rfl

end Sink

/-- Runs with a sink of a limited size and with one that takes everything. -/
def Restraint.ofOutput (limit : Nat) (message : String) : Restraint where
  along held free :=
    free.limit = none ∧ free.written.size ≤ limit ∧ held = free.limitedTo limit message
  stopped interrupt held free :=
    (∃ position, interrupt = .fault ⟨.output message, some position⟩) ∧
      limit < free.written.size ∧ held.written = free.written.extract 0 limit
  lasting := by
    rintro interrupt held free later ⟨failed, overfull, full⟩ ⟨bytes, rfl⟩
    have more : free.written.size ≤ (free.written ++ bytes).size := by
      rw [ByteArray.size_append]
      exact Nat.le_add_right _ _
    refine ⟨failed, Nat.lt_of_lt_of_le overfull more, full.trans ?_⟩
    exact (ByteArray.extract_append_of_le (Nat.le_of_lt overfull)).symm

theorem Restraint.governs_ofOutput (context : Context) (limit : Nat) (message : String) :
    (ofOutput limit message).Governs context context where
  write position text := by
    rintro machine sink ⟨unlimited, room, rfl⟩
    have size : (machine.sink.written ++ text.toUTF8).size =
        machine.sink.written.size + text.toUTF8.size := ByteArray.size_append
    have free : Eval.write position text machine =
        .ok () { machine with sink := machine.sink.appending text.toUTF8 } :=
      Eval.onSink_of_ok (Sink.write_of_unlimited unlimited text)
    rw [free]
    by_cases fits : machine.sink.written.size + text.toUTF8.size ≤ limit
    · have held : Eval.write position text
            { machine with sink := machine.sink.limitedTo limit message } =
          .ok () { machine with
            sink := (machine.sink.appending text.toUTF8).limitedTo limit message } :=
        Eval.onSink_of_ok (Sink.write_limitedTo_of_fits fits)
      rw [held]
      exact Or.inl ⟨_, ⟨unlimited, size ▸ fits, rfl⟩, rfl⟩
    · have overfull := Nat.lt_of_not_le fits
      obtain ⟨full, refused, filled⟩ := Sink.write_limitedTo_of_not_fits message room overfull
      have held : Eval.write position text
            { machine with sink := machine.sink.limitedTo limit message } =
          .error (.fault ⟨.output message, some position⟩) { machine with sink := full } :=
        Eval.onSink_of_error refused
      rw [held]
      exact Or.inr ⟨_, _, rfl, ⟨position, rfl⟩, size ▸ overfull, filled⟩
  allowCall := by
    intro machine sink along
    rw [Eval.allowCall_apply, Eval.allowCall_apply]
    by_cases refused : context.maxDepth ≤ machine.depth
    · rw [if_pos refused, if_pos refused]
      exact Or.inl ⟨sink, along, rfl⟩
    · rw [if_neg refused, if_neg refused]
      exact Or.inl ⟨sink, along, rfl⟩

/-! ### Runs -/

/-- All that has been written when a run has ended. -/
def Interpreter.Run.output {α : Type} (run : Run α) : ByteArray :=
  run.interpreter.machine.sink.written

/-- An entry call with a sink of a limited size follows the call with one that takes everything. -/
theorem Interpreter.entryCall?_limited (program : Program) (config : Config) (budget limit : Nat)
    (message : String) {outcome : Outcome Value}
    (called : (new config {}).entryCall? budget program = some outcome) :
    ∃ cut, (new config { limit := some limit, failure := message }).entryCall? budget program =
      some cut ∧ (Restraint.ofOutput limit message).Follows cut outcome := by
  obtain ⟨entry, present, came⟩ := Option.map_eq_some_iff.mp called
  refine ⟨_, Option.map_eq_some_iff.mpr ⟨entry, present, rfl⟩, ?_⟩
  rw [← came]
  exact Task.perform_under (Restraint.governs_ofOutput _ limit message) budget
    (.callClosure entry [] entry.procedure.position) ((new config {}).load program).machine
    (Sink.limitedTo {} limit message) ⟨rfl, Nat.zero_le limit, rfl⟩

/-- With every budget: a run whose output fits into a sink of a limited size does what it does with
a sink that takes everything. If the output does not fit, the run ends with the failure of the
sink, which holds exactly the bytes at the front of the output; and behind the step that failed
nothing is written and no task is started. -/
theorem output_cut_at_limit (program : Program) (config : Config) (budget limit : Nat)
    (message : String) :
    let free := (Interpreter.new config {}).run budget program
    let limited := Interpreter.new config { limit := some limit, failure := message }
    let held := limited.run budget program
    (free.output.size ≤ limit → held.outcome = free.outcome ∧ held.output = free.output) ∧
    (limit < free.output.size → held.output = free.output.extract 0 limit ∧
      ∃ position, held.outcome = .error (.fault ⟨.output message, some position⟩)) ∧
    Unwinding (limited.timeline budget program) := by
  intro free limited held
  refine and_assoc.mp ⟨?_, limited.timeline_unwinding budget program⟩
  cases called : (Interpreter.new config {}).entryCall? budget program with
  | none =>
    have calledCut : limited.entryCall? budget program = none :=
      Option.map_eq_none_iff.mpr (Option.map_eq_none_iff.mp called)
    have freeRun : free = _ := Interpreter.run_of_entryCall?_none called
    have heldRun : held = _ := Interpreter.run_of_entryCall?_none calledCut
    rw [freeRun, heldRun]
    exact ⟨fun _ => ⟨rfl, rfl⟩, fun overfull => absurd overfull (Nat.not_lt_zero limit)⟩
  | some outcome =>
    obtain ⟨cut, calledCut, follows⟩ :=
      Interpreter.entryCall?_limited program config budget limit message called
    have freeRun : free = _ := Interpreter.run_of_entryCall?_some rfl called
    have heldRun : held = _ := Interpreter.run_of_entryCall?_some rfl calledCut
    rw [freeRun, heldRun]
    rcases follows with
      ⟨sink, ⟨-, room, rfl⟩, rfl⟩ | ⟨interrupt, last, rfl, ⟨position, rfl⟩, overfull, full⟩
    · refine ⟨fun _ => ?_, fun overfull => absurd room (Nat.not_le_of_lt overfull)⟩
      cases outcome with
      | ok value machine => exact ⟨rfl, rfl⟩
      | error interrupt machine => exact ⟨rfl, rfl⟩
    · exact ⟨fun room => absurd room (Nat.not_le_of_lt overfull), fun _ => ⟨full, position, rfl⟩⟩

/-- A program that writes four bytes: `ab`, `c` and a line break. -/
def writingProgram : Program :=
  ⟨[⟨"main", [],
    [.evaluate (.call (.identifier "print" ⟨1, 15⟩) [.literal (.str "ab") ⟨1, 21⟩] ⟨1, 20⟩) ⟨1, 15⟩,
      .evaluate (.call (.identifier "println" ⟨1, 28⟩) [.literal (.str "c") ⟨1, 36⟩] ⟨1, 35⟩)
        ⟨1, 28⟩], ⟨1, 1⟩⟩]⟩

/-- A sink for four bytes takes them all, and a sink for three leaves the line break out. -/
theorem output_cut_at_limit_writing :
    let free := (Interpreter.new ⟨"main", 9⟩ {}).run 20 writingProgram
    let ample := (Interpreter.new ⟨"main", 9⟩ { limit := some 4, failure := "full" }).run 20
      writingProgram
    let tight := (Interpreter.new ⟨"main", 9⟩ { limit := some 3, failure := "full" }).run 20
      writingProgram
    free.output.size = 4 ∧ (ample.outcome = free.outcome ∧ ample.output = free.output) ∧
      tight.output = free.output.extract 0 3 ∧
      ∃ position, tight.outcome = .error (.fault ⟨.output "full", some position⟩) := by
  intro free ample tight
  have size : free.output.size = 4 := by decide +kernel
  have ampleRun := output_cut_at_limit writingProgram ⟨"main", 9⟩ 20 4 "full"
  have tightRun := output_cut_at_limit writingProgram ⟨"main", 9⟩ 20 3 "full"
  exact ⟨size, ampleRun.1 (Nat.le_of_eq size),
    tightRun.2.1 (Nat.lt_of_lt_of_eq (by decide) size.symm)⟩

end Scriptlet
