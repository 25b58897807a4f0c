/-
This file proves that layout does not matter. Two texts with the same tokens either both
have no program, for the same reason, or have programs that differ in places only. Runs
of two such programs end together, write the same bytes and come to the same value or
the same fault. Only the places that are reported may differ.
-/

import Scriptlet.Proofs.Layout.Running

namespace Scriptlet

/-! ### Interpreters -/

instance : Placing Interpreter :=
  ⟨fun interpreter =>
    { interpreter with
      procedures := bare interpreter.procedures
      machine := bare interpreter.machine }⟩

instance {α : Type} [Placing α] : Placing (Interpreter.Run α) :=
  ⟨fun run => ⟨bare run.outcome, bare run.interpreter⟩⟩

theorem ProcedureTable.build_bare (identity : Nat) (scope : ScopeId)
    (procedures : List Procedure) :
    build identity scope (bare procedures) = bare (build identity scope procedures) := by
  have entries : ((procedures.map Placing.bare).mapIdx fun place procedure =>
      (⟨identity + place, procedure, scope⟩ : Closure)) =
      (procedures.mapIdx fun place procedure =>
        (⟨identity + place, procedure, scope⟩ : Closure)).map Placing.bare := by
    refine List.mapIdx_eq_iff.mpr fun place => ?_
    rw [List.getElem?_map, List.getElem?_mapIdx, List.getElem?_map]
    cases procedures[place]? <;> rfl
  show (⟨((procedures.map Placing.bare).mapIdx _).reverse⟩ : ProcedureTable) = _
  rw [entries, ← List.map_reverse]
  rfl

namespace Interpreter

theorem load_bare (interpreter : Interpreter) (program : Program) :
    (bare interpreter).load (bare program) = bare (interpreter.load program) := by
  have table := ProcedureTable.build_bare interpreter.machine.closures interpreter.globals
    program.procedures
  have count : (bare program).procedures.length = program.procedures.length :=
    length_bare program.procedures
  show { interpreter with
    procedures := ProcedureTable.build interpreter.machine.closures interpreter.globals
      (bare program.procedures)
    machine := { bare interpreter.machine with
      closures := interpreter.machine.closures + (bare program).procedures.length } } = _
  rw [table, count]
  rfl

theorem alike_flush (position : Position) : Alike (flush position) (flush .nowhere) := by
  intro machine
  have sameSink : (bare machine).sink = machine.sink := rfl
  unfold flush
  rw [sameSink]
  cases Sink.flush machine.sink <;> rfl

theorem alike_runEntry (budget : Nat) (entry : Closure) (context : Context) :
    Alike (runEntry budget entry context) (runEntry budget (bare entry) (bare context)) := by
  intro machine
  have called : Eval.callClosure (bare context) budget (bare entry) [] .nowhere (bare machine) =
      bare (Eval.callClosure context budget entry [] entry.procedure.position machine) :=
    Task.perform_alike context budget (.callClosure entry [] entry.procedure.position) machine
  have samePosition : (bare entry).procedure.position = .nowhere :=
    Procedure.position_bare entry.procedure
  unfold runEntry
  simp only [samePosition, called]
  cases Eval.callClosure context budget entry [] entry.procedure.position machine with
  | ok value later =>
    have flushed : Alike (flush entry.procedure.position >>= fun _ => pure value)
        (flush .nowhere >>= fun _ => pure (bare value)) :=
      (alike_flush _).bind fun _ => AlikeBy.pure rfl
    exact flushed later
  | error interrupt later =>
    cases interrupt with
    | exhausted => rfl
    | fault error =>
      have flushed : Alike
          (flush entry.procedure.position >>= fun _ => (throw (.fault error) : Eval Value))
          (flush .nowhere >>= fun _ => throw (.fault (bare error))) :=
        (alike_flush _).bind fun _ => AlikeBy.throw rfl
      exact flushed later

theorem perform_bare {α : Type} [Placing α] (interpreter : Interpreter)
    {step other : Context → Eval α} (alike : Alike (step interpreter.context)
      (other (bare interpreter.context))) :
    (bare interpreter).perform other = bare (interpreter.perform step) := by
  have sameContext : (bare interpreter).context = bare interpreter.context := rfl
  have sameMachine : (bare interpreter).machine = bare interpreter.machine := rfl
  have came := alike interpreter.machine
  unfold perform
  simp only [sameContext, sameMachine, EStateM.run, came]
  cases step interpreter.context interpreter.machine <;> rfl

/-- A run of a program without places is a run of the program, up to places. -/
theorem run_bare (interpreter : Interpreter) (budget : Nat) (program : Program) :
    (bare interpreter).run budget (bare program) = bare (interpreter.run budget program) := by
  have sameEntry : (bare (interpreter.load program)).procedures.find?
      (interpreter.load program).config.entry =
      bare ((interpreter.load program).procedures.find? (interpreter.load program).config.entry) :=
    ProcedureTable.find?_bare _ _
  have sameConfig : (bare (interpreter.load program)).config =
      (interpreter.load program).config := rfl
  unfold run
  simp only [load_bare, sameConfig, sameEntry]
  cases (interpreter.load program).procedures.find? (interpreter.load program).config.entry with
  | none => rfl
  | some entry => exact perform_bare _ (alike_runEntry budget entry _)

end Interpreter

/-! ### Texts -/

/-- The tokens of a text without their places, or why it has none. -/
def Token.stream (source : String) : Except ParseFault (List Token) :=
  match Token.scan source with
  | .ok tokens => .ok (Placed.tokens tokens)
  | .error error => .error error.fault

instance decidableEqStream : DecidableEq (Except ParseFault (List Token)) := fun first second =>
  match first, second with
  | .ok first, .ok second => decidable_of_iff (first = second) ⟨congrArg _, Except.ok.inj⟩
  | .error first, .error second => decidable_of_iff (first = second) ⟨congrArg _, Except.error.inj⟩
  | .ok _, .error _ => .isFalse nofun
  | .error _, .ok _ => .isFalse nofun

/-- Errors with one fault, and so with one wording. -/
def ParseError.Agrees (first second : ParseError) : Prop :=
  first.fault = second.fault ∧ first.message = second.message

/-- Outcomes of two runs that differ in places at most. -/
def OutcomesAgree : Except Interrupt Value → Except Interrupt Value → Prop
  | .ok first, .ok second => bare first = bare second ∧ first.display = second.display
  | .error (.fault first), .error (.fault second) =>
    first.fault = second.fault ∧ first.message = second.message
  | .error .exhausted, .error .exhausted => True
  | _, _ => False

/-- Both texts have no program, for one reason, or both have one; then the programs differ in
places only, and so do all their runs. -/
def BehaveAlike (first second : String) : Prop :=
  (∃ firstError secondError, Program.ofText first = .error firstError ∧
    Program.ofText second = .error secondError ∧ firstError.Agrees secondError) ∨
  ∃ firstProgram secondProgram, Program.ofText first = .ok firstProgram ∧
    Program.ofText second = .ok secondProgram ∧ bare firstProgram = bare secondProgram ∧
    ∀ (config : Config) (sink : Sink) (budget : Nat),
      let firstRun := (Interpreter.new config sink).run budget firstProgram
      let secondRun := (Interpreter.new config sink).run budget secondProgram
      firstRun.interpreter.machine.sink = secondRun.interpreter.machine.sink ∧
        OutcomesAgree firstRun.outcome secondRun.outcome

theorem outcomesAgree_of_bare {first second : Except Interrupt Value}
    (same : bare first = bare second) : OutcomesAgree first second := by
  match first, second with
  | .ok first, .ok second =>
    injection same with same
    refine ⟨same, ?_⟩
    rw [← display_bare first, ← display_bare second]
    exact congrArg Value.display same
  | .ok _, .error interrupt => cases interrupt <;> cases same
  | .error interrupt, .ok _ => cases interrupt <;> cases same
  | .error (.fault first), .error (.fault second) =>
    injection same with same
    injection same with same
    have bareFault : (bare first).fault = (bare second).fault := congrArg RuntimeError.fault same
    have fault : first.fault = second.fault := bareFault
    exact ⟨fault, congrArg RuntimeFault.message fault⟩
  | .error (.fault _), .error .exhausted => cases same
  | .error .exhausted, .error (.fault _) => cases same
  | .error .exhausted, .error .exhausted => exact trivial

/-- Texts with the same tokens are scanned to the same, up to places. -/
theorem scan_bare_of_stream {first second : String} (same : Token.stream first = Token.stream second) :
    bare (Token.scan first) = bare (Token.scan second) := by
  unfold Token.stream at same
  cases scannedFirst : Token.scan first with
  | ok firstTokens =>
    cases scannedSecond : Token.scan second with
    | ok secondTokens =>
      rw [scannedFirst, scannedSecond] at same
      injection same with same
      exact congrArg Except.ok ((bare_eq_bare_iff firstTokens secondTokens).mpr same)
    | error secondError =>
      rw [scannedFirst, scannedSecond] at same
      cases same
  | error firstError =>
    cases scannedSecond : Token.scan second with
    | ok secondTokens =>
      rw [scannedFirst, scannedSecond] at same
      cases same
    | error secondError =>
      rw [scannedFirst, scannedSecond] at same
      injection same with same
      show Except.error (⟨firstError.fault, .nowhere⟩ : ParseError) = _
      rw [same]
      rfl

theorem ofText_bare_of_stream {first second : String}
    (same : Token.stream first = Token.stream second) :
    bare (Program.ofText first) = bare (Program.ofText second) := by
  have parse : ∀ source, bare (Program.ofText source) =
      bare (Token.scan source) >>= Program.ofTokens := by
    intro source
    unfold Program.ofText
    cases Token.scan source with
    | ok tokens => exact (Program.ofTokens_bare tokens).symm
    | error error => rfl
  rw [parse, parse, scan_bare_of_stream same]

/-- Layout never changes behaviour: texts with the same tokens behave alike. -/
theorem layout_ignored (first second : String) (same : Token.stream first = Token.stream second) :
    BehaveAlike first second := by
  have sameProgram := ofText_bare_of_stream same
  cases parsedFirst : Program.ofText first with
  | error firstError =>
    cases parsedSecond : Program.ofText second with
    | error secondError =>
      rw [parsedFirst, parsedSecond] at sameProgram
      injection sameProgram with sameError
      have bareFault : (bare firstError).fault = (bare secondError).fault :=
        congrArg ParseError.fault sameError
      have fault : firstError.fault = secondError.fault := bareFault
      exact Or.inl ⟨firstError, secondError, parsedFirst, parsedSecond, fault,
        congrArg ParseFault.message fault⟩
    | ok secondProgram =>
      rw [parsedFirst, parsedSecond] at sameProgram
      cases sameProgram
  | ok firstProgram =>
    cases parsedSecond : Program.ofText second with
    | error secondError =>
      rw [parsedFirst, parsedSecond] at sameProgram
      cases sameProgram
    | ok secondProgram =>
      rw [parsedFirst, parsedSecond] at sameProgram
      injection sameProgram with sameTrees
      refine Or.inr ⟨firstProgram, secondProgram, parsedFirst, parsedSecond, sameTrees,
        fun config sink budget => ?_⟩
      have sameRun : bare ((Interpreter.new config sink).run budget firstProgram) =
          bare ((Interpreter.new config sink).run budget secondProgram) := by
        rw [← Interpreter.run_bare, ← Interpreter.run_bare, sameTrees]
      refine ⟨?_, outcomesAgree_of_bare (congrArg Interpreter.Run.outcome sameRun)⟩
      exact congrArg (fun run => run.interpreter.machine.sink) sameRun

theorem layout_ignored_indented :
    Token.stream "proc main() \x7b return 1; \x7d" =
        Token.stream "proc main()\n\x7b\n  return 1;\n\x7d" ∧
      BehaveAlike "proc main() \x7b return 1; \x7d" "proc main()\n\x7b\n  return 1;\n\x7d" :=
  ⟨by decide +kernel, layout_ignored _ _ (by decide +kernel)⟩

end Scriptlet
