/-
This file proves that every diagnostic points at a token. A text that is no program has its
fault at a token, which is the end mark exactly if the text ended too soon. The tree of a
program has the places of its tokens only, so the places of these tokens are a realm that
every run keeps to: an error of a run is reported at one of them, or it is one of the two
that have no place.
-/

import Scriptlet.Proofs.Diagnostics.Reading
import Scriptlet.Proofs.Diagnostics.Scanning
import Scriptlet.Proofs.Grammar.Acceptance
import Scriptlet.Proofs.Realm
import Scriptlet.Interpreter

namespace Scriptlet

open Grammar

/-! ### Runs -/

namespace Interpreter

variable {realm : Realm} {start : Store}

theorem flush_keeps {position : Position} (place : realm.places position) :
    (flush position).Keeps realm start fun _ => True := by
  intro machine contains
  unfold flush
  cases Sink.flush machine.sink with
  | ok _ sink => exact ⟨trivial, contains⟩
  | error fault sink => exact ⟨Or.inl ⟨position, rfl, place⟩, contains⟩

theorem runEntry_keeps {context : Context} {entry : Closure} (budget : Nat)
    (table : realm.AdmitsTable context.procedures) (admitted : realm.Admits entry) :
    (runEntry budget entry context).Keeps realm start realm.AdmitsValue := by
  have place : realm.places entry.procedure.position := by
    have all := admitted.places
    rw [Procedure.places_eq] at all
    exact (allOf_cons.mp all).1
  intro machine contains
  have called := Task.perform_keeps table budget (.callClosure entry [] entry.procedure.position)
    ⟨admitted, List.forall_mem_nil _, place⟩ machine contains
  unfold runEntry
  dsimp only
  cases came : Eval.callClosure context budget entry [] entry.procedure.position machine with
  | ok value later =>
    rw [Task.perform, came] at called
    have flushed : (flush entry.procedure.position >>= fun _ => pure value).Keeps realm start
        realm.AdmitsValue := .bind (flush_keeps place) fun _ _ => .pure called.1
    exact flushed later called.2
  | error interrupt later =>
    rw [Task.perform, came] at called
    cases interrupt with
    | exhausted => exact called
    | fault error =>
      have flushed : (flush entry.procedure.position >>= fun _ =>
          (throw (.fault error) : Eval Value)).Keeps realm start realm.AdmitsValue :=
        .bind (flush_keeps place) fun _ _ _ contains => ⟨called.1, contains⟩
      exact flushed later called.2

/-- The first store has one scope, with nothing in it and nothing around it. -/
theorem contains_new (config : Config) (sink : Sink) (holds : Position → Prop) :
    (Realm.mk (fun _ => True) holds).Contains (new config sink).machine.store
      (new config sink).machine.store := by
  have only : ∀ {scope : ScopeId} {found : Scope},
      (new config sink).machine.store.scopes[scope]? = some found → found = ⟨none, []⟩ := by
    intro scope found present
    cases scope with
    | zero =>
      cases present
      rfl
    | succ scope => cases present
  refine ⟨fun _ => trivial, Nat.le_refl _, fun _ _ _ => trivial, ?_, fun unknown => ?_⟩
  · intro scope found binding _ present bound
    rw [only present] at bound
    cases bound
  · exact absurd trivial unknown

/-- The procedures of a program belong to a realm that has their places. -/
theorem admitsTable_build {holds : Position → Prop} {procedures : List Procedure} (identity : Nat)
    (scope : ScopeId) (all : ∀ procedure ∈ procedures, AllOf holds procedure.places) :
    (Realm.mk (fun _ => True) holds).AdmitsTable (.build identity scope procedures) := by
  intro closure member
  obtain ⟨place, inside, same⟩ := List.mem_mapIdx.mp (List.mem_reverse.mp member)
  rw [← same]
  exact ⟨trivial, all _ (List.getElem_mem inside)⟩

/-- An error of a run has a place of the program, or it is one of the two without a place. -/
theorem run_error {config : Config} {sink : Sink} {budget : Nat} {program : Program}
    {holds : Position → Prop} {error : RuntimeError}
    (all : ∀ procedure ∈ program.procedures, AllOf holds procedure.places)
    (failed : ((new config sink).run budget program).outcome = .error (.fault error)) :
    (error.position = none ∧ ((∃ name, error.fault = .missingEntryPoint name) ∨
        ∃ limit, error.fault = .stackOverflow limit)) ∨
      ∃ place, error.position = some place ∧ holds place := by
  have table : (Realm.mk (fun _ => True) holds).AdmitsTable
      ((new config sink).load program).context.procedures := admitsTable_build _ _ all
  unfold run at failed
  dsimp only at failed
  split at failed
  · cases failed
    exact Or.inl ⟨rfl, Or.inl ⟨_, rfl⟩⟩
  · rename_i entry found
    have kept := runEntry_keeps budget table (table.find? found)
      ((new config sink).load program).machine (contains_new config sink holds)
    unfold perform EStateM.run at failed
    cases came : runEntry budget entry ((new config sink).load program).context
        ((new config sink).load program).machine with
    | ok value later =>
      rw [came] at failed
      cases failed
    | error interrupt later =>
      rw [came] at failed kept
      cases failed
      rcases kept.1 with placed | ⟨nowhere, limit⟩
      · exact Or.inr placed
      · exact Or.inl ⟨nowhere, Or.inr limit⟩

end Interpreter

/-- The error that a step ended with, if it did. -/
def Interpreter.Run.error? {α : Type} (run : Run α) : Option RuntimeError :=
  match run.outcome with
  | .error (.fault error) => some error
  | _ => none

theorem Interpreter.Run.outcome_of_error? {α : Type} {run : Run α} {error : RuntimeError}
    (ended : run.error? = some error) : run.outcome = .error (.fault error) := by
  unfold error? at ended
  split at ended
  · rename_i found outcome
    cases ended
    exact outcome
  · cases ended

/-! ### Diagnostics -/

/-- Whatever a text is, with every configuration and output: an error of reading stands at a token
of the text, and at the end mark exactly if the text ended too soon; an error of running stands at
a token other than the end mark, or it is one of the two that have no place. -/
theorem diagnostics_point_at_tokens (source : String) (tokens : List Placed)
    (scanned : Token.scan source = .ok tokens) :
    (∀ error, Program.ofTokens tokens = .error error →
      (∃ placed ∈ tokens, placed.position = error.position) ∧ error.position ≠ .nowhere ∧
      ((∃ expected, error.fault = .unexpectedEnd expected) ↔
        ∃ placed ∈ tokens, placed.token = .endOfInput ∧ placed.position = error.position)) ∧
    (∀ program, Program.ofTokens tokens = .ok program → ∀ config sink budget error,
      ((Interpreter.new config sink).run budget program).outcome = .error (.fault error) →
      (error.position = none ∧ ((∃ name, error.fault = .missingEntryPoint name) ∨
          ∃ limit, error.fault = .stackOverflow limit)) ∨
        ∃ placed ∈ tokens, placed.token ≠ .endOfInput ∧
          error.position = some placed.position) := by
  have closed := Token.scan_ok scanned
  constructor
  · intro error failed
    have ended : ¬ Endless tokens := by
      obtain ⟨front, last, same, -, -⟩ := closed
      intro endless
      rw [same] at endless
      exact endless ⟨.endOfInput, last⟩ (List.mem_append_right _ (List.mem_singleton_self _)) rfl
    obtain ⟨placed, member, place, atEnd⟩ := Program.located_of_ofTokens ended failed
    refine ⟨⟨placed, member, place⟩, ?_, fun tooSoon => ?_, fun atMark => ?_⟩
    · rw [← place]
      exact closed.ne_nowhere placed member
    · exact ⟨placed, member, atEnd.mp tooSoon, place⟩
    · obtain ⟨mark, marked, isMark, markPlace⟩ := atMark
      exact atEnd.mpr (closed.end_of_position member marked isMark (place.trans markPlace.symm))
  · intro program parsed config sink budget error failed
    have derived := derives_of_ofTokens parsed
    obtain ⟨rest, start, -⟩ := exists_beforeEnd_append tokens
    have occupied : AllAt (Occupied tokens) (beforeEnd tokens) := by
      intro placed member
      refine ⟨placed, ?_, derived.endless placed member, rfl⟩
      rw [start]
      exact List.mem_append_left _ member
    rcases Interpreter.run_error (derived.allOf_places occupied) failed with
      nowhere | ⟨place, position, occupied⟩
    · exact Or.inl nowhere
    · obtain ⟨placed, member, inside, same⟩ := occupied
      exact Or.inr ⟨placed, member, inside, position.trans (congrArg some same.symm)⟩

/-- A text that ends inside a block. -/
def unclosedText : String := "proc main() \x7b"

/-- The tokens of this text. -/
def unclosedTokens : List Placed :=
  [word .procWord ⟨1, 1⟩, named "main" ⟨1, 6⟩, mark .openParen ⟨1, 10⟩, mark .closeParen ⟨1, 11⟩,
    mark .openBrace ⟨1, 13⟩, ⟨.endOfInput, ⟨1, 14⟩⟩]

/-- A text whose program uses a name that is not bound. -/
def unboundText : String := "proc main() \x7b x; \x7d"

/-- The tokens of this text. -/
def unboundTokens : List Placed :=
  [word .procWord ⟨1, 1⟩, named "main" ⟨1, 6⟩, mark .openParen ⟨1, 10⟩, mark .closeParen ⟨1, 11⟩,
    mark .openBrace ⟨1, 13⟩, named "x" ⟨1, 15⟩, mark .semicolon ⟨1, 16⟩, mark .closeBrace ⟨1, 18⟩,
    ⟨.endOfInput, ⟨1, 19⟩⟩]

/-- The program of this text. -/
def unboundProgram : Program :=
  ⟨[⟨"main", [], [.evaluate (.identifier "x" ⟨1, 15⟩) ⟨1, 15⟩], ⟨1, 1⟩⟩]⟩

/-- The first text is refused at its end mark, and a run of the second one stops at a token. -/
theorem diagnostics_point_at_tokens_faulty :
    (Token.scan unclosedText = .ok unclosedTokens ∧
      Program.ofTokens unclosedTokens =
        .error ⟨.unexpectedEnd (.symbol .closeBrace), ⟨1, 14⟩⟩ ∧
      ∃ placed ∈ unclosedTokens, placed.token = .endOfInput ∧ placed.position = ⟨1, 14⟩) ∧
    (Token.scan unboundText = .ok unboundTokens ∧
      Program.ofTokens unboundTokens = .ok unboundProgram ∧
      ((Interpreter.new ⟨"main", 100⟩ {}).run 9 unboundProgram).outcome =
        .error (.fault ⟨.undefinedVariable "x", some ⟨1, 15⟩⟩) ∧
      ∃ placed ∈ unboundTokens, placed.token ≠ .endOfInput ∧ placed.position = ⟨1, 15⟩) := by
  constructor
  · have scanned : Token.scan unclosedText = .ok unclosedTokens := rfl
    have failed : Program.ofTokens unclosedTokens =
        .error ⟨.unexpectedEnd (.symbol .closeBrace), ⟨1, 14⟩⟩ := rfl
    have located := (diagnostics_point_at_tokens unclosedText unclosedTokens scanned).1 _ failed
    exact ⟨scanned, failed, located.2.2.mp ⟨.symbol .closeBrace, rfl⟩⟩
  · have scanned : Token.scan unboundText = .ok unboundTokens := rfl
    have parsed : Program.ofTokens unboundTokens = .ok unboundProgram := rfl
    have failed : ((Interpreter.new ⟨"main", 100⟩ {}).run 9 unboundProgram).outcome =
        .error (.fault ⟨.undefinedVariable "x", some ⟨1, 15⟩⟩) :=
      Interpreter.Run.outcome_of_error? (by decide +kernel)
    refine ⟨scanned, parsed, failed, ?_⟩
    rcases (diagnostics_point_at_tokens unboundText unboundTokens scanned).2 _ parsed _ _ _ _
        failed with ⟨nowhere, -⟩ | ⟨placed, member, inside, same⟩
    · cases nowhere
    · injection same with same
      exact ⟨placed, member, inside, same.symm⟩

end Scriptlet
