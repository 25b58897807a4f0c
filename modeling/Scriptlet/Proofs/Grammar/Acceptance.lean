/-
This file puts the halves together: the program of a token list is the one that the
tokens in front of the end mark are derived with, and there is none if they are not
derived at all or if a call or an index stands behind an update in them. The grammar as
it is written down has such programs, and one that is not taken is given at the end.
-/

import Scriptlet.Proofs.Grammar.Completeness
import Scriptlet.Proofs.Grammar.Levels
import Scriptlet.Proofs.Grammar.Soundness
import Scriptlet.Proofs.Grammar.Updates

namespace Scriptlet

open Grammar

/-! ### Programs -/

namespace Parser

/-- A procedure with a new name is read to its end, whatever stands behind it. -/
theorem procedure_reads {procedure : Procedure} {tokens : List Placed}
    (derived : DerivesProcedure false tokens procedure) {bound : Nat} {defined : List String}
    (fresh : procedure.name ∉ defined) (pays : 24 * tokens.length ≤ bound) (rest : List Placed) :
    Parser.procedure bound defined (tokens ++ rest) = .ok procedure rest := by
  cases derived with
  | intro position place derivedNames derivedBody =>
    rename_i parameters body name names block
    simp only [List.length_append, List.length_cons] at pays
    have readNames := parameters_derived derivedNames (show parameters.length ≤ bound by omega)
      (body ++ rest)
    have readBody := reads_of_derives derivedBody bound rest (by omega)
    rw [List.append_assoc, List.cons_append, List.cons_append, Parser.procedure]
    refine (EStateM.bind_of_ok (expectKeyword_word .procWord position _)).trans ?_
    refine (EStateM.bind_of_ok (identifier_named ⟨name, place⟩ _)).trans ?_
    simp only [if_neg fresh]
    refine (EStateM.bind_of_ok readNames).trans ?_
    exact EStateM.bind_of_ok readBody

/-- Procedures in front of an end are read one by one, as long as their names differ. -/
theorem procedures_reads {pieces : List (Piece Procedure)} {rest : List Placed}
    (ended : (front rest).token = .endOfInput)
    (derived : ∀ piece ∈ pieces, DerivesProcedure false piece.tokens piece.tree) :
    ∀ (bound : Nat) (defined : List String), 24 * (joinTokens pieces).length < bound →
      ((trees pieces).map Procedure.name).Nodup →
      (∀ piece ∈ pieces, piece.tree.name ∉ defined) →
      Parser.procedures bound defined (joinTokens pieces ++ rest) = .ok (trees pieces) rest := by
  induction pieces with
  | nil =>
    intro bound defined pays _ _
    obtain ⟨bound, rfl⟩ := Nat.exists_eq_add_one_of_ne_zero (Nat.ne_of_gt (Nat.zero_lt_of_lt pays))
    have nothing : joinTokens ([] : List (Piece Procedure)) ++ rest = rest := rfl
    rw [nothing, Parser.procedures, peek_bind, ended]
    rfl
  | cons first others inductionHypothesis =>
    intro bound defined pays distinct apart
    obtain ⟨bound, rfl⟩ := Nat.exists_eq_add_one_of_ne_zero (Nat.ne_of_gt (Nat.zero_lt_of_lt pays))
    have split : joinTokens (first :: others) = first.tokens ++ joinTokens others := rfl
    have derivedFirst := derived first List.mem_cons_self
    obtain ⟨position, more, start⟩ := derivedFirst.starts
    obtain ⟨unrepeated, distinctOthers⟩ := List.nodup_cons.mp distinct
    rw [split, List.length_append] at pays
    have filled : 0 < first.tokens.length := by
      rw [start]
      exact Nat.succ_pos _
    have readFirst := procedure_reads derivedFirst (apart first List.mem_cons_self)
      (show 24 * first.tokens.length ≤ bound by omega) (joinTokens others ++ rest)
    have readOthers := inductionHypothesis
      (fun piece member => derived piece (List.mem_cons_of_mem first member)) bound
      (first.tree.name :: defined) (by omega) distinctOthers (fun piece member known => ?_)
    · have opening : (front (first.tokens ++ (joinTokens others ++ rest))).token =
          .keyword .procWord := by
        rw [start]
        rfl
      rw [split, List.append_assoc, Parser.procedures, peek_bind, opening]
      refine (EStateM.bind_of_ok readFirst).trans ?_
      exact EStateM.bind_of_ok readOthers
    · rcases List.mem_cons.mp known with same | inDefined
      · refine unrepeated (List.mem_map.mpr ⟨piece.tree, ?_, same⟩)
        exact List.mem_map_of_mem member
      · exact apart piece (List.mem_cons_of_mem first member) inDefined

end Parser

/-! ### The end mark -/

/-- The tokens in front of the end mark, or all of them if there is none. -/
def Grammar.beforeEnd (tokens : List Placed) : List Placed :=
  tokens.takeWhile fun placed => placed.token ≠ .endOfInput

theorem Grammar.beforeEnd_cons_end {first : Placed} (ended : first.token = .endOfInput)
    (rest : List Placed) : beforeEnd (first :: rest) = [] := by
  simp [beforeEnd, ended]

theorem Grammar.beforeEnd_cons_inside {first : Placed} (inside : first.token ≠ .endOfInput)
    (rest : List Placed) : beforeEnd (first :: rest) = first :: beforeEnd rest := by
  simp [beforeEnd, inside]

theorem Grammar.beforeEnd_append {tokens rest : List Placed} (endless : Endless tokens)
    (ended : (Parser.front rest).token = .endOfInput) : beforeEnd (tokens ++ rest) = tokens := by
  induction tokens with
  | nil =>
    cases rest with
    | nil => rfl
    | cons first more => exact beforeEnd_cons_end ended more
  | cons first more inductionHypothesis =>
    have others := inductionHypothesis fun placed member =>
      endless placed (List.mem_cons_of_mem first member)
    rw [List.cons_append, beforeEnd_cons_inside (endless first List.mem_cons_self), others]

/-- Behind the tokens in front of the end there is the end. -/
theorem Grammar.exists_beforeEnd_append (tokens : List Placed) :
    ∃ rest, tokens = beforeEnd tokens ++ rest ∧ (Parser.front rest).token = .endOfInput := by
  induction tokens with
  | nil => exact ⟨[], rfl, rfl⟩
  | cons first more inductionHypothesis =>
    by_cases ended : first.token = .endOfInput
    · refine ⟨first :: more, ?_, ended⟩
      rw [beforeEnd_cons_end ended, List.nil_append]
    · obtain ⟨rest, equal, last⟩ := inductionHypothesis
      refine ⟨rest, ?_, last⟩
      rw [beforeEnd_cons_inside ended, List.cons_append, ← equal]

/-! ### Acceptance -/

theorem Program.ofTokens_ok {tokens : List Placed} {program : Program}
    (taken : Program.ofTokens tokens = .ok program) :
    ∃ rest, Parser.program (Parser.boundFor tokens) tokens = .ok program rest := by
  unfold Program.ofTokens Parser.read at taken
  split at taken
  · rename_i value rest ran
    cases taken
    exact ⟨rest, ran⟩
  · cases taken

/-- What is read as a program is one by the grammar, up to the end mark. -/
theorem Grammar.derives_of_ofTokens {tokens : List Placed} {program : Program}
    (taken : Program.ofTokens tokens = .ok program) :
    DerivesProgram false (beforeEnd tokens) program := by
  obtain ⟨rest, taken⟩ := Program.ofTokens_ok taken
  obtain ⟨procedures, last, read, taken⟩ := EStateM.of_bind_ok taken
  obtain ⟨equal, unread⟩ := EStateM.of_pure_ok taken
  subst equal unread
  obtain ⟨pieces, items, start, derived, distinct, _, ended⟩ :=
    Parser.sound (Parser.boundFor tokens) (.procedures []) trivial read
  rw [items] at distinct ⊢
  have program := DerivesProgram.intro pieces derived distinct
  rw [start, beforeEnd_append program.endless ended]
  exact program

/-- What is a program by the grammar is read as one, since the bound pays for all of it. -/
theorem Grammar.ofTokens_of_derives {tokens : List Placed} {program : Program}
    (derived : DerivesProgram false (beforeEnd tokens) program) :
    Program.ofTokens tokens = .ok program := by
  obtain ⟨rest, start, ended⟩ := exists_beforeEnd_append tokens
  generalize beforeEnd tokens = before at derived start
  subst start
  cases derived with
  | intro pieces derived distinct =>
    have pays : 24 * (joinTokens pieces).length <
        Parser.boundFor (joinTokens pieces ++ rest) := by
      rw [Parser.boundFor, List.length_append]
      omega
    have read := Parser.procedures_reads ended derived _ [] pays distinct
      fun _ _ => List.not_mem_nil
    have ran : Parser.program (Parser.boundFor (joinTokens pieces ++ rest))
        (joinTokens pieces ++ rest) = .ok ⟨trees pieces⟩ rest :=
      EStateM.bind_of_ok read
    rw [Program.ofTokens, Parser.read, EStateM.run, ran]

/-- A token list has a program exactly if the tokens in front of the end mark are derived with it
and nothing stands behind an update in them that goes on with it. -/
theorem program_iff_derived (tokens : List Placed) (program : Program) :
    Program.ofTokens tokens = .ok program ↔
      DerivesProgram true (beforeEnd tokens) program ∧
        suffixedUpdate (beforeEnd tokens) = false := by
  have sameGrammar : DerivesProgram false (beforeEnd tokens) program ↔
      DerivesProgram true (beforeEnd tokens) program ∧ Plain (beforeEnd tokens) :=
    derivesProgram_iff_plain
  constructor
  · intro taken
    exact sameGrammar.mp (derives_of_ofTokens taken)
  · intro derived
    exact ofTokens_of_derives (sameGrammar.mpr derived)

/-! ### A call of an update -/

namespace Grammar

/-- The tokens of `x++(1)`. -/
def calledUpdate : List Placed :=
  [named "x" ⟨1, 15⟩, mark .increment ⟨1, 16⟩, mark .openParen ⟨1, 18⟩, ⟨.int 1, ⟨1, 19⟩⟩,
    mark .closeParen ⟨1, 20⟩]

/-- The call of `x++` with one argument. -/
def calledUpdateTree : Expr :=
  .call (.unary (.update .increment .previous) (.identifier "x" ⟨1, 15⟩) ⟨1, 16⟩)
    [.literal (.int 1) ⟨1, 19⟩] ⟨1, 18⟩

/-- The tokens of a procedure whose one statement is an expression. -/
def procedureOf (expression : List Placed) : List Placed :=
  word .procWord ⟨1, 1⟩ :: named "main" ⟨1, 6⟩ ::
    [mark .openParen ⟨1, 10⟩, mark .closeParen ⟨1, 11⟩] ++
      (mark .openBrace ⟨1, 13⟩ :: (expression ++ [mark .semicolon ⟨1, 21⟩]) ++
        [mark .closeBrace ⟨1, 23⟩])

theorem calledUpdate_derived : Derives true .expression calledUpdate calledUpdateTree := by
  have name : Derives true .applied [named "x" ⟨1, 15⟩] (.identifier "x" ⟨1, 15⟩) :=
    .notApplied (.name "x" ⟨1, 15⟩)
  have updated : Derives true .updated [named "x" ⟨1, 15⟩, mark .increment ⟨1, 16⟩]
      (.unary (.update .increment .previous) (.identifier "x" ⟨1, 15⟩) ⟨1, 16⟩) :=
    .update ⟨1, 16⟩ name (by decide) (.intro "x" ⟨1, 15⟩)
  have one : Derives true .expression [⟨.int 1, ⟨1, 19⟩⟩] (.literal (.int 1) ⟨1, 19⟩) :=
    Derives.expression_of_applied (.notApplied (.literal (.int 1) ⟨1, 19⟩))
  refine Derives.expression_of_applied (.call [⟨[⟨.int 1, ⟨1, 19⟩⟩], .literal (.int 1) ⟨1, 19⟩⟩]
    ⟨1, 18⟩ ⟨1, 20⟩ (.extended rfl updated) (fun argument member => ?_) (.one _))
  rw [List.mem_singleton.mp member]
  exact one

/-- The grammar as it is written down has the program `proc main() { x++(1); }`, and its tokens
are not taken as any program. -/
theorem calledUpdate_not_taken :
    DerivesProgram true (beforeEnd (procedureOf calledUpdate))
      ⟨[⟨"main", [], [.evaluate calledUpdateTree ⟨1, 15⟩], ⟨1, 1⟩⟩]⟩ ∧
      ∀ program, Program.ofTokens (procedureOf calledUpdate) ≠ .ok program := by
  constructor
  · have statement : Derives true .statement (calledUpdate ++ [mark .semicolon ⟨1, 21⟩])
        (.evaluate calledUpdateTree ⟨1, 15⟩) :=
      .simple ⟨1, 21⟩ (.undeclared (.evaluate calledUpdate_derived))
    have body := Derives.block [⟨calledUpdate ++ [mark .semicolon ⟨1, 21⟩],
      .evaluate calledUpdateTree ⟨1, 15⟩⟩] ⟨1, 13⟩ ⟨1, 23⟩ fun piece member => by
        rw [List.mem_singleton.mp member]
        exact statement
    have procedure : DerivesProcedure true (procedureOf calledUpdate)
        ⟨"main", [], [.evaluate calledUpdateTree ⟨1, 15⟩], ⟨1, 1⟩⟩ :=
      .intro ⟨1, 1⟩ ⟨1, 6⟩ (.intro [] ⟨1, 10⟩ ⟨1, 11⟩ List.nodup_nil .none) body
    have whole : beforeEnd (procedureOf calledUpdate) = procedureOf calledUpdate := rfl
    rw [whole]
    refine .intro [⟨procedureOf calledUpdate, _⟩] (fun piece member => ?_)
      (List.pairwise_singleton _ _)
    rw [List.mem_singleton.mp member]
    exact procedure
  · have refused : Program.ofTokens (procedureOf calledUpdate) =
        .error ⟨.unexpectedToken (.symbol .openParen) (.symbol .semicolon), ⟨1, 18⟩⟩ := rfl
    intro program taken
    rw [refused] at taken
    cases taken

end Grammar

end Scriptlet
