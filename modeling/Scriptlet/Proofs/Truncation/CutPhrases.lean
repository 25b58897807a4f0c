/-
This file collects what is known of a phrase that ends at a cut. Readers end outside of
loop headers. Where a variable is asked for, a whole operand at the cut is one already,
since a variable in parentheses has no front with all of them closed. And a loop header
that ends with an expression in the place of an assignment is refused with the fault that
is found there.
-/

import Scriptlet.Proofs.Truncation.Reports

namespace Scriptlet

open Grammar

/-! ### Variables -/

namespace Grammar

variable {taken kept : List Placed} {tree whole : Expr}

/-- A variable is a name, in parentheses or not. -/
theorem Derives.variable_shape (derived : Derives false .unary taken whole)
    (isName : Variable whole) :
    (∃ first, taken = [first]) ∨
      ∃ opened inner closed, taken = mark .openParen opened :: (inner ++ [mark .closeParen closed]) ∧
        Enclosed inner := by
  obtain ⟨name, position⟩ := isName
  cases derived with
  | unled updated =>
    cases updated with
    | notUpdated applied =>
      cases applied with
      | extended impossible _ => cases impossible
      | notApplied primary =>
        cases primary with
        | name _ _ => exact Or.inl ⟨_, rfl⟩
        | parenthesized opened closed inner =>
          exact Or.inr ⟨opened, _, closed, rfl, inner.enclosed⟩

/-- A front of a name, in parentheses or not, that leaves none of them open is all of it. -/
theorem eq_of_prefix_of_variable (enclosed : Enclosed kept) (filled : kept ≠ [])
    (derived : Derives false .unary taken whole) (isName : Variable whole)
    (start : kept <+: taken) : kept = taken := by
  obtain ⟨first, more, rfl⟩ := List.exists_cons_of_ne_nil filled
  have none := enclosed.openCount_eq
  rcases derived.variable_shape isName with ⟨only, rfl⟩ | ⟨opened, inner, closed, rfl, within⟩
  · obtain ⟨rfl, tail⟩ := List.cons_prefix_cons.mp start
    rw [List.prefix_nil.mp tail]
  · obtain ⟨rfl, tail⟩ := List.cons_prefix_cons.mp start
    rw [openCount_cons, turn_openParen] at none
    rcases prefix_append_cases tail with short | ⟨last, long, rfl⟩
    · have held := within.openCount_nonneg short
      omega
    · rcases List.prefix_cons_iff.mp long with rfl | ⟨further, rfl, nothing⟩
      · rw [List.append_nil, within.openCount_eq] at none
        cases none
      · rw [List.prefix_nil.mp nothing]

/-- The same tokens are one operand only. -/
theorem Derives.unary_unique (first : Derives false .unary taken tree)
    (second : Derives false .unary taken whole) : tree = whole := by
  have pays : 24 * taken.length ≤ 24 * taken.length + 22 := Nat.le_add_right _ _
  have stops : Parser.Stops 6 [] := rfl
  have read := Parser.reads_of_derives first _ [] pays stops
  rw [Parser.reads_of_derives second _ [] pays stops] at read
  cases read
  rfl

/-- Where a variable can be completed, a whole operand is that variable. -/
theorem Derives.variable_of_prefix (derived : Derives false .unary kept tree)
    (completed : Derives false .unary taken whole) (isName : Variable whole)
    (start : kept <+: taken) : Variable tree := by
  obtain rfl := eq_of_prefix_of_variable derived.enclosed derived.ne_nil completed isName start
  rw [derived.unary_unique completed]
  exact isName

end Grammar

namespace Parser

variable {α : Type} {place : Position} {kept lost tokens : List Placed} {bound : Nat}

/-! ### Where readers end -/

theorem shuts_expression (bound : Nat) : Shuts (expression bound) := by
  intro tokens tree rest came
  obtain ⟨taken, start, passed, filled⟩ := (sound bound .expression trivial came).passed
  exact ⟨taken, start, passed, filled rfl⟩

theorem shuts_identifier : Shuts identifier :=
  fun _ _ _ came => ⟨_, identifier_ok came,
    .of_enclosed (Endless.nil.named _ _) (Enclosed.nil.named _ _), List.cons_ne_nil _ _⟩

theorem shuts_names (bound : Nat) : Shuts (commaSeparated identifier bound) := by
  intro tokens names rest came
  obtain ⟨pieces, inner, closed, -, each, separated, start⟩ := commaSeparated_ok
    (fun taken name => taken = [named name.name name.position])
    (fun read => ⟨_, identifier_ok read, rfl⟩) came
  have within : Passed inner := .of_enclosed
    (Endless.separated separated fun piece member => each piece member ▸ Endless.nil.named _ _)
    (Enclosed.separated separated fun piece member => each piece member ▸ Enclosed.nil.named _ _)
  refine ⟨inner ++ [mark .closeParen closed], ?_, within.append (Passed.nil.mark _ _),
    List.append_ne_nil_of_right_ne_nil _ (List.cons_ne_nil _ _)⟩
  rw [start, List.append_assoc]
  rfl

/-! ### Names of a list -/

/-- A list of names is taken as the same list, whatever follows the parenthesis behind it. -/
theorem names_again {names : List PlacedName} {taken rest : List Placed}
    (came : commaSeparated identifier bound (taken ++ rest) = .ok names rest)
    (enough : taken.length ≤ bound) (later : List Placed) :
    commaSeparated identifier bound (taken ++ later) = .ok names later := by
  obtain ⟨pieces, inner, closed, rfl, each, separated, start⟩ := commaSeparated_ok
    (fun taken name => taken = [named name.name name.position])
    (fun read => ⟨_, identifier_ok read, rfl⟩) came
  have split : taken ++ rest = (inner ++ [mark .closeParen closed]) ++ rest := by
    rw [start, List.append_assoc]
    rfl
  obtain rfl := List.append_cancel_right split
  have counted := separated.length_le fun piece member => by
    rw [each piece member]
    exact List.cons_ne_nil _ _
  rw [List.length_append, List.length_singleton] at enough
  rw [List.append_assoc, List.singleton_append]
  refine commaSeparated_separated separated (by omega) (fun piece member rest _ => ?_)
    (fun piece member rest => ?_) closed later
  · rw [each piece member]
    exact identifier_named piece.tree rest
  · rw [each piece member]
    exact fun closing => by cases closing

/-! ### Loop headers -/

/-- An expression in front of the end is taken for a statement. -/
theorem assignment_evaluates {first : Placed} {rest : List Placed} {tree : Expr}
    (derived : Derives false .expression (first :: rest) tree)
    (pays : 24 * (first :: rest).length ≤ bound + 8) (place : Position) :
    assignment bound (first :: rest ++ [endMark place]) =
      .ok (.evaluate tree first.position) [endMark place] := by
  obtain ⟨bound, rfl⟩ := exists_succ (Nat.succ_pos _) pays (by decide)
  have stops : Stops 0 [endMark place] := rfl
  have read := (reads_of_derives derived).expression_ok (Nat.succ_pos _)
    (show _ ≤ bound + 9 by omega) stops
  rw [assignment, peek_bind, EStateM.bind_of_ok read]
  rfl

theorem simpleStatement_evaluates {first : Placed} {rest : List Placed} {tree : Expr}
    (derived : Derives false .expression (first :: rest) tree)
    (pays : 24 * (first :: rest).length ≤ bound + 7) (place : Position) :
    simpleStatement bound (first :: rest ++ [endMark place]) =
      .ok (.evaluate tree first.position) [endMark place] := by
  obtain ⟨bound, rfl⟩ := exists_succ (Nat.succ_pos _) pays (by decide)
  obtain ⟨notLet, notConst⟩ := opensExpression_not_keyword (derived.opens.front [endMark place])
  rw [simpleStatement, peek_bind]
  show EStateM.run _ _ = _
  split
  · rename_i kind
    exact absurd kind notLet
  · rename_i kind
    exact absurd kind notConst
  · exact assignment_evaluates derived (by omega) place

/-- A loop that is cut off in its header stops with the fault that is found there. -/
theorem counterLoop_unfinished {inside : List Placed} {error : ParseError}
    (unfinished : Unfinished inside error) (pays : 24 * inside.length ≤ bound + 7)
    (start opened place : Position) :
    counterLoop (bound + 1)
      (word .forWord start :: mark .openParen opened :: (inside ++ [endMark place])) =
        .error (.fault error) [endMark place] := by
  rw [counterLoop]
  refine (EStateM.bind_of_ok (expectKeyword_word .forWord start _)).trans ?_
  refine (EStateM.bind_of_ok (expectSymbol_mark .openParen opened _)).trans ?_
  cases unfinished with
  | initializer derived refused =>
    refine (EStateM.bind_of_ok (simpleStatement_evaluates derived pays place)).trans ?_
    have cannot : Statement.canInitialize _ = false :=
      Bool.eq_false_iff.mpr fun can => refused ((canInitialize_iff _).mp can)
    simp only [cannot, Bool.not_false, if_true]
    rfl
  | update afterStart afterTest derivedStart initializes derivedTest derived refused =>
    rename_i header condition initializer test first rest tree
    simp only [List.length_append, List.length_cons] at pays
    have readStart := reads_of_derives derivedStart bound (mark .semicolon afterStart ::
      (condition ++ mark .semicolon afterTest :: (first :: rest ++ [endMark place])))
      (by omega) (Or.inl rfl)
    have readTest := (reads_of_derives derivedTest).expression_ok derivedTest.length_pos
      (show _ ≤ bound + 9 by omega)
      (show Stops 0 (mark .semicolon afterTest :: (first :: rest ++ [endMark place])) from rfl)
    have readStep := assignment_evaluates derived
      (show 24 * (first :: rest).length ≤ bound + 8 by rw [List.length_cons]; omega) place
    have can := (canInitialize_iff _).mpr initializes
    have cannot : Statement.canAdvance _ = false :=
      Bool.eq_false_iff.mpr fun can => refused ((canAdvance_iff _).mp can)
    have regrouped : header ++ mark .semicolon afterStart ::
          (condition ++ mark .semicolon afterTest :: first :: rest) ++ [endMark place] =
        header ++ mark .semicolon afterStart ::
          (condition ++ mark .semicolon afterTest :: (first :: rest ++ [endMark place])) := by
      simp
    rw [regrouped]
    refine (EStateM.bind_of_ok readStart).trans ?_
    simp only [can, Bool.not_true, Bool.false_eq_true, if_false]
    refine (EStateM.bind_of_ok (expectSymbol_mark .semicolon afterStart _)).trans ?_
    refine (EStateM.bind_of_ok readTest).trans ?_
    refine (EStateM.bind_of_ok (expectSymbol_mark .semicolon afterTest _)).trans ?_
    refine (EStateM.bind_of_ok readStep).trans ?_
    simp only [cannot, Bool.not_false, if_true]
    rfl

end Parser

/-! ### One fault -/

namespace Grammar

/-- The same header has one fault only, as the loop stops with it. -/
theorem Unfinished.unique {inside : List Placed} {error other : ParseError}
    (first : Unfinished inside error) (second : Unfinished inside other) : error = other := by
  have pays : 24 * inside.length ≤ 24 * inside.length + 7 := Nat.le_add_right _ _
  have stops := Parser.counterLoop_unfinished first pays .nowhere .nowhere .nowhere
  rw [Parser.counterLoop_unfinished second pays] at stops
  cases stops
  rfl

/-- A header that is cut through has no other one in it that is. -/
theorem Unfinished.eq_of_headerCut {inside : List Placed} {error other : ParseError}
    {start opened : Position} (unfinished : Unfinished inside error)
    (cut : HeaderCut (word .forWord start :: mark .openParen opened :: inside) other) :
    error = other := by
  rcases cut.of_header with same | within
  · exact unfinished.unique same
  · rw [← List.append_nil inside] at within
    exact absurd (unfinished.enclosed.shut _ _ within) (not_headerCut_nil other)

theorem HeaderCut.unique {kept : List Placed} {error other : ParseError}
    (first : HeaderCut kept error) (second : HeaderCut kept other) : error = other := by
  obtain ⟨before, start, opened, inside, rfl, unfinished⟩ := first
  obtain ⟨earlier, word, opening, within, whole, unfinishedOther⟩ := second
  rcases List.append_eq_append_iff.mp whole with ⟨between, -, tail⟩ | ⟨between, -, tail⟩
  · exact unfinished.eq_of_headerCut ⟨between, word, opening, within, tail, unfinishedOther⟩
  · exact (unfinishedOther.eq_of_headerCut ⟨between, start, opened, inside, tail, unfinished⟩).symm

end Grammar

end Scriptlet
