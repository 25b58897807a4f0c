/-
This file proves that readers of phrases report a cut: where tokens that a reader takes are
cut off, it stops because the end came too soon, or with the fault of a loop header that
is cut through. A recipe that meets its terms reports a cut if the goals it turns to do, up
to what it refuses of what it has read; so every goal does. A bound pays for the tokens of
both runs, those kept and those lost, so neither run depends on it.

Both runs do the same until the cut is looked at. So a fault about a kept token is found in
both, and one about the end mark is that the end came too soon. Only two goals refuse what
they have read without a look at what stands behind it. An operand that is no variable in
front of the cut is none behind it, and a loop header ends with the fault that is told.
-/

import Scriptlet.Proofs.Lookahead.Phrases
import Scriptlet.Proofs.Truncation.CutPhrases

namespace Scriptlet.Parser

open Grammar

variable {α β : Type} {place : Position} {told : ParseError → Prop} {kept lost : List Placed}

/-- What pays for both runs pays for the kept tokens and the end mark. -/
theorem cut_pays {spent : Nat} (pays : 24 * (kept.length + lost.length + 2) ≤ spent) :
    24 * ((kept ++ [endMark place]).length + 1) ≤ spent := by
  rw [List.length_append, List.length_singleton]
  omega

/-! ### Lists -/

theorem Reports.parameters {bound : Nat} (heard : Heard place told kept)
    (pays : kept.length < bound) : Reports place told (parameters bound) kept lost := by
  refine .expectSymbol heard fun _ middle _ heardMiddle shorter => ?_
  have reports : Reports place told (Parser.commaSeparated Parser.identifier bound) middle lost :=
    .commaSeparated shuts_identifier (fun _ => .identifier) (fun heard _ => .name heard)
      heardMiddle (Nat.le_refl _)
  intro accepts error rest stopped
  cases came : Parser.commaSeparated Parser.identifier bound (middle ++ [endMark place]) with
  | error stop left =>
    rw [EStateM.bind_of_error came] at stopped
    cases stopped
    exact reports (fun filled => accepts_of_bind (accepts filled)) error _ came
  | ok names left =>
    rw [EStateM.bind_of_ok came] at stopped
    obtain ⟨taken, start, passed, filled⟩ := shuts_names bound _ _ _ came
    obtain ⟨behind, rfl, rfl⟩ := exists_left passed.1 start
    rw [List.append_assoc] at came accepts
    -- The other run has read the same names, and found none of them repeated.
    have again := names_again came (by rw [List.length_append] at shorter; omega) (behind ++ lost)
    have reached := accepts_next again (accepts (List.append_ne_nil_of_left_ne_nil filled behind))
    cases repeated : firstRepeated? [] names with
    | some name =>
      simp only [repeated] at reached
      exact absurd reached (not_accepts_fail _ _ _)
    | none =>
      simp only [repeated] at stopped
      cases stopped

/-! ### Recipes -/

/-- Where the token that was last looked at is an end mark, it is the one at the cut. -/
def AtCut (place : Position) (last : Placed) (kept : List Placed) : Prop :=
  last.token = .endOfInput → last = endMark place ∧ kept = []

theorem AtCut.inside {last : Placed} (inside : last.token ≠ .endOfInput) (kept : List Placed) :
    AtCut place last kept :=
  fun ended => absurd ended inside

theorem AtCut.front (endless : Endless kept) :
    AtCut place (front (kept ++ [endMark place])) kept := by
  cases kept with
  | nil => exact fun _ => ⟨rfl, rfl⟩
  | cons first more => exact .inside (endless first List.mem_cons_self) _

/-- The reader reports a cut behind a token that has been looked at: if this is a kept token, the
run that goes on has looked at the same. -/
def ReportsBehind (place : Position) (told : ParseError → Prop) (last : Placed) (reader : Parser α)
    (kept lost : List Placed) : Prop :=
  (last.token ≠ .endOfInput → Accepts reader (kept ++ lost)) →
    ∀ error rest, reader (kept ++ [endMark place]) = .error (.fault error) rest → told error

theorem Reports.behind {last : Placed} {reader : Parser α}
    (reports : Reports place told reader kept lost) (cut : AtCut place last kept) :
    ReportsBehind place told last reader kept lost :=
  fun accepts => reports fun filled => accepts fun ended => filled (cut ended).2

theorem ReportsBehind.reports {reader : Parser α}
    (reports : ReportsBehind place told (front (kept ++ [endMark place])) reader kept lost) :
    Reports place told reader kept lost :=
  fun accepts => reports fun inside => accepts (kept_ne_nil inside)

/-- Goals whose bound pays for both runs report the cut. -/
def Reporting (place : Position) (lost : List Placed) (bound : Nat) : Prop :=
  ∀ (goal : Goal) {told kept}, goal.Ready (kept ++ [endMark place]) → Heard place told kept →
    24 * (kept.length + lost.length + 2) ≤ bound + goal.rank →
    Reports place told (goal.reader bound) kept lost

namespace Reporting

variable {bound : Nat}

theorem listed (reporting : Reporting place lost bound) (listed : Listed)
    (heard : Heard place told kept) (pays : 24 * (kept.length + lost.length + 2) ≤ bound) :
    Reports place told (listed.reader bound) kept lost := by
  cases listed with
  | parameters => exact .parameters heard (by omega)
  | arguments =>
    refine .commaSeparated (shuts_expression bound) (fun {left} fits => ?_)
      (fun {left} heard fits => ?_) heard (Nat.le_refl _)
    · have paysLeft : 24 * (left.length + lost.length + 2) ≤ bound + 9 := by omega
      exact settling (Nat.le_refl bound) .expression trivial (cut_pays paysLeft)
    · have paysLeft : 24 * (left.length + lost.length + 2) ≤ bound + 9 := by omega
      exact reporting .expression trivial heard paysLeft

/-- Following a recipe that meets its terms reports a cut, if what it refuses there is told. -/
theorem of_meets (reporting : Reporting place lost bound) {terms : Terms α} (closed : ¬ terms.opens)
    (refused : ∀ error, terms.rejects error [endMark place] → told error) {fresh : Bool}
    {last : Placed} {recipe : Recipe α} {tokens : List Placed}
    (meets : Meets terms fresh last recipe tokens) (start : tokens = kept ++ [endMark place])
    (heard : Heard place told kept) (cut : AtCut place last kept)
    (paid : terms.Paid bound fresh (kept.length + lost.length + 2)) :
    ReportsBehind place told last (recipe.run bound) kept lost := by
  induction meets generalizing kept with
  | done yields => exact (Reports.pure _).behind cut
  | fail blames =>
    rename_i last fault position _
    intro accepts error rest stopped
    cases stopped
    by_cases ended : last.token = .endOfInput
    · obtain ⟨rfl, rfl⟩ := cut ended
      obtain ⟨rfl, isEnd⟩ := blames
      obtain ⟨expected, rfl⟩ := isEnd.mpr rfl
      exact heard.ended expected
    · exact absurd (accepts ended) (not_accepts_fail _ _ _)
  | reject rejects =>
    rename_i last fault position _
    intro accepts error rest stopped
    cases stopped
    by_cases ended : last.token = .endOfInput
    · obtain ⟨rfl, rfl⟩ := cut ended
      subst start
      exact refused _ rejects
    · exact absurd (accepts ended) (not_accepts_fail _ _ _)
  | look _ inductionHypothesis =>
    subst start
    refine Reports.behind (.peek (ReportsBehind.reports ?_)) cut
    exact inductionHypothesis rfl heard (.front heard.endless) paid
  | take inside other _ inductionHypothesis =>
    subst start
    have filled := kept_ne_nil inside
    obtain ⟨first, more, rfl⟩ := List.exists_cons_of_ne_nil filled
    refine Reports.behind (.skip heard inside other fun heardTail shorter reached _ => ?_) cut
    refine inductionHypothesis rfl heardTail ?_ (paid.shorter (by omega)) fun _ => reached
    exact .inside (fun ended => filled (cut ended).2) _
  | advance shuts _ inductionHypothesis =>
    subst start
    refine Reports.behind (.advance heard fun found more same reached _ => ?_) cut
    subst same
    have inside := heard.endless found List.mem_cons_self
    -- A loop opens its header itself, and is no goal here.
    have other : found.token ≠ .keyword .forWord := fun isFor => by
      obtain ⟨fault, position, stops⟩ := shuts.resolve_left closed found isFor
      rw [stops] at reached
      exact not_accepts_fail _ _ _ reached
    have heardFound : Heard place told ([found] ++ more) := heard
    refine inductionHypothesis found _ rfl inside rfl (heardFound.behind (Shut.single other))
      (.inside inside _) (paid.shorter ?_) fun _ => reached
    rw [List.length_cons]
    omega
  | read ready deeper _ inductionHypothesis =>
    subst start
    have pays := paid.for_goal deeper
    refine Reports.behind (.bind heard (settling (Nat.le_refl bound) _ ready (cut_pays pays))
      (fun tree rest came => ?_) (reporting _ ready heard pays)
      fun tree left came heardLeft => ?_) cut
    · obtain ⟨taken, start, passed, -⟩ := (sound bound _ ready came).passed
      exact ⟨taken, start, passed⟩
    · have took := sound bound _ ready came
      obtain ⟨taken, start, -, filled⟩ := took.passed
      have long := congrArg List.length start
      simp only [List.length_append] at long
      exact (inductionHypothesis tree _ took rfl heardLeft (.front heardLeft.endless)
        (paid.behind (by omega) filled)).reports
  | list _ inductionHypothesis =>
    subst start
    have pays := paid.for_list
    refine Reports.behind (.andThen heard
      ((settling (Nat.le_refl bound)).listed (Nat.le_refl bound) _ (cut_pays pays))
      (fun tokens items rest came => ((sound bound).listed came).passed)
      (reporting.listed _ heard pays) fun items left came heardLeft shorter => ?_) cut
    exact (inductionHypothesis items _ ((sound bound).listed came) rfl heardLeft
      (.front heardLeft.endless) (paid.shorter (by omega))).reports

/-- A goal reports a cut if the goals it turns to do, up to what it refuses at the cut itself. -/
theorem of_goal (reporting : Reporting place lost bound) {goal : Goal}
    (closed : goal ≠ .counterLoop) (ready : goal.Ready (kept ++ [endMark place])) (heard : Heard place told kept)
    (pays : 24 * (kept.length + lost.length + 2) ≤ bound + 1 + goal.rank)
    (refused : ∀ error, goal.Rejects (kept ++ [endMark place]) error [endMark place] → told error) :
    Reports place told (goal.reader (bound + 1)) kept lost := by
  rw [goal.reader_succ]
  exact (reporting.of_meets closed refused (goal.meets _ ready) rfl heard (.front heard.endless)
    (.of_goal pays)).reports

/-! ### Operators in front -/

/-- An update has a variable behind it. -/
theorem variable_of_accepts {symbol : Symbol} {step : Step} {yield : Yield} {position : Position}
    {tokens : List Placed} (member : (symbol, .update step yield) ∈ leadingOperators)
    (accepts : Accepts (Parser.unary (bound + 1)) (mark symbol position :: tokens)) :
    ∃ operand rest, Parser.unary bound tokens = .ok operand rest ∧ Variable operand := by
  obtain ⟨tree, rest, came⟩ := accepts
  have found : leadingOp? (front (mark symbol position :: tokens)).token =
      some (.update step yield) := (leadingOp?_eq_some_iff _ _).mpr ⟨symbol, rfl, member⟩
  rw [Parser.unary, peek_bind] at came
  simp only [found] at came
  obtain ⟨operand, middle, read, applied⟩ := EStateM.of_bind_ok (of_skip_ok came)
  refine ⟨operand, middle, read, (isVariable_iff operand).mp ?_⟩
  rw [applyLeading] at applied
  split at applied
  · assumption
  · cases applied

/-- If the other run reads a variable, then an operand at the cut is one. -/
theorem variable_at_cut {operand whole : Expr} {middle : List Placed}
    (pays : 24 * (kept.length + lost.length + 2) ≤ bound + 22)
    (derived : Derives false .unary kept operand)
    (cameWhole : Parser.unary bound (kept ++ lost) = .ok whole middle) (isName : Variable whole) :
    Variable operand := by
  obtain ⟨takenWhole, start, derivedWhole⟩ := sound bound .unary trivial cameWhole
  have within : kept <+: takenWhole ++ middle := ⟨lost, start⟩
  rcases List.prefix_or_prefix_of_prefix within (List.prefix_append takenWhole middle) with
    short | ⟨more, rfl⟩
  · exact derived.variable_of_prefix derivedWhole isName short
  · -- The other run has looked at a kept token behind the variable, and so does this one.
    by_cases nothing : more = []
    · subst nothing
      rw [List.append_nil] at derived
      exact derived.variable_of_prefix derivedWhole isName (List.prefix_refl _)
    · have stops : Stops 6 [endMark .nowhere] := rfl
      have came := reads_of_derives derived bound [endMark .nowhere] (by omega) stops
      simp only [List.append_assoc] at came cameWhole start
      obtain rfl := List.append_cancel_left start
      have settles : Settles (Parser.unary bound) (Parser.unary bound)
          (takenWhole ++ (more ++ lost)) :=
        settling (Nat.le_refl bound) .unary trivial
          (show 24 * _ ≤ bound + 22 by simp only [List.length_append] at pays ⊢; omega)
      have ahead : (more ++ [endMark .nowhere]).head? = (more ++ lost).head? := by
        obtain ⟨first, further, rfl⟩ := List.exists_cons_of_ne_nil nothing
        rfl
      have again := settles.ok_again cameWhole ahead
      rw [show Parser.unary bound (takenWhole ++ (more ++ [endMark .nowhere])) = _ from came]
        at again
      injection again with sameTree
      rw [sameTree]
      exact isName

theorem unary_reports (reporting : Reporting place lost bound) (heard : Heard place told kept)
    (pays : 24 * (kept.length + lost.length + 2) ≤ bound + 1 + 22) :
    Reports place told (Parser.unary (bound + 1)) kept lost := by
  let refused (error : ParseError) : Prop :=
    Goal.Rejects .unary (kept ++ [endMark place]) error [endMark place]
  have reports : Reports place (fun error => told error ∨ refused error)
      (Goal.reader (bound + 1) .unary) kept lost :=
    reporting.of_goal nofun trivial ⟨heard.endless, fun diagnosed => Or.inl (heard.hears diagnosed)⟩
      pays fun _ => Or.inr
  intro accepts error rest stopped
  refine (reports accepts error rest stopped).resolve_right fun rejects => ?_
  obtain ⟨symbol, _, _, position, taken, operand, member, start, derived, fixed, -⟩ := rejects
  obtain rfl : kept = mark symbol position :: taken := List.append_cancel_right start
  obtain ⟨whole, middle, read, isName⟩ := variable_of_accepts member
    (accepts (List.cons_ne_nil _ _))
  rw [List.length_cons] at pays
  exact fixed (variable_at_cut (by omega) derived read isName)

/-! ### Loop headers -/

/-- The fault of a loop that is cut off: that of a header that is cut through, or else that the end
came too soon, and then no header is cut through but that of the loop itself. -/
def Noted (place : Position) (kept : List Placed) (error : ParseError) : Prop :=
  HeaderCut kept error ∨
    (∃ expected, error = ⟨.unexpectedEnd expected, place⟩) ∧ ∀ other, HeaderCut kept other →
      ∃ start opened inside, kept = word .forWord start :: mark .openParen opened :: inside ∧
        Unfinished inside other

theorem noted_nil (expected : Expected) : Noted place [] ⟨.unexpectedEnd expected, place⟩ :=
  Or.inr ⟨⟨expected, rfl⟩, fun other cut => absurd cut (not_headerCut_nil other)⟩

theorem noted_word (start : Position) (expected : Expected) :
    Noted place [word .forWord start] ⟨.unexpectedEnd expected, place⟩ := by
  refine Or.inr ⟨⟨expected, rfl⟩, ?_⟩
  rintro other ⟨before, first, opened, inside, whole, -⟩
  have long := congrArg List.length whole
  simp only [List.length_append, List.length_cons, List.length_nil] at long
  omega

/-- Within the parentheses of the header, the fault of a cut is noted. -/
theorem heard_inside {start opened : Position} {inside : List Placed}
    (endless : Endless (word .forWord start :: mark .openParen opened :: inside)) :
    Heard place (Noted place (word .forWord start :: mark .openParen opened :: inside)) inside where
  endless placed member :=
    endless placed (List.mem_cons_of_mem _ (List.mem_cons_of_mem _ member))
  hears diagnosed := by
    rcases diagnosed with cut | ⟨ended, uncut⟩
    · exact Or.inl (cut.behind [word .forWord start, mark .openParen opened])
    · refine Or.inr ⟨ended, fun other cut => ⟨start, opened, inside, rfl, ?_⟩⟩
      exact cut.of_header.resolve_right (uncut other)

/-- What is asked of the reader of a header. -/
def headerTerms (tokens : List Placed) : Terms Statement :=
  .between (fun _ _ => True) fun error rest =>
    ∃ inside, tokens = inside ++ rest ∧ Unfinished inside error

theorem counterLoop_noted (reporting : Reporting place lost bound) (endless : Endless kept)
    (pays : 24 * (kept.length + lost.length + 2) ≤ bound + 1 + 7) :
    Reports place (Noted place kept) (Parser.counterLoop (bound + 1)) kept lost := by
  rw [show Parser.counterLoop (bound + 1) = _ from Goal.reader_succ .counterLoop bound, Goal.recipe]
  simp only [Recipe.run_expectKeyword, Recipe.run_expectSymbol]
  refine .single rfl expectKeyword_ok (expectKeyword_word .forWord) ?_
    fun start more startEq _ => ?_
  · rintro rfl
    exact noted_nil _
  subst startEq
  refine .single rfl expectSymbol_ok (expectSymbol_mark .openParen) ?_
    fun opened inside openEq _ => ?_
  · rintro rfl
    exact noted_word start _
  subst openEq
  have heard : Heard place (Noted place _) inside := heard_inside endless
  have paid : (headerTerms (inside ++ [endMark place])).Paid bound false
      (inside.length + lost.length + 2) := by
    simp only [List.length_cons] at pays
    show 24 * _ + 24 ≤ bound + 1 + 0
    omega
  have meets : Meets (headerTerms (inside ++ [endMark place])) false
      (front (inside ++ [endMark place])) (.header start) (inside ++ [endMark place]) :=
    Goal.header_meets start (fun _ _ _ _ _ => trivial)
      fun header _ _ same unfinished => ⟨header, same, unfinished⟩
  refine (reporting.of_meets id (fun error rejects => ?_) meets rfl heard (.front heard.endless)
    paid).reports
  obtain ⟨header, same, unfinished⟩ := rejects
  obtain rfl := List.append_cancel_right same
  exact Or.inl ⟨[], start, opened, inside, rfl, unfinished⟩

theorem counterLoop_reports (reporting : Reporting place lost bound) (heard : Heard place told kept)
    (pays : 24 * (kept.length + lost.length + 2) ≤ bound + 1 + 7) :
    Reports place told (Parser.counterLoop (bound + 1)) kept lost := by
  intro accepts error rest stopped
  refine heard.hears ?_
  rcases reporting.counterLoop_noted heard.endless pays accepts error rest stopped with
    cut | ⟨⟨expected, ended⟩, own⟩
  · exact Or.inl cut
  · refine Or.inr ⟨⟨expected, ended⟩, fun other cut => ?_⟩
    -- The loop would have stopped with the fault of its own header.
    obtain ⟨start, opened, inside, rfl, unfinished⟩ := own other cut
    simp only [List.length_cons] at pays
    have stopsThere := counterLoop_unfinished unfinished
      (show 24 * inside.length ≤ bound + 7 by omega) start opened place
    rw [List.cons_append, List.cons_append, stopsThere] at stopped
    cases stopped
    exact unfinished.ne_end expected place ended

end Reporting

/-- Goals report a cut, whatever their bound is, as long as it pays. -/
theorem reporting (place : Position) (lost : List Placed) (bound : Nat) :
    Reporting place lost bound := by
  induction bound with
  | zero =>
    intro goal told kept _ _ _
    rw [goal.reader_zero]
    exact .exhausted
  | succ bound inductionHypothesis =>
    intro goal told kept ready heard pays
    cases goal with
    | unary => exact inductionHypothesis.unary_reports heard pays
    | counterLoop => exact inductionHypothesis.counterLoop_reports heard pays
    | _ => exact inductionHypothesis.of_goal nofun ready heard pays fun _ => False.elim

end Scriptlet.Parser
