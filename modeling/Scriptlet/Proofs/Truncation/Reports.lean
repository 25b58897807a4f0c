/-
This file says what it means that a reader reports a cut. The reader runs twice: on tokens
that go on behind the cut, where it comes to a value, and on the tokens kept, with an end
mark behind them. If it stops there, then with a fault that is told. Both runs do the same
as long as a kept token is next, as the next token settles what a reader comes to; they
part at the end mark. Readers made of readers report a cut if their parts do.
-/

import Scriptlet.Proofs.Lookahead.Settling
import Scriptlet.Proofs.Grammar.Headers

namespace Scriptlet.Parser

open Grammar

variable {α β : Type} {place : Position} {told : ParseError → Prop} {kept lost : List Placed}

/-! ### Cuts -/

/-- The end mark at a place. -/
def endMark (place : Position) : Placed := ⟨.endOfInput, place⟩

/-- The reader comes to a value. -/
def Accepts (reader : Parser α) (tokens : List Placed) : Prop :=
  ∃ value rest, reader tokens = .ok value rest

/-- The tokens kept have no end mark, and the fault of a cut behind them is told. -/
structure Heard (place : Position) (told : ParseError → Prop) (kept : List Placed) : Prop where
  endless : Endless kept
  hears : ∀ {error}, Diagnosed place kept error → told error

/-- If the reader comes to a value on tokens that go on behind the cut, then cut off it stops with
faults only that are told. Where nothing is kept, it need not come to a value. -/
def Reports (place : Position) (told : ParseError → Prop) (reader : Parser α)
    (kept lost : List Placed) : Prop :=
  (kept ≠ [] → Accepts reader (kept ++ lost)) →
    ∀ error rest, reader (kept ++ [endMark place]) = .error (.fault error) rest → told error

/-- The reader takes at least one token, never the end mark, and ends outside of loop headers. -/
def Shuts (reader : Parser α) : Prop :=
  ∀ tokens value rest, reader tokens = .ok value rest →
    ∃ taken, tokens = taken ++ rest ∧ Passed taken ∧ taken ≠ []

theorem Heard.behind {taken left : List Placed} (heard : Heard place told (taken ++ left))
    (shut : Shut taken) : Heard place told left where
  endless placed member := heard.endless placed (List.mem_append_right taken member)
  hears diagnosed := heard.hears (diagnosed.behind shut)

theorem Heard.ended (heard : Heard place told []) (expected : Expected) :
    told ⟨.unexpectedEnd expected, place⟩ :=
  heard.hears (diagnosed_nil expected place)

/-- What was taken of tokens in front of the end mark leaves the end mark. -/
theorem exists_left {taken rest : List Placed} (endless : Endless taken)
    (start : kept ++ [endMark place] = taken ++ rest) :
    ∃ left, kept = taken ++ left ∧ rest = left ++ [endMark place] := by
  rcases List.append_eq_append_iff.mp start with ⟨more, takenEq, endEq⟩ | ⟨left, keptEq, restEq⟩
  · cases more with
    | nil => exact ⟨[], by simpa using takenEq.symm, endEq.symm⟩
    | cons placed more =>
      obtain ⟨rfl, -⟩ := List.cons.inj endEq
      refine absurd rfl (endless (endMark place) ?_)
      rw [takenEq]
      exact List.mem_append_right kept List.mem_cons_self
  · exact ⟨left, keptEq, restEq⟩

theorem accepts_of_bind {step : Parser α} {next : α → Parser β} {tokens : List Placed}
    (accepts : Accepts (step >>= next) tokens) : Accepts step tokens := by
  obtain ⟨value, rest, came⟩ := accepts
  obtain ⟨first, middle, cameFirst, -⟩ := EStateM.of_bind_ok came
  exact ⟨first, middle, cameFirst⟩

theorem accepts_next {step : Parser α} {next : α → Parser β} {tokens middle : List Placed}
    {value : α} (came : step tokens = .ok value middle) (accepts : Accepts (step >>= next) tokens) :
    Accepts (next value) middle := by
  obtain ⟨result, rest, ran⟩ := accepts
  rw [EStateM.bind_of_ok came] at ran
  exact ⟨result, rest, ran⟩

theorem not_accepts_fail (fault : ParseFault) (position : Position) (tokens : List Placed) :
    ¬ Accepts (fail fault position : Parser α) tokens := by
  rintro ⟨value, rest, came⟩
  cases came

theorem not_accepts_unexpected (found : Placed) (expected : Expected) (tokens : List Placed) :
    ¬ Accepts (unexpected found expected : Parser α) tokens := by
  rintro ⟨value, rest, came⟩
  exact not_unexpected came

/-- Tokens in front of a token that is not the end mark were kept. -/
theorem kept_ne_nil (inside : (front (kept ++ [endMark place])).token ≠ .endOfInput) :
    kept ≠ [] := by
  rintro rfl
  exact inside rfl

namespace Reports

/-! ### Steps that take nothing -/

theorem pure (value : α) : Reports place told (Pure.pure value) kept lost := by
  intro _ error rest stopped
  cases stopped

theorem exhausted : Reports place told (exhausted : Parser α) kept lost := by
  intro _ error rest stopped
  cases stopped

/-- The last token of a reader is taken without a check. -/
theorem skipped (value : α) :
    Reports place told (skip >>= fun _ => Pure.pure value) kept lost := by
  intro _ error rest stopped
  cases stopped

/-- A check that no kept token passes is not met in front of the cut. -/
theorem fail (filled : kept ≠ []) (fault : ParseFault) (position : Position) :
    Reports place told (fail fault position : Parser α) kept lost :=
  fun accepts => absurd (accepts filled) (not_accepts_fail _ _ _)

/-! ### Sequences -/

theorem result {step : Parser α} {finish : α → β} (reports : Reports place told step kept lost) :
    Reports place told (step >>= fun value => Pure.pure (finish value)) kept lost := by
  intro accepts error rest stopped
  cases came : step (kept ++ [endMark place]) with
  | ok value middle =>
    rw [EStateM.bind_of_ok came] at stopped
    cases stopped
  | error stop middle =>
    rw [EStateM.bind_of_error came] at stopped
    cases stopped
    exact reports (fun filled => accepts_of_bind (accepts filled)) error _ came

/-- What the reader in front comes to is the same in both runs, as long as it leaves a kept
token. -/
theorem bind {step : Parser α} {next : α → Parser β} (heard : Heard place told kept)
    (settles : Settles step step (kept ++ [endMark place]))
    (passes : ∀ value rest, step (kept ++ [endMark place]) = .ok value rest →
      ∃ taken, kept ++ [endMark place] = taken ++ rest ∧ Passed taken)
    (first : Reports place told step kept lost)
    (second : ∀ value left, step (kept ++ [endMark place]) = .ok value (left ++ [endMark place]) →
      Heard place told left → Reports place told (next value) left lost) :
    Reports place told (step >>= next) kept lost := by
  intro accepts error last stopped
  cases came : step (kept ++ [endMark place]) with
  | error stop middle =>
    rw [EStateM.bind_of_error came] at stopped
    cases stopped
    exact first (fun filled => accepts_of_bind (accepts filled)) error _ came
  | ok value rest =>
    rw [EStateM.bind_of_ok came] at stopped
    obtain ⟨taken, start, passed⟩ := passes _ _ came
    obtain ⟨left, rfl, rfl⟩ := exists_left passed.1 start
    refine second value left came (heard.behind passed.2) (fun more => ?_) error last stopped
    have ahead : (left ++ lost).head? = (left ++ [endMark place]).head? := by
      obtain ⟨first, further, rfl⟩ := List.exists_cons_of_ne_nil more
      rfl
    rw [List.append_assoc] at came settles
    have again := settles.ok_again came ahead
    rw [← List.append_assoc] at again
    exact accepts_next again (accepts (List.append_ne_nil_of_right_ne_nil taken more))

/-- What follows a reader that takes tokens has at least one less. -/
theorem andThen {step : Parser α} {next : α → Parser β} (heard : Heard place told kept)
    (settles : Settles step step (kept ++ [endMark place])) (shuts : Shuts step)
    (first : Reports place told step kept lost)
    (second : ∀ value left, step (kept ++ [endMark place]) = .ok value (left ++ [endMark place]) →
      Heard place told left → left.length < kept.length →
      Reports place told (next value) left lost) :
    Reports place told (step >>= next) kept lost := by
  refine bind heard settles (fun value rest came => ?_) first fun value left came heardLeft => ?_
  · obtain ⟨taken, start, passed, -⟩ := shuts _ _ _ came
    exact ⟨taken, start, passed⟩
  · obtain ⟨taken, start, -, filled⟩ := shuts _ _ _ came
    have some := List.length_pos_iff.mpr filled
    have long := congrArg List.length start
    simp only [List.length_append] at long
    exact second value left came heardLeft (by omega)

theorem peek {next : Placed → Parser β}
    (following : Reports place told (next (front (kept ++ [endMark place]))) kept lost) :
    Reports place told (peek >>= next) kept lost := by
  intro accepts error rest stopped
  refine following (fun filled => ?_) error rest stopped
  have same : front (kept ++ lost) = front (kept ++ [endMark place]) := by
    obtain ⟨first, more, rfl⟩ := List.exists_cons_of_ne_nil filled
    rfl
  rw [← same]
  exact accepts filled

/-- A kept token that is taken is taken in both runs. -/
theorem skip {next : Unit → Parser β} (heard : Heard place told kept)
    (inside : (front (kept ++ [endMark place])).token ≠ .endOfInput)
    (other : (front (kept ++ [endMark place])).token ≠ .keyword .forWord)
    (following : Heard place told kept.tail → kept.tail.length < kept.length →
      Accepts (next ()) (kept.tail ++ lost) → Reports place told (next ()) kept.tail lost) :
    Reports place told (skip >>= next) kept lost := by
  obtain ⟨first, more, rfl⟩ := List.exists_cons_of_ne_nil (kept_ne_nil inside)
  have heardMore : Heard place told ([first] ++ more) := heard
  intro accepts error rest stopped
  have reached : Accepts (next ()) (more ++ lost) := accepts (List.cons_ne_nil _ _)
  exact following (heardMore.behind (Shut.single other)) (Nat.lt_succ_self _) reached
    (fun _ => reached) error rest stopped

/-! ### Single tokens -/

/-- A reader of one token stops at the end mark, and takes a kept token in both runs. -/
theorem single {step : Parser α} {next : α → Parser β} {spelled : α → Placed} {expected : Expected}
    (stops : step [endMark place] = .error (.fault ⟨.unexpectedEnd expected, place⟩) [])
    (takes : ∀ {tokens value rest}, step tokens = .ok value rest → tokens = spelled value :: rest)
    (again : ∀ value rest, step (spelled value :: rest) = .ok value rest)
    (ended : kept = [] → told ⟨.unexpectedEnd expected, place⟩)
    (following : ∀ value more, kept = spelled value :: more → Accepts (next value) (more ++ lost) →
      Reports place told (next value) more lost) :
    Reports place told (step >>= next) kept lost := by
  intro accepts error rest stopped
  cases kept with
  | nil =>
    rw [List.nil_append, EStateM.bind_of_error stops] at stopped
    cases stopped
    exact ended rfl
  | cons first more =>
    have whole := accepts (List.cons_ne_nil _ _)
    obtain ⟨value, middle, came⟩ := accepts_of_bind whole
    obtain ⟨rfl, rfl⟩ := List.cons.inj (takes came)
    have reached := accepts_next came whole
    rw [List.cons_append, EStateM.bind_of_ok (again value _)] at stopped
    exact following value more rfl reached (fun _ => reached) error rest stopped

theorem advance {next : Placed → Parser β} {expected : Expected} (heard : Heard place told kept)
    (following : ∀ found more, kept = found :: more → Accepts (next found) (more ++ lost) →
      Reports place told (next found) more lost) :
    Reports place told (advance expected >>= next) kept lost := by
  intro accepts error rest stopped
  cases kept with
  | nil =>
    cases stopped
    exact heard.ended expected
  | cons first more =>
    have inside := heard.endless first List.mem_cons_self
    have reached := accepts_next (advance_cons inside _) (accepts (List.cons_ne_nil _ _))
    rw [List.cons_append, EStateM.bind_of_ok (advance_cons inside _)] at stopped
    exact following first more rfl reached (fun _ => reached) error rest stopped

/-- A symbol, and what follows it. -/
theorem expectSymbol {next : Position → Parser β} {symbol : Symbol}
    (heard : Heard place told kept)
    (following : ∀ position more, kept = mark symbol position :: more → Heard place told more →
      more.length < kept.length → Reports place told (next position) more lost) :
    Reports place told (expectSymbol symbol >>= next) kept lost := by
  refine single rfl expectSymbol_ok (expectSymbol_mark symbol) ?_ fun position more start _ => ?_
  · rintro rfl
    exact heard.ended _
  · subst start
    have behind : Heard place told ([mark symbol position] ++ more) := heard
    exact following position more rfl (behind.behind (Shut.single fun same => by cases same))
      (Nat.lt_succ_self _)

/-- A name, and what follows it. -/
theorem identifier {next : PlacedName → Parser β} (heard : Heard place told kept)
    (following : ∀ name more, Heard place told more → more.length < kept.length →
      Accepts (next name) (more ++ lost) → Reports place told (next name) more lost) :
    Reports place told (identifier >>= next) kept lost := by
  refine single rfl identifier_ok identifier_named ?_ fun name more start reached => ?_
  · rintro rfl
    exact heard.ended _
  · subst start
    have behind : Heard place told ([named name.name name.position] ++ more) := heard
    exact following name more (behind.behind (Shut.single fun same => by cases same))
      (Nat.lt_succ_self _) reached

theorem name (heard : Heard place told kept) :
    Reports place told Parser.identifier kept lost := by
  rw [← bind_pure Parser.identifier]
  exact identifier heard fun name _ _ _ _ => pure name

/-! ### Lists -/

section

variable {item : Parser α} (shuts : Shuts item) {length : Nat}
  (settles : ∀ {kept : List Placed}, kept.length ≤ length →
    Settles item item (kept ++ [endMark place]))
  (each : ∀ {kept}, Heard place told kept → kept.length ≤ length →
    Reports place told item kept lost)

include shuts settles each

theorem itemsToClose {bound : Nat} (heard : Heard place told kept) (fits : kept.length ≤ length) :
    Reports place told (itemsToClose item bound) kept lost := by
  induction bound generalizing kept with
  | zero => exact exhausted
  | succ bound inductionHypothesis =>
    rw [Parser.itemsToClose]
    refine andThen heard (settles fits) shuts (each heard fits)
      fun first left _ heardLeft shorter => ?_
    refine advance heardLeft fun found more start reached => ?_
    subst start
    rw [List.length_cons] at shorter
    have heardFound : Heard place told ([found] ++ more) := heardLeft
    revert reached
    split
    · exact fun _ => pure _
    · rename_i comma
      have heardMore := heardFound.behind
        (Shut.single fun same => by cases comma.symm.trans same)
      refine fun _ => peek ?_
      split
      · rename_i closing
        exact fail (kept_ne_nil (Token.ne_end_of_symbol closing)) _ _
      · exact (inductionHypothesis heardMore (by omega)).result
    · exact fun reached => absurd reached (not_accepts_unexpected _ _ _)

theorem commaSeparated {bound : Nat} (heard : Heard place told kept)
    (fits : kept.length ≤ length) :
    Reports place told (commaSeparated item bound) kept lost := by
  refine peek ?_
  split
  · exact skipped _
  · exact itemsToClose shuts settles each heard fits

end

end Reports

end Scriptlet.Parser
