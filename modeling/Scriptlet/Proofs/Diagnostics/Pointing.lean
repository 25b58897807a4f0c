/-
This file says what it means that a reader points at a token: if it stops, then with a
fault that is reported at a token of the stream it reads, which is the end mark exactly if
the fault is that the stream ended too soon. A reader takes tokens off the front and never
the end mark, so there is always a token left to point at. Readers made of readers point
at tokens if their parts do.
-/

import Scriptlet.Proofs.Grammar.Places
import Scriptlet.Proofs.Grammar.Soundness

namespace Scriptlet

open Grammar

/-! ### Streams -/

/-- A token other than the end mark stands at a place. -/
def Occupied (stream : List Placed) (place : Position) : Prop :=
  ∃ placed ∈ stream, placed.token ≠ .endOfInput ∧ placed.position = place

/-- An error is reported at a token, which is the end mark exactly if the error is that the end
came too soon. -/
def ParseError.Located (stream : List Placed) (error : ParseError) : Prop :=
  ∃ placed ∈ stream, placed.position = error.position ∧
    ((∃ expected, error.fault = .unexpectedEnd expected) ↔ placed.token = .endOfInput)

theorem Token.ne_end_of_symbol {token : Token} {symbol : Symbol} (kind : token = .symbol symbol) :
    token ≠ .endOfInput := by
  intro ended
  cases kind.symm.trans ended

/-- What is left of a stream, with an end mark in it. -/
structure Remains (stream tokens : List Placed) : Prop where
  suffix : tokens <:+ stream
  ended : ¬ Endless tokens

namespace Remains

variable {stream tokens rest : List Placed}

theorem ne_nil (remains : Remains stream tokens) : tokens ≠ [] := by
  rintro rfl
  exact remains.ended Endless.nil

theorem length_pos (remains : Remains stream tokens) : 0 < tokens.length :=
  List.length_pos_iff.mpr remains.ne_nil

/-- The next token is one of the stream. -/
theorem front_mem (remains : Remains stream tokens) : Parser.front tokens ∈ stream := by
  cases tokens with
  | nil => exact absurd rfl remains.ne_nil
  | cons first more => exact remains.suffix.subset List.mem_cons_self

/-- Tokens that are not the end mark can be taken away. -/
theorem behind {taken : List Placed} (remains : Remains stream (taken ++ rest))
    (endless : Endless taken) : Remains stream rest where
  suffix := (List.suffix_append taken rest).trans remains.suffix
  ended others := remains.ended (endless.append others)

/-- Tokens that are left and are not the end mark stand at occupied places. -/
theorem allAt {taken : List Placed} (remains : Remains stream (taken ++ rest))
    (endless : Endless taken) : AllAt (Occupied stream) taken := fun placed member =>
  ⟨placed, remains.suffix.subset (List.mem_append_left rest member), endless placed member, rfl⟩

end Remains

namespace Parser

variable {α β : Type} {stream tokens : List Placed}

/-! ### Steps -/

/-- If the reader stops on these tokens, it is with a fault at a token of the stream. -/
def Points (stream : List Placed) (reader : Parser α) (tokens : List Placed) : Prop :=
  ∀ stop rest, reader tokens = .error stop rest →
    ∃ error, stop = .fault error ∧ error.Located stream

/-- The reader takes at least one token and never the end mark. -/
def Takes (reader : Parser α) : Prop :=
  ∀ tokens value rest, reader tokens = .ok value rest →
    ∃ taken, tokens = taken ++ rest ∧ Endless taken ∧ taken ≠ []

theorem Takes.shorter {reader : Parser α} {value : α} {rest : List Placed} (takes : Takes reader)
    (came : reader tokens = .ok value rest) : rest.length < tokens.length := by
  obtain ⟨taken, start, -, filled⟩ := takes _ _ _ came
  have some := List.length_pos_iff.mpr filled
  rw [start, List.length_append]
  omega

theorem takes_advance (expected : Expected) : Takes (advance expected) := by
  intro tokens found rest taken
  obtain ⟨start, inside⟩ := advance_ok taken
  exact ⟨[found], start, Endless.nil.cons inside, List.cons_ne_nil _ _⟩

theorem takes_expectSymbol (symbol : Symbol) : Takes (expectSymbol symbol) :=
  fun _ _ _ taken => ⟨_, expectSymbol_ok taken, Endless.nil.mark _ _, List.cons_ne_nil _ _⟩

theorem takes_identifier : Takes identifier :=
  fun _ _ _ taken => ⟨_, identifier_ok taken, Endless.nil.named _ _, List.cons_ne_nil _ _⟩

theorem takes_expression (bound : Nat) : Takes (expression bound) := by
  intro tokens tree rest came
  obtain ⟨taken, start, passed, filled⟩ := (sound bound .expression trivial came).passed
  exact ⟨taken, start, passed.1, filled rfl⟩

theorem takes_listed (listed : Listed) (bound : Nat) : Takes (listed.reader bound) := by
  intro tokens items rest came
  obtain ⟨taken, start, passed, filled⟩ := ((sound bound).listed came).passed
  exact ⟨taken, start, passed.1, filled⟩

namespace Points

theorem pure (value : α) : Points stream (pure value : Parser α) tokens := by
  intro stop rest stopped
  rw [EStateM.pure_apply] at stopped
  cases stopped

/-- The last token of a reader is taken without a check. -/
theorem skipped (value : α) : Points stream (skip >>= fun _ => Pure.pure value) tokens := by
  intro stop rest stopped
  rw [skip_bind, EStateM.pure_apply] at stopped
  cases stopped

theorem andThen {step : Parser α} {next : α → Parser β} (first : Points stream step tokens)
    (second : ∀ value rest, step tokens = .ok value rest → Points stream (next value) rest) :
    Points stream (step >>= next) tokens := by
  intro stop last stopped
  cases came : step tokens with
  | error early middle =>
    rw [EStateM.bind_of_error came] at stopped
    injection stopped with same
    rw [← same]
    exact first early middle came
  | ok value rest =>
    rw [EStateM.bind_of_ok came] at stopped
    exact second value rest came stop last stopped

/-- What follows a reader has at least one token less. -/
theorem bind {step : Parser α} {next : α → Parser β} (remains : Remains stream tokens)
    (takes : Takes step) (first : Points stream step tokens)
    (second : ∀ value rest, step tokens = .ok value rest → Remains stream rest →
      rest.length < tokens.length → Points stream (next value) rest) :
    Points stream (step >>= next) tokens := by
  refine first.andThen fun value rest came => ?_
  obtain ⟨taken, start, endless, -⟩ := takes _ _ _ came
  rw [start] at remains
  exact second value rest came (remains.behind endless) (takes.shorter came)

/-- Nothing can go wrong behind the last reader. -/
theorem result {step : Parser α} {finish : α → β} (points : Points stream step tokens) :
    Points stream (step >>= fun value => Pure.pure (finish value)) tokens :=
  points.andThen fun value _ _ => pure (finish value)

theorem peek {next : Placed → Parser β} (following : Points stream (next (front tokens)) tokens) :
    Points stream (peek >>= next) tokens :=
  following

theorem skip {next : Unit → Parser β} (remains : Remains stream tokens)
    (inside : (front tokens).token ≠ .endOfInput)
    (following : Remains stream tokens.tail → tokens.tail.length < tokens.length →
      Points stream (next ()) tokens.tail) :
    Points stream (skip >>= next) tokens := by
  have start := eq_cons_of_front rfl inside
  have later : Remains stream tokens.tail := by
    rw [start] at remains
    exact remains.behind (Endless.nil.cons inside)
  refine following later ?_
  rw [List.length_tail]
  exact Nat.sub_lt remains.length_pos Nat.one_pos

/-- A fault that is about a token of the stream is reported there. -/
theorem fail {found : Placed} {fault : ParseFault} {position : Position} (seen : found ∈ stream)
    (blames : Blames found ⟨fault, position⟩) :
    Points stream (fail fault position : Parser α) tokens := by
  intro stop rest stopped
  cases stopped
  exact ⟨_, rfl, found, seen, blames⟩

theorem unexpected {found : Placed} (seen : found ∈ stream) (expected : Expected) :
    Points stream (unexpected found expected : Parser α) tokens := by
  unfold Parser.unexpected
  split
  · rename_i ended
    exact fail seen ⟨rfl, fun _ => ended, fun _ => ⟨_, rfl⟩⟩
  · rename_i inside
    exact fail seen (.of_ne_end inside fun _ same => by cases same)

theorem advance (remains : Remains stream tokens) (expected : Expected) :
    Points stream (advance expected) tokens := by
  by_cases ended : (front tokens).token = .endOfInput
  · intro stop rest stopped
    rw [Parser.advance, peek_bind, skip_bind, ended] at stopped
    exact fail remains.front_mem ⟨rfl, fun _ => ended, fun _ => ⟨expected, rfl⟩⟩ stop rest stopped
  · intro stop rest stopped
    rw [eq_cons_of_front rfl ended, advance_cons ended] at stopped
    cases stopped

/-- The token that was taken is one of the stream and not the end mark. -/
theorem advanced (remains : Remains stream tokens) {expected : Expected} {found : Placed}
    {rest : List Placed} (taken : Parser.advance expected tokens = .ok found rest) :
    found ∈ stream ∧ found.token ≠ .endOfInput := by
  obtain ⟨start, inside⟩ := advance_ok taken
  rw [start] at remains
  exact ⟨remains.front_mem, inside⟩

theorem expect (remains : Remains stream tokens) (token : Token) (expected : Expected) :
    Points stream (expect token expected) tokens := by
  refine bind remains (takes_advance expected) (advance remains expected)
    fun found rest taken _ _ => ?_
  split
  · exact pure _
  · exact unexpected (advanced remains taken).1 expected

theorem expectSymbol (remains : Remains stream tokens) (symbol : Symbol) :
    Points stream (expectSymbol symbol) tokens :=
  expect remains _ _

theorem identifier (remains : Remains stream tokens) : Points stream identifier tokens := by
  refine bind remains (takes_advance .identifier) (advance remains .identifier)
    fun found rest taken _ _ => ?_
  obtain ⟨seen, inside⟩ := advanced remains taken
  split
  · exact pure _
  · split
    · exact fail seen (.of_ne_end inside fun _ same => by cases same)
    · exact unexpected seen .identifier

/-! ### Lists -/

/-- A list of items is paid for by its tokens, if each item is. -/
theorem itemsToClose {item : Parser α} (takes : Takes item) {length : Nat}
    (each : ∀ {tokens}, Remains stream tokens → tokens.length ≤ length → Points stream item tokens)
    {bound : Nat} (remains : Remains stream tokens) (fits : tokens.length ≤ length)
    (pays : tokens.length ≤ bound) : Points stream (itemsToClose item bound) tokens := by
  induction bound generalizing tokens with
  | zero => exact absurd remains.length_pos (Nat.not_lt_of_le pays)
  | succ bound inductionHypothesis =>
    rw [Parser.itemsToClose]
    refine bind remains takes (each remains fits) fun first middle _ remainsMiddle shorter => ?_
    refine bind remainsMiddle (takes_advance _) (advance remainsMiddle _)
      fun found rest taken remainsRest shorterRest => ?_
    obtain ⟨seen, inside⟩ := advanced remainsMiddle taken
    split
    · exact pure _
    · refine peek ?_
      split
      · exact fail seen (.of_ne_end inside fun _ same => by cases same)
      · exact (inductionHypothesis remainsRest (by omega) (by omega)).result
    · exact unexpected seen _

theorem commaSeparated {item : Parser α} (takes : Takes item) {length : Nat}
    (each : ∀ {tokens}, Remains stream tokens → tokens.length ≤ length → Points stream item tokens)
    {bound : Nat} (remains : Remains stream tokens) (fits : tokens.length ≤ length)
    (pays : tokens.length ≤ bound) : Points stream (commaSeparated item bound) tokens := by
  refine peek ?_
  split
  · exact skipped _
  · exact itemsToClose takes each remains fits pays

end Points

theorem firstRepeated?_mem {seen : List String} {names : List PlacedName} {repeated : PlacedName}
    (found : firstRepeated? seen names = some repeated) : repeated ∈ names := by
  induction names generalizing seen with
  | nil => cases found
  | cons first rest inductionHypothesis =>
    rw [firstRepeated?] at found
    split at found
    · cases found
      exact List.mem_cons_self
    · exact List.mem_cons_of_mem first (inductionHypothesis found)

/-- The names of a list stand at occupied places. -/
theorem names_occupied {bound : Nat} {names : List PlacedName} {rest : List Placed}
    (remains : Remains stream tokens)
    (taken : commaSeparated identifier bound tokens = .ok names rest) :
    ∀ name ∈ names, Occupied stream name.position := by
  obtain ⟨pieces, inner, closed, items, derived, separated, start⟩ := commaSeparated_ok
    (fun taken name => taken = [named name.name name.position])
    (fun read => ⟨_, identifier_ok read, rfl⟩) taken
  have endless : Endless inner := Endless.separated separated fun piece member => by
    rw [derived piece member]
    exact Endless.nil.named _ _
  rw [start] at remains
  intro name member
  rw [items] at member
  obtain ⟨piece, inPieces, same⟩ := List.mem_map.mp member
  have placed := separated.allAt (remains.allAt endless) piece inPieces
  rw [derived piece inPieces, same] at placed
  exact (allAt_cons.mp placed).1

theorem Points.parameters {bound : Nat} (remains : Remains stream tokens)
    (pays : tokens.length ≤ bound) : Points stream (parameters bound) tokens := by
  refine .bind remains (takes_expectSymbol _) (.expectSymbol remains _)
    fun _ middle _ remainsMiddle shorter => ?_
  have listed : Points stream (Parser.commaSeparated Parser.identifier bound) middle :=
    .commaSeparated takes_identifier (fun remains _ => .identifier remains) remainsMiddle
      (Nat.le_refl _) (by omega)
  refine .andThen listed fun names rest taken => ?_
  split
  · rename_i repeated found
    obtain ⟨placed, seen, inside, place⟩ :=
      names_occupied remainsMiddle taken repeated (firstRepeated?_mem found)
    rw [← place]
    exact .fail seen (.of_ne_end inside fun _ same => by cases same)
  · exact .pure _

end Parser

end Scriptlet
