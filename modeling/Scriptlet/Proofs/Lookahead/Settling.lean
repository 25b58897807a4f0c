/-
This file says what it means that a reader looks one token ahead and no further. What it
comes to, a value or a fault, is settled by the tokens it takes and the one behind them:
on any other list that starts with the same tokens and goes on with the same one it comes
to the same, and takes as much. The other list may be longer, and then a reader with a
higher bound reads it; that is why two readers stand in the definition. Readers made of
readers are settled if their parts are.
-/

import Scriptlet.Proofs.Diagnostics.Pointing

namespace Scriptlet.Parser

open Grammar

variable {α β : Type} {tokens : List Placed}

/-! ### Results -/

/-- The result of a reader that comes to a value or a fault and leaves these tokens. -/
def leaving (ending : Except ParseError α) (rest : List Placed) :
    EStateM.Result Stop (List Placed) α :=
  match ending with
  | .ok value => .ok value rest
  | .error error => .error (.fault error) rest

/-- What the reader comes to on these tokens is settled by those it takes and the next one: wherever
they stand, the other reader comes to the same. -/
def Settles (reader other : Parser α) (tokens : List Placed) : Prop :=
  ∃ taken rest ending, tokens = taken ++ rest ∧ reader tokens = leaving ending rest ∧
    ∀ later, later.head? = rest.head? → other (taken ++ later) = leaving ending later

theorem front_eq_of_head? {first second : List Placed} (same : first.head? = second.head?) :
    front first = front second := by
  cases first with
  | nil =>
    cases second with
    | nil => rfl
    | cons placed rest => cases same
  | cons placed rest =>
    cases second with
    | nil => cases same
    | cons other more =>
      cases same
      rfl

/-- The same tokens in front leave the next token the same. -/
theorem head?_append_of_head? {later rest : List Placed} (taken : List Placed)
    (same : later.head? = rest.head?) : (taken ++ later).head? = (taken ++ rest).head? := by
  cases taken with
  | nil => exact same
  | cons placed more => rfl

namespace Settles

/-- A reader that takes tokens takes them wherever the same one follows. -/
theorem ok_again {step : Parser α} {value : α} {taken rest later : List Placed}
    (settles : Settles step step (taken ++ rest)) (came : step (taken ++ rest) = .ok value rest)
    (ahead : later.head? = rest.head?) : step (taken ++ later) = .ok value later := by
  obtain ⟨front, left, ending, start, settled, same⟩ := settles
  rw [came] at settled
  cases ending with
  | error error => cases settled
  | ok value =>
    cases settled
    rw [List.append_cancel_right start]
    exact same later ahead

/-! ### Steps that take nothing -/

theorem pure (value : α) : Settles (pure value) (pure value) tokens :=
  ⟨[], tokens, .ok value, rfl, rfl, fun _ _ => rfl⟩

theorem fail (fault : ParseFault) (position : Position) :
    Settles (fail fault position : Parser α) (Parser.fail fault position) tokens :=
  ⟨[], tokens, .error ⟨fault, position⟩, rfl, rfl, fun _ _ => rfl⟩

theorem unexpected (found : Placed) (expected : Expected) :
    Settles (unexpected found expected : Parser α) (Parser.unexpected found expected) tokens := by
  unfold Parser.unexpected
  split
  · exact fail _ _
  · exact fail _ _

/-! ### Sequences -/

theorem bind {step other : Parser α} {next following : α → Parser β}
    (first : Settles step other tokens)
    (second : ∀ value rest, step tokens = .ok value rest →
      Settles (next value) (following value) rest) :
    Settles (step >>= next) (other >>= following) tokens := by
  obtain ⟨taken, middle, ending, rfl, came, same⟩ := first
  cases ending with
  | error error =>
    exact ⟨taken, middle, .error error, rfl, EStateM.bind_of_error came,
      fun later ahead => EStateM.bind_of_error (same later ahead)⟩
  | ok value =>
    obtain ⟨more, rest, ending, rfl, cameNext, sameNext⟩ := second value middle came
    refine ⟨taken ++ more, rest, ending, (List.append_assoc _ _ _).symm, ?_, ?_⟩
    · rw [EStateM.bind_of_ok came, cameNext]
    · intro later ahead
      have sameFirst := same (more ++ later) (head?_append_of_head? more ahead)
      rw [List.append_assoc, EStateM.bind_of_ok sameFirst, sameNext later ahead]

/-- What follows a reader that takes tokens has at least one less. -/
theorem andThen {step other : Parser α} {next following : α → Parser β} (takes : Takes step)
    (first : Settles step other tokens)
    (second : ∀ value rest, step tokens = .ok value rest → rest.length < tokens.length →
      Settles (next value) (following value) rest) :
    Settles (step >>= next) (other >>= following) tokens :=
  first.bind fun value rest came => second value rest came (takes.shorter came)

/-- Nothing is read behind the last reader. -/
theorem result {step other : Parser α} {finish : α → β} (settles : Settles step other tokens) :
    Settles (step >>= fun value => Pure.pure (finish value))
      (other >>= fun value => Pure.pure (finish value)) tokens :=
  settles.bind fun value _ _ => pure (finish value)

theorem peek {next following : Placed → Parser β}
    (settles : Settles (next (front tokens)) (following (front tokens)) tokens) :
    Settles (peek >>= next) (Parser.peek >>= following) tokens := by
  obtain ⟨taken, rest, ending, rfl, came, same⟩ := settles
  refine ⟨taken, rest, ending, rfl, came, fun later ahead => ?_⟩
  rw [peek_bind, front_eq_of_head? (head?_append_of_head? taken ahead)]
  exact same later ahead

/-- A token that is really there is taken. -/
theorem skip {next following : Unit → Parser β} (inside : (front tokens).token ≠ .endOfInput)
    (settles : tokens.tail.length < tokens.length →
      Settles (next ()) (following ()) tokens.tail) :
    Settles (skip >>= next) (Parser.skip >>= following) tokens := by
  have start := eq_cons_of_front rfl inside
  have shorter : tokens.tail.length < tokens.length := by
    rw [start]
    exact Nat.lt_succ_self _
  obtain ⟨taken, rest, ending, tail, came, same⟩ := settles shorter
  refine ⟨front tokens :: taken, rest, ending, ?_, came, same⟩
  rw [List.cons_append, ← tail]
  exact start

/-- The last token of a reader is taken without looking further. -/
theorem skipped (value : α) (inside : (front tokens).token ≠ .endOfInput) :
    Settles (Parser.skip >>= fun _ => Pure.pure value) (Parser.skip >>= fun _ => Pure.pure value)
      tokens :=
  skip inside fun _ => pure value

/-! ### Single tokens -/

/-- A token that is taken is taken before it is looked at, the end mark too. -/
theorem advance (expected : Expected) :
    Settles (advance expected) (Parser.advance expected) tokens := by
  cases tokens with
  | nil =>
    refine ⟨[], [], .error ⟨.unexpectedEnd expected, .nowhere⟩, rfl, rfl, fun later ahead => ?_⟩
    cases later with
    | nil => rfl
    | cons placed more => cases ahead
  | cons placed rest =>
    by_cases ended : placed.token = .endOfInput
    · have stops : ∀ later, Parser.advance expected (placed :: later) =
          leaving (.error ⟨.unexpectedEnd expected, placed.position⟩) later := by
        intro later
        rw [Parser.advance, peek_bind, skip_bind, front_cons, ended]
        rfl
      exact ⟨[placed], rest, .error ⟨.unexpectedEnd expected, placed.position⟩, rfl, stops rest,
        fun later _ => stops later⟩
    · exact ⟨[placed], rest, .ok placed, rfl, advance_cons ended rest,
        fun later _ => advance_cons ended later⟩

theorem expect (token : Token) (expected : Expected) :
    Settles (expect token expected) (Parser.expect token expected) tokens := by
  refine (advance expected).bind fun found rest _ => ?_
  split
  · exact pure _
  · exact unexpected found expected

theorem expectSymbol (symbol : Symbol) :
    Settles (expectSymbol symbol) (Parser.expectSymbol symbol) tokens :=
  expect _ _

theorem identifier : Settles identifier Parser.identifier tokens := by
  refine (advance .identifier).bind fun found rest _ => ?_
  split
  · exact pure _
  · split
    · exact fail _ _
    · exact unexpected found .identifier

/-! ### Lists -/

section

variable {item other : Parser α} (takes : Takes item) {length : Nat}
  (each : ∀ {tokens}, tokens.length ≤ length → Settles item other tokens)

include takes each

/-- A list of items is paid for by its tokens, if each item is. -/
theorem itemsToClose {bound higher : Nat} (le : bound ≤ higher) (fits : tokens.length ≤ length)
    (pays : tokens.length < bound) :
    Settles (itemsToClose item bound) (Parser.itemsToClose other higher) tokens := by
  induction bound generalizing tokens higher with
  | zero => exact absurd pays (Nat.not_lt_zero _)
  | succ bound inductionHypothesis =>
    obtain ⟨higher, rfl⟩ := Nat.exists_eq_add_one_of_ne_zero (show higher ≠ 0 by omega)
    rw [Parser.itemsToClose, Parser.itemsToClose]
    refine andThen takes (each fits) fun first middle _ shorter => ?_
    refine andThen (takes_advance _) (advance _) fun found rest _ shorterRest => ?_
    split
    · exact pure _
    · refine peek ?_
      split
      · exact fail _ _
      · exact (inductionHypothesis (by omega) (by omega) (by omega)).result
    · exact unexpected found _

theorem commaSeparated {bound higher : Nat} (le : bound ≤ higher) (fits : tokens.length ≤ length)
    (pays : tokens.length < bound) :
    Settles (commaSeparated item bound) (Parser.commaSeparated other higher) tokens := by
  refine peek ?_
  split
  · rename_i closing
    exact skipped _ (Token.ne_end_of_symbol closing)
  · exact itemsToClose takes each le fits pays

end

theorem parameters {bound higher : Nat} (le : bound ≤ higher) (pays : tokens.length ≤ bound) :
    Settles (parameters bound) (Parser.parameters higher) tokens := by
  refine andThen (takes_expectSymbol _) (expectSymbol _) fun _ middle _ shorter => ?_
  have listed : Settles (Parser.commaSeparated Parser.identifier bound)
      (Parser.commaSeparated Parser.identifier higher) middle :=
    commaSeparated takes_identifier (fun _ => identifier) le (Nat.le_refl _) (by omega)
  refine listed.bind fun names rest _ => ?_
  split
  · exact fail _ _
  · exact pure _

end Settles

end Scriptlet.Parser
