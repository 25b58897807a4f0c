/-
This file proves that one token behind those a reader takes decides everything. A list is
read with the bound that fits it, so two lists are read with two bounds; both are compared
with a bound that is as high as either. A reader that takes so many tokens of a list, on
success or on a fault, comes to the same and takes as many on every list with these tokens
and the same one behind them.
-/

import Scriptlet.Proofs.Lookahead.Phrases

namespace Scriptlet.Parser

variable {α : Type} {reader : Nat → Parser α} {tokens others : List Placed}

/-! ### Higher bounds -/

/-- A bound that fits a list is enough for what the reader takes, and the next token settles the
rest. -/
def Fitting (reader : Nat → Parser α) : Prop :=
  ∀ {tokens higher}, boundFor tokens ≤ higher →
    Settles (reader (boundFor tokens)) (reader higher) tokens

theorem goal_fitting (goal : Goal) (ready : ∀ tokens, goal.Ready tokens) :
    Fitting fun bound => goal.reader bound :=
  fun le => settling le goal (ready _) (Nat.le_add_right _ _)

theorem expression_fitting : Fitting expression :=
  goal_fitting .expression fun _ => trivial

theorem statement_fitting : Fitting statement :=
  goal_fitting .statement fun _ => trivial

theorem program_fitting : Fitting program :=
  fun le => (goal_fitting (.procedures []) (fun _ => trivial) le).result

theorem read_of_leaving {ending : Except ParseError α} {rest : List Placed}
    (came : reader (boundFor tokens) tokens = leaving ending rest) :
    read reader tokens = ⟨ending, rest⟩ := by
  unfold read EStateM.run
  rw [came]
  cases ending <;> rfl

/-- A reader comes to the same with every higher bound. -/
theorem Fitting.at_higher (fitting : Fitting reader) {higher : Nat}
    (le : boundFor tokens ≤ higher) :
    reader higher tokens = leaving (read reader tokens).outcome (read reader tokens).rest := by
  obtain ⟨taken, rest, ending, rfl, came, same⟩ := fitting le
  rw [read_of_leaving came]
  exact same rest rfl

theorem leaving_inj {first second : Except ParseError α} {rest left : List Placed}
    (same : leaving first rest = leaving second left) : first = second ∧ rest = left := by
  cases first <;> cases second <;> cases same <;> exact ⟨rfl, rfl⟩

/-! ### One token ahead -/

/-- The reader takes the first `count` tokens of a list, whatever it comes to. -/
def Consumes (reader : Nat → Parser α) (tokens : List Placed) (count : Nat) : Prop :=
  count ≤ tokens.length ∧ (read reader tokens).rest = tokens.drop count

/-- Lists with the same tokens in front, and the same one or none behind them, go on alike. -/
theorem head?_drop_of_take_eq {count : Nat}
    (same : others.take (count + 1) = tokens.take (count + 1)) :
    (others.drop count).head? = (tokens.drop count).head? := by
  rw [List.head?_drop, List.head?_drop, ← List.getElem?_take_of_lt (Nat.lt_succ_self count), same,
    List.getElem?_take_of_lt (Nat.lt_succ_self count)]

theorem take_of_take_succ {count : Nat}
    (same : others.take (count + 1) = tokens.take (count + 1)) :
    others.take count = tokens.take count := by
  have shorter := congrArg (List.take count) same
  rwa [List.take_take, List.take_take, Nat.min_eq_left (Nat.le_succ count)] at shorter

/-- What is taken of a list is its front. -/
theorem Fitting.consumes (fitting : Fitting reader) (tokens : List Placed) :
    ∃ count, Consumes reader tokens count := by
  obtain ⟨taken, rest, ending, rfl, came, -⟩ := fitting (Nat.le_refl (boundFor tokens))
  refine ⟨taken.length, ?_, ?_⟩
  · rw [List.length_append]
    exact Nat.le_add_right _ _
  · rw [read_of_leaving came, List.drop_left]

theorem Fitting.decided (fitting : Fitting reader) {count : Nat}
    (consumes : Consumes reader tokens count)
    (same : others.take (count + 1) = tokens.take (count + 1)) :
    (read reader others).outcome = (read reader tokens).outcome ∧
      Consumes reader others count := by
  obtain ⟨taken, rest, ending, start, came, agrees⟩ :=
    fitting (Nat.le_max_left (boundFor tokens) (boundFor others))
  rw [read_of_leaving came]
  obtain ⟨within, left⟩ := consumes
  -- The count tells the tokens taken from those left.
  have restEq : rest = tokens.drop count := by
    rw [← left, read_of_leaving came]
  have parts : taken ++ rest = tokens.take count ++ rest := by
    rw [← start, restEq, List.take_append_drop]
  have takenEq : taken = tokens.take count := List.append_cancel_right parts
  have split : others = taken ++ others.drop count := by
    rw [takenEq, ← take_of_take_succ same, List.take_append_drop]
  have ahead : (others.drop count).head? = rest.head? := by
    rw [restEq]
    exact head?_drop_of_take_eq same
  have cameOthers := agrees (others.drop count) ahead
  rw [← split, fitting.at_higher (Nat.le_max_right _ _)] at cameOthers
  obtain ⟨sameOutcome, sameRest⟩ := leaving_inj cameOthers
  refine ⟨sameOutcome, ?_, sameRest⟩
  have long := congrArg List.length (take_of_take_succ same)
  rw [List.length_take, List.length_take, Nat.min_eq_left within] at long
  omega

/-- Whatever a reader takes of a list, the next token decides the rest: each of the three readers
takes a front of every list, and where a list goes on with the same token behind this front, or
ends there as well, the reader comes to the same tree or the same fault and takes as much. -/
theorem next_token_decides (tokens : List Placed) :
    ((∃ count, Consumes expression tokens count) ∧ ∀ count others,
      Consumes expression tokens count → others.take (count + 1) = tokens.take (count + 1) →
      (read expression others).outcome = (read expression tokens).outcome ∧
        Consumes expression others count) ∧
    ((∃ count, Consumes statement tokens count) ∧ ∀ count others,
      Consumes statement tokens count → others.take (count + 1) = tokens.take (count + 1) →
      (read statement others).outcome = (read statement tokens).outcome ∧
        Consumes statement others count) ∧
    ((∃ count, Consumes program tokens count) ∧ ∀ count others,
      Consumes program tokens count → others.take (count + 1) = tokens.take (count + 1) →
      (read program others).outcome = (read program tokens).outcome ∧
        Consumes program others count) :=
  ⟨⟨expression_fitting.consumes tokens, fun _ _ => expression_fitting.decided⟩,
    ⟨statement_fitting.consumes tokens, fun _ _ => statement_fitting.decided⟩,
    ⟨program_fitting.consumes tokens, fun _ _ => program_fitting.decided⟩⟩

/-- In `x + y )` the sum ends at the parenthesis, so nothing behind it changes the sum. -/
theorem next_token_decides_sum :
    let sum : List Placed := [⟨.identifier "x", ⟨1, 1⟩⟩, ⟨.symbol .plus, ⟨1, 3⟩⟩,
      ⟨.identifier "y", ⟨1, 5⟩⟩, ⟨.symbol .closeParen, ⟨1, 7⟩⟩]
    Consumes expression sum 3 ∧ ∀ later,
      (read expression (sum ++ later)).outcome = (read expression sum).outcome ∧
        Consumes expression (sum ++ later) 3 := by
  intro sum
  have three : Consumes expression sum 3 := ⟨by decide, by rfl⟩
  exact ⟨three, fun later => (next_token_decides sum).1.2 3 (sum ++ later) three rfl⟩

end Scriptlet.Parser
