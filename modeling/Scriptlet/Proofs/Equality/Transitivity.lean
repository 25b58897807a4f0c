/-
This file says how far the language's equality is transitive. Two integers are compared as
they are, and an integer is compared with a double as the double nearest to it. So two
different integers can be equal to the same double, which happens among integers of at
least `2 ^ 53` in magnitude only. Values that differ although a third one is equal to both
differ in such a pair of integers, at some place of their lists, and in nothing else.
-/

import Scriptlet.Proofs.Equality.Promotion
import Scriptlet.Value.Comparison

namespace Scriptlet

namespace Value

variable {left middle right : Value}

/-- Two different integers stand on either side of a double that both are promoted to, in the three
values themselves or at the same place in three lists. Both integers have more digits than a
double keeps. -/
inductive Merged : Value → Value → Value → Prop where
  | numbers {first second : Int64} {number : Float} :
    first ≠ second → Double.equalTotal (Double.ofInt64 first) number = true →
    Double.equalTotal number (Double.ofInt64 second) = true →
    2 ^ 53 ≤ first.toInt.natAbs → 2 ^ 53 ≤ second.toInt.natAbs →
    Merged (.int first) (.float number) (.int second)
  | items {lefts middles rights : List Value} {left middle right : Value} (index : Nat) :
    lefts[index]? = some left → middles[index]? = some middle → rights[index]? = some right →
    Merged left middle right → Merged (.list lefts) (.list middles) (.list rights)

/-! ### Equal values -/

theorem eq_of_equal_str {text : String} (same : left.equal (.str text) = true) :
    left = .str text := by
  cases left with
  | str other => rw [eq_of_beq (show (other == text) = true from same)]
  | _ => exact nomatch (show false = true from same)

theorem eq_of_equal_bool {truth : Bool} (same : left.equal (.bool truth) = true) :
    left = .bool truth := by
  cases left with
  | bool other => rw [eq_of_beq (show (other == truth) = true from same)]
  | _ => exact nomatch (show false = true from same)

theorem eq_of_equal_void (same : left.equal .void = true) : left = .void := by
  cases left with
  | void => rfl
  | _ => exact nomatch (show false = true from same)

theorem eq_of_equal_nil (same : left.equal .nil = true) : left = .nil := by
  cases left with
  | nil => rfl
  | _ => exact nomatch (show false = true from same)

/-- What is equal to a list is a list. -/
theorem exists_of_equal_list {items : List Value} (same : left.equal (.list items) = true) :
    ∃ lefts, left = .list lefts ∧ equalLists lefts items = true := by
  cases left with
  | list lefts => exact ⟨lefts, rfl, same⟩
  | _ => exact nomatch (show false = true from same)

theorem exists_of_list_equal {items : List Value} (same : (Value.list items).equal right = true) :
    ∃ rights, right = .list rights ∧ equalLists items rights = true := by
  cases right with
  | list rights => exact ⟨rights, rfl, same⟩
  | _ => exact nomatch (show false = true from same)

/-- Functions that are equal are equal to the same values. -/
theorem equal_of_equal_function {closure : Closure}
    (first : left.equal (.function closure) = true)
    (second : (Value.function closure).equal right = true) : left.equal right = true := by
  cases left with
  | function other =>
    cases right with
    | function another =>
      have identity := eq_of_beq (show (other.identity == closure.identity) = true from first)
      show (other.identity == another.identity) = true
      rw [identity]
      exact second
    | _ => exact nomatch (show false = true from second)
  | _ => exact nomatch (show false = true from first)

/-! ### Numbers -/

theorem rank_of_equalTotal {first second : Float} (same : Double.equalTotal first second = true) :
    Double.rank first = Double.rank second :=
  eq_of_beq same

/-- Doubles are compared by their ranks, so here nothing is lost. -/
theorem equalTotal_trans {first second third : Float}
    (same : Double.equalTotal first second = true) (next : Double.equalTotal second third = true) :
    Double.equalTotal first third = true :=
  beq_of_eq ((rank_of_equalTotal same).trans (rank_of_equalTotal next))

/-- An integer is between equal values only if they are equal. -/
theorem equal_of_equal_int {number : Int64} (first : left.equal (.int number) = true)
    (second : (Value.int number).equal right = true) : left.equal right = true := by
  cases left with
  | int other =>
    rw [eq_of_beq (show (other == number) = true from first)]
    exact second
  | float other =>
    cases right with
    | int another =>
      rw [← eq_of_beq (show (number == another) = true from second)]
      exact first
    | float another =>
      exact equalTotal_trans first second
    | _ => exact nomatch (show false = true from second)
  | _ => exact nomatch (show false = true from first)

/-- A double is between equal values, unless they are different integers that share it. -/
theorem transitive_at_float {number : Float} (first : left.equal (.float number) = true)
    (second : (Value.float number).equal right = true) :
    left.equal right = true ↔ ¬ Merged left (.float number) right := by
  cases left with
  | int one =>
    cases right with
    | int other =>
      have shared : Double.rank (Double.ofInt64 one) = Double.rank (Double.ofInt64 other) :=
        (rank_of_equalTotal first).trans (rank_of_equalTotal second)
      show (one == other) = true ↔ _
      rw [beq_iff_eq]
      constructor
      · rintro same (⟨different, -, -, -, -⟩)
        exact different same
      · intro unmerged
        refine Decidable.byContradiction fun different => unmerged ?_
        obtain ⟨long, longOther⟩ := Double.two_pow_le_of_rank_eq different shared
        exact .numbers different first second long longOther
    | float other =>
      refine iff_of_true ?_ (fun merged => by cases merged)
      exact equalTotal_trans first second
    | _ => exact nomatch (show false = true from second)
  | float one =>
    refine iff_of_true ?_ (fun merged => by cases merged)
    cases right with
    | int other =>
      exact equalTotal_trans first second
    | float other =>
      exact equalTotal_trans first second
    | _ => exact nomatch (show false = true from second)
  | _ => exact nomatch (show false = true from first)

/-! ### Lists -/

theorem not_merged_nil : ¬ Merged (.list []) (.list []) (.list []) := by
  intro merged
  cases merged with
  | items index at_ _ _ _ => cases at_

/-- Three lists hold such a pair in their first items or in the others. -/
theorem merged_cons_iff {lefts middles rights : List Value} :
    Merged (.list (left :: lefts)) (.list (middle :: middles)) (.list (right :: rights)) ↔
      Merged left middle right ∨ Merged (.list lefts) (.list middles) (.list rights) := by
  constructor
  · intro merged
    cases merged with
    | items index atLeft atMiddle atRight inner =>
      cases index with
      | zero =>
        cases atLeft
        cases atMiddle
        cases atRight
        exact Or.inl inner
      | succ index => exact Or.inr (.items index atLeft atMiddle atRight inner)
  · rintro (first | others)
    · exact .items 0 rfl rfl rfl first
    · cases others with
      | items index atLeft atMiddle atRight inner =>
        exact .items (index + 1) atLeft atMiddle atRight inner

/-- Lists are compared item by item, so they differ where their items do. -/
theorem lists_transitive_iff {lefts middles rights : List Value}
    (each : ∀ left middle right, middle ∈ middles → left.equal middle = true →
      middle.equal right = true → (left.equal right = true ↔ ¬ Merged left middle right))
    (first : equalLists lefts middles = true) (second : equalLists middles rights = true) :
    equalLists lefts rights = true ↔ ¬ Merged (.list lefts) (.list middles) (.list rights) := by
  induction middles generalizing lefts rights with
  | nil =>
    cases lefts with
    | cons left lefts => exact nomatch (show false = true from first)
    | nil =>
      cases rights with
      | cons right rights => exact nomatch (show false = true from second)
      | nil => exact iff_of_true rfl not_merged_nil
  | cons middle middles inductionHypothesis =>
    cases lefts with
    | nil => exact nomatch (show false = true from first)
    | cons left lefts =>
      cases rights with
      | nil => exact nomatch (show false = true from second)
      | cons right rights =>
        obtain ⟨firstHere, firstOthers⟩ := Bool.and_eq_true_iff.mp first
        obtain ⟨secondHere, secondOthers⟩ := Bool.and_eq_true_iff.mp second
        have here := each left middle right List.mem_cons_self firstHere secondHere
        have others := inductionHypothesis
          (fun left middle right member => each left middle right (List.mem_cons_of_mem _ member))
          firstOthers secondOthers
        show (left.equal right && equalLists lefts rights) = true ↔ _
        rw [Bool.and_eq_true_iff, here, others, merged_cons_iff, not_or]

/-! ### Transitivity -/

/-- Along equal values, the first equals the last, unless two different integers share a double
between them. -/
theorem equal_iff_not_merged : ∀ left middle right : Value, left.equal middle = true →
    middle.equal right = true → (left.equal right = true ↔ ¬ Merged left middle right)
  | left, .float number, right, first, second => transitive_at_float first second
  | left, .list middles, right, first, second => by
    obtain ⟨lefts, rfl, firstItems⟩ := exists_of_equal_list first
    obtain ⟨rights, rfl, secondItems⟩ := exists_of_list_equal second
    refine lists_transitive_iff (fun left middle right member => ?_) firstItems secondItems
    exact equal_iff_not_merged left middle right
  | left, .int number, right, first, second =>
    iff_of_true (equal_of_equal_int first second) fun merged => by cases merged
  | left, .function closure, right, first, second =>
    iff_of_true (equal_of_equal_function first second) fun merged => by cases merged
  | left, .str text, right, first, second =>
    iff_of_true (eq_of_equal_str first ▸ second) fun merged => by cases merged
  | left, .bool truth, right, first, second =>
    iff_of_true (eq_of_equal_bool first ▸ second) fun merged => by cases merged
  | left, .void, right, first, second =>
    iff_of_true (eq_of_equal_void first ▸ second) fun merged => by cases merged
  | left, .nil, right, first, second =>
    iff_of_true (eq_of_equal_nil first ▸ second) fun merged => by cases merged
termination_by _ middle => sizeOf middle
decreasing_by
  have smaller := List.sizeOf_lt_of_mem member
  simp only [Value.list.sizeOf_spec]
  omega

/-- An integer and a double are compared as two doubles, the first of which is the integer,
rounded. -/
theorem equal_promoted (integer : Int64) (number : Float) :
    (Value.int integer).equal (.float number) =
        (Value.float ⟨Float.Model.ofInt64 integer⟩).equal (.float number) ∧
      (Value.float number).equal (.int integer) =
        (Value.float number).equal (.float ⟨Float.Model.ofInt64 integer⟩) := by
  rw [← Double.ofInt64_eq_rounded]
  exact ⟨rfl, rfl⟩

/-- Along equal values, the first equals the last, unless two different integers share a double
between them; such integers have at least `2 ^ 53` for a magnitude. Doubles are equal as the number
format has it, with a NaN equal to itself, and an integer is compared with a double as the nearest
one. -/
theorem equal_transitive_unless_merged (left middle right : Value) :
    (left.equal middle = true → middle.equal right = true →
      (left.equal right = true ↔ ¬ Merged left middle right)) ∧
    (∀ first second : Float, (Value.float first).equal (.float second) = true ↔
      (first == second) = true ∨ first.isNaN = true ∧ second.isNaN = true) ∧
    ∀ (integer : Int64) (number : Float),
      (Value.int integer).equal (.float number) =
          (Value.float ⟨Float.Model.ofInt64 integer⟩).equal (.float number) ∧
        (Value.float number).equal (.int integer) =
          (Value.float number).equal (.float ⟨Float.Model.ofInt64 integer⟩) :=
  ⟨equal_iff_not_merged left middle right, fun _ _ => Double.equalTotal_iff, equal_promoted⟩

/-- The items of `[1]`, `[1.0]` and `[1]` are equal in turn. -/
theorem equal_transitive_unless_merged_one :
    (Value.list [.int 1]).equal (.list [.int 1]) = true ↔
      ¬ Merged (.list [.int 1]) (.list [.float 1.0]) (.list [.int 1]) :=
  (equal_transitive_unless_merged _ _ _).1 (by decide) (by decide)

/-- The integers `2 ^ 53 + 1` and `2 ^ 53` are both equal to the double `2 ^ 53`, and different. -/
theorem equal_not_transitive :
    ¬ ∀ left middle right : Value, left.equal middle = true → middle.equal right = true →
      left.equal right = true := by
  intro transitive
  have equal := transitive (.int 9007199254740993) (.float 9007199254740992.0)
    (.int 9007199254740992) (by decide) (by decide)
  exact absurd equal (by decide)

end Value

end Scriptlet
