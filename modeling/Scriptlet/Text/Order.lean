/-
This file orders texts by the code points of their characters: the first
character that differs decides, and a text comes after its own beginnings.
-/

namespace Scriptlet.Text

/-- The order of two runs of characters. -/
def orderCharacters : List Char → List Char → Ordering
  | [], [] => .eq
  | [], _ :: _ => .lt
  | _ :: _, [] => .gt
  | first :: lefts, second :: rights =>
    if first.toNat < second.toNat then .lt
    else if second.toNat < first.toNat then .gt
    else orderCharacters lefts rights

/-- The order of two texts. -/
def order (left right : String) : Ordering :=
  orderCharacters left.toList right.toList

theorem orderCharacters_self (characters : List Char) :
    orderCharacters characters characters = .eq := by
  induction characters with
  | nil => rfl
  | cons character rest inductionHypothesis => simp [orderCharacters, inductionHypothesis]

theorem orderCharacters_swap (lefts rights : List Char) :
    (orderCharacters lefts rights).swap = orderCharacters rights lefts := by
  induction lefts generalizing rights with
  | nil => cases rights <;> rfl
  | cons first lefts inductionHypothesis =>
    cases rights with
    | nil => rfl
    | cons second rights =>
      simp only [orderCharacters]
      by_cases below : first.toNat < second.toNat
      · rw [if_pos below, if_neg (Nat.lt_asymm below), if_pos below]
        rfl
      · by_cases above : second.toNat < first.toNat
        · rw [if_neg below, if_pos above, if_pos above]
          rfl
        · rw [if_neg below, if_neg above, if_neg above, if_neg below]
          exact inductionHypothesis rights

theorem order_self (text : String) : order text text = .eq :=
  orderCharacters_self text.toList

end Scriptlet.Text
