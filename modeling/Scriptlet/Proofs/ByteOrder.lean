/-
This file proves that texts have one order: comparing the bytes of their encodings, one by one,
comes to the same as comparing the code points of their characters. The encoding of a character
is a leading byte and a number of following bytes. The leading byte tells this number, and it
starts higher where more bytes follow; the following bytes hold the code point to base 64. So of
two characters the lower one has, at the first place where the encodings differ, the lower byte.

What stands behind such a place does not matter, and equal characters have equal bytes, so the
order of characters carries over to texts of any length, by induction along both of them.
-/

import Mathlib.Algebra.Group.Nat.Defs
import Scriptlet.Value.Comparison

namespace Scriptlet.Text

/-- The bytes of a text. -/
def bytes (text : String) : List UInt8 :=
  text.toUTF8.data.toList

/-- The code points of a text. -/
def codePoints (text : String) : List Nat :=
  text.toList.map Char.toNat

theorem bytes_eq (text : String) : bytes text = text.toList.flatMap String.utf8EncodeChar := by
  rw [bytes, String.toUTF8, ← String.utf8Encode_toList, List.utf8Encode, List.data_toByteArray]

/-! ### Runs of bytes -/

/-- At the first place where the two runs differ, the first one has the lower byte. -/
def Below (first second : List UInt8) : Prop :=
  ∃ common low rest high more,
    first = common ++ low :: rest ∧ second = common ++ high :: more ∧ low < high

namespace Below

variable {first second : List UInt8}

theorem head {low high : UInt8} (less : low < high) (rest more : List UInt8) :
    Below (low :: rest) (high :: more) :=
  ⟨[], low, rest, high, more, rfl, rfl, less⟩

theorem cons (byte : UInt8) (below : Below first second) :
    Below (byte :: first) (byte :: second) := by
  obtain ⟨common, low, rest, high, more, rfl, rfl, less⟩ := below
  exact ⟨byte :: common, low, rest, high, more, rfl, rfl, less⟩

/-- What stands behind does not matter. -/
theorem append (below : Below first second) (rest more : List UInt8) :
    Below (first ++ rest) (second ++ more) := by
  obtain ⟨common, low, front, high, back, rfl, rfl, less⟩ := below
  refine ⟨common, low, front ++ rest, high, back ++ more, ?_, ?_, less⟩
  · rw [List.append_assoc, List.cons_append]
  · rw [List.append_assoc, List.cons_append]

end Below

theorem compare_append_left (common first second : List UInt8) :
    compare (common ++ first) (common ++ second) = compare first second := by
  induction common with
  | nil => rfl
  | cons byte common inductionHypothesis =>
    rw [List.cons_append, List.cons_append, List.compare_cons_cons, Std.ReflOrd.compare_self,
      inductionHypothesis]
    rfl

theorem Below.compare_eq_lt {first second : List UInt8} (below : Below first second) :
    compare first second = .lt := by
  obtain ⟨common, low, rest, high, more, rfl, rfl, less⟩ := below
  have leading : compare low high = .lt := Std.compare_eq_lt.mpr less
  rw [compare_append_left, List.compare_cons_cons, leading]
  rfl

theorem Below.compare_eq_gt {first second : List UInt8} (below : Below first second) :
    compare second first = .gt := by
  rw [Std.OrientedOrd.eq_swap, below.compare_eq_lt]
  rfl

/-! ### Characters -/

/-- The number of bytes that follow the leading one of a code point. -/
def following (codePoint : Nat) : Nat :=
  if codePoint ≤ 127 then 0
  else if codePoint ≤ 2047 then 1
  else if codePoint ≤ 65535 then 2
  else 3

/-- What the leading byte has in front of its part of the code point, given how many bytes
follow. -/
def marker : Nat → Nat
  | 0 => 0
  | 1 => 192
  | 2 => 224
  | 3 => 240
  | _ => 256

/-- The leading byte of a code point. -/
def leading (codePoint : Nat) : Nat :=
  codePoint / 64 ^ following codePoint + marker (following codePoint)

/-- So many bytes that follow the leading one, with six bits of the code point each. -/
def continuation : Nat → Nat → List UInt8
  | 0, _ => []
  | count + 1, codePoint =>
    continuation count (codePoint / 64) ++ [UInt8.ofNat (codePoint % 64 + 128)]

theorem toNat_le (character : Char) : character.toNat ≤ 1114111 := by
  have valid := character.valid
  unfold UInt32.isValidChar Nat.isValidChar at valid
  show character.val.toNat ≤ 1114111
  omega

theorem utf8EncodeChar_eq (character : Char) :
    String.utf8EncodeChar character =
      UInt8.ofNat (leading character.toNat) ::
        continuation (following character.toNat) character.toNat := by
  have bound := toNat_le character
  have value : character.val.toNat = character.toNat := rfl
  rw [String.utf8EncodeChar, value, leading, following]
  split
  · simp [marker, continuation]
  · split
    · have small : character.toNat / 64 % 32 = character.toNat / 64 := by omega
      simp [marker, continuation, small]
    · split
      · have small : character.toNat / 4096 % 16 = character.toNat / 4096 := by omega
        simp [marker, continuation, small]
      · have small : character.toNat / 262144 % 8 = character.toNat / 262144 := by omega
        simp [marker, continuation, small, Nat.div_div_eq_div_mul]

theorem marker_le {count more : Nat} (le : count ≤ more) : marker count ≤ marker more := by
  have next : ∀ count, marker count ≤ marker (count + 1)
    | 0 | 1 | 2 | 3 => by decide
    | _ + 4 => Nat.le_refl 256
  induction le with
  | refl => exact Nat.le_refl _
  | step _ inductionHypothesis => exact Nat.le_trans inductionHypothesis (next _)

theorem following_le {low high : Nat} (less : low < high) : following low ≤ following high := by
  unfold following
  grind

theorem following_le_three (codePoint : Nat) : following codePoint ≤ 3 := by
  unfold following
  grind

/-- The marks keep leading bytes apart that are followed by different numbers of bytes. -/
theorem leading_lt_marker {codePoint : Nat} (bound : codePoint ≤ 1114111) :
    leading codePoint < marker (following codePoint + 1) := by
  unfold leading following
  split
  · simp only [marker]
    omega
  · split
    · simp only [marker]
      omega
    · split
      · simp only [marker]
        omega
      · simp only [marker]
        omega

theorem leading_lt_size {codePoint : Nat} (bound : codePoint ≤ 1114111) :
    leading codePoint < UInt8.size := by
  have last : following codePoint + 1 ≤ 4 := Nat.succ_le_succ (following_le_three codePoint)
  exact Nat.lt_of_lt_of_le (leading_lt_marker bound) (marker_le last)

/-- Where more bytes follow, the leading byte is higher. -/
theorem leading_lt {low high : Nat} (less : low < high) (apart : following low ≠ following high)
    (bound : high ≤ 1114111) : leading low < leading high := by
  have more : following low + 1 ≤ following high := Nat.lt_of_le_of_ne (following_le less) apart
  calc leading low < marker (following low + 1) := leading_lt_marker (by omega)
    _ ≤ marker (following high) := marker_le more
    _ ≤ leading high := Nat.le_add_left _ _

/-- The following bytes of the lower code point are below, unless a byte in front of them tells
already. -/
theorem continuation_below (count : Nat) {low high : Nat} (less : low < high) :
    low / 64 ^ count < high / 64 ^ count ∨
      low / 64 ^ count = high / 64 ^ count ∧
        Below (continuation count low) (continuation count high) := by
  induction count generalizing low high with
  | zero =>
    refine Or.inl ?_
    rwa [Nat.pow_zero, Nat.div_one, Nat.div_one]
  | succ count inductionHypothesis =>
    rw [Nat.pow_succ', ← Nat.div_div_eq_div_mul, ← Nat.div_div_eq_div_mul]
    rcases Nat.lt_or_eq_of_le (Nat.div_le_div_right (c := 64) (Nat.le_of_lt less)) with
      earlier | same
    · rcases inductionHypothesis earlier with front | ⟨front, below⟩
      · exact Or.inl front
      · exact Or.inr ⟨front, below.append _ _⟩
    · -- Only the last six bits differ.
      have last : low % 64 < high % 64 := by omega
      have byte : UInt8.ofNat (low % 64 + 128) < UInt8.ofNat (high % 64 + 128) :=
        (UInt8.ofNat_lt_iff_lt (by show _ < 256; omega) (by show _ < 256; omega)).mpr (by omega)
      refine Or.inr ⟨by rw [same], ?_⟩
      rw [continuation, continuation, same]
      exact ⟨_, _, [], _, [], rfl, rfl, byte⟩

/-- The encoding of the lower character is below that of the higher one. -/
theorem utf8EncodeChar_below {low high : Char} (less : low.toNat < high.toNat) :
    Below (String.utf8EncodeChar low) (String.utf8EncodeChar high) := by
  rw [utf8EncodeChar_eq, utf8EncodeChar_eq]
  have byte : leading low.toNat < leading high.toNat →
      UInt8.ofNat (leading low.toNat) < UInt8.ofNat (leading high.toNat) :=
    (UInt8.ofNat_lt_iff_lt (leading_lt_size (toNat_le low)) (leading_lt_size (toNat_le high))).mpr
  by_cases alike : following low.toNat = following high.toNat
  · rcases continuation_below (following high.toNat) less with front | ⟨front, below⟩
    · refine .head (byte ?_) _ _
      rw [leading, leading, alike]
      exact Nat.add_lt_add_right front _
    · rw [leading, leading, alike, front]
      exact below.cons _
  · exact .head (byte (leading_lt less alike (toNat_le high))) _ _

/-! ### Texts -/

theorem compare_flatMap_encoded (lefts rights : List Char) :
    compare (lefts.flatMap String.utf8EncodeChar) (rights.flatMap String.utf8EncodeChar) =
      orderCharacters lefts rights := by
  induction lefts generalizing rights with
  | nil =>
    cases rights with
    | nil => rfl
    | cons second rights =>
      rw [List.flatMap_cons, utf8EncodeChar_eq]
      rfl
  | cons first lefts inductionHypothesis =>
    cases rights with
    | nil =>
      rw [List.flatMap_cons, utf8EncodeChar_eq]
      rfl
    | cons second rights =>
      rw [List.flatMap_cons, List.flatMap_cons, orderCharacters]
      by_cases less : first.toNat < second.toNat
      · rw [if_pos less]
        exact ((utf8EncodeChar_below less).append _ _).compare_eq_lt
      · by_cases more : second.toNat < first.toNat
        · rw [if_neg less, if_pos more]
          exact ((utf8EncodeChar_below more).append _ _).compare_eq_gt
        · have same : first = second := Char.toNat_inj.mp (by omega)
          rw [if_neg less, if_neg more, same, compare_append_left, inductionHypothesis]

theorem compare_map_toNat (lefts rights : List Char) :
    compare (lefts.map Char.toNat) (rights.map Char.toNat) = orderCharacters lefts rights := by
  induction lefts generalizing rights with
  | nil => cases rights <;> rfl
  | cons first lefts inductionHypothesis =>
    cases rights with
    | nil => rfl
    | cons second rights =>
      rw [List.map_cons, List.map_cons, List.compare_cons_cons, inductionHypothesis,
        orderCharacters, Nat.compare_eq_ite_lt]
      split
      · rfl
      · split <;> rfl

/-- For all texts the bytes of the encodings are in the order of the code points, whether this is
less, equal or greater, and it is the order in which the language compares texts. -/
theorem compare_bytes_eq_compare_codePoints (left right : String) :
    compare (bytes left) (bytes right) = compare (codePoints left) (codePoints right) ∧
    order left right = compare (bytes left) (bytes right) ∧
    (Value.str left).order? (.str right) = some (compare (bytes left) (bytes right)) := by
  have encoded : compare (bytes left) (bytes right) = order left right := by
    rw [bytes_eq, bytes_eq, compare_flatMap_encoded, order]
  have scalars : compare (codePoints left) (codePoints right) = order left right :=
    compare_map_toNat left.toList right.toList
  exact ⟨encoded.trans scalars.symm, encoded.symm, congrArg some encoded.symm⟩

-- Comparing units of sixteen bits would put the second text first.
example : compare (bytes "\uffff") (bytes "😀") = .lt := by decide +kernel

end Scriptlet.Text
