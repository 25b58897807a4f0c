/-
This file proves that lists and texts obey the laws of sequences. A list has its items for parts,
and a text its characters, each as a text of its own. Length, indices and concatenation, which are
computed in different ways for both, all go by these parts. So an index is good if it is less than
the length, a concatenation has the parts of the first sequence and then those of the second, and
the parts put together one by one are the sequence again. For lists, head and rest are the first
part and the others.
-/

import Scriptlet.Builtin
import Scriptlet.Proofs.Division
import Scriptlet.Proofs.Steps

namespace Scriptlet

/-! ### Elements by index -/

section

variable {α : Type} {items : List α} {index : Int64}

theorem elementAt_of_toInt {place : Nat} (placed : index.toInt = place) :
    elementAt items index =
      items[place]?.elim (.error (.indexOutOfBounds index items.length)) .ok := by
  unfold elementAt
  rw [show index.toInt = .ofNat place from placed]
  dsimp only
  cases items[place]? with
  | some item => rfl
  | none => rfl

theorem elementAt_of_outside (outside : ¬ (0 ≤ index.toInt ∧ index.toInt < items.length)) :
    elementAt items index = .error (.indexOutOfBounds index items.length) := by
  by_cases nonnegative : 0 ≤ index.toInt
  · obtain ⟨place, placed⟩ := Int.eq_ofNat_of_zero_le nonnegative
    have beyond : items.length ≤ place := by omega
    rw [elementAt_of_toInt placed, List.getElem?_eq_none beyond, Option.elim_none]
  · obtain ⟨place, placed⟩ := Int.eq_negSucc_of_lt_zero (Int.not_le.mp nonnegative)
    unfold elementAt
    rw [placed]

/-- An element is found at an index that is a place of it. -/
theorem elementAt_eq_ok_iff {item : α} :
    elementAt items index = .ok item ↔
      ∃ place : Nat, index.toInt = place ∧ items[place]? = some item := by
  constructor
  · intro found
    by_cases inside : 0 ≤ index.toInt ∧ index.toInt < items.length
    · obtain ⟨place, placed⟩ := Int.eq_ofNat_of_zero_le inside.1
      refine ⟨place, placed, ?_⟩
      rw [elementAt_of_toInt placed] at found
      cases present : items[place]? with
      | some other =>
        rw [present] at found
        cases found
        rfl
      | none =>
        rw [present] at found
        cases found
    · rw [elementAt_of_outside inside] at found
      cases found
  · rintro ⟨place, placed, present⟩
    rw [elementAt_of_toInt placed, present, Option.elim_some]

theorem exists_elementAt_iff :
    (∃ item, elementAt items index = .ok item) ↔ 0 ≤ index.toInt ∧ index.toInt < items.length := by
  constructor
  · rintro ⟨item, found⟩
    obtain ⟨place, placed, present⟩ := elementAt_eq_ok_iff.mp found
    have inside := (List.getElem?_eq_some_iff.mp present).1
    omega
  · intro inside
    obtain ⟨place, placed⟩ := Int.eq_ofNat_of_zero_le inside.1
    have within : place < items.length := by omega
    exact ⟨items[place], elementAt_eq_ok_iff.mpr ⟨place, placed, List.getElem?_eq_getElem within⟩⟩

theorem elementAt_map {β : Type} (convert : α → β) :
    elementAt (items.map convert) index = (elementAt items index).map convert := by
  by_cases inside : 0 ≤ index.toInt ∧ index.toInt < items.length
  · obtain ⟨place, placed⟩ := Int.eq_ofNat_of_zero_le inside.1
    rw [elementAt_of_toInt placed, elementAt_of_toInt placed, List.getElem?_map, List.length_map]
    cases items[place]? with
    | some item => rfl
    | none => rfl
  · rw [elementAt_of_outside inside, elementAt_of_outside (by rwa [List.length_map]),
      List.length_map]
    rfl

end

namespace Value

variable {sequence first second : Value}

/-- What a list or a text consists of: its items, or its characters as texts of their own. -/
def parts : Value → List Value
  | .list items => items
  | .str text => text.toList.map ofChar
  | _ => []

theorem element_eq_elementAt (indexable : sequence.isIndexable = true) (index : Int64) :
    sequence.element index = elementAt sequence.parts index := by
  cases sequence with
  | list items => rfl
  | str text => exact (elementAt_map ofChar).symm
  | _ => cases indexable

theorem length_eq_ofInt (indexable : sequence.isIndexable = true) :
    sequence.length = ofInt sequence.parts.length := by
  cases sequence with
  | list items => rfl
  | str text => rw [length, parts, List.length_map, String.length_toList]
  | _ => cases indexable

/-- A sequence with the parts of two sequences of one type is their sum. -/
theorem exists_sum (indexable : first.isIndexable = true) (sameType : second.type = first.type) :
    ∃ joined, Arithmetic.add.apply first second = .ok joined ∧ joined.type = first.type ∧
      joined.parts = first.parts ++ second.parts := by
  cases first with
  | list items =>
    cases second with
    | list others => exact ⟨.list (items ++ others), rfl, rfl, rfl⟩
    | _ => cases sameType
  | str text =>
    cases second with
    | str other =>
      refine ⟨.str (text ++ other), rfl, rfl, ?_⟩
      rw [parts, parts, parts, String.toList_append, List.map_append]
    | _ => cases sameType
  | _ => cases indexable

end Value

/-! ### Numbers of parts -/

theorem ofInt_eq_ok_iff {number : Int} {integer : Int64} :
    Value.ofInt number = .ok (.int integer) ↔ integer.toInt = number := by
  constructor
  · intro kept
    by_cases fits : fitsInt64 number
    · rw [ofInt_of_fitsInt64 fits] at kept
      cases kept
      exact toInt_ofInt_of_fitsInt64 fits
    · cases (if_neg fits).symm.trans kept
  · rintro rfl
    exact ofInt_toInt integer

theorem add_eq_ok_iff {left right sum : Int64} :
    Arithmetic.add.apply (.int left) (.int right) = .ok (.int sum) ↔
      sum.toInt = left.toInt + right.toInt :=
  ofInt_eq_ok_iff

theorem subtract_eq_ok_iff {left right difference : Int64} :
    Arithmetic.subtract.apply (.int left) (.int right) = .ok (.int difference) ↔
      difference.toInt = left.toInt - right.toInt :=
  ofInt_eq_ok_iff

section

variable {α : Type} {index length : Int64} {item : α}

/-- The elements of the first list come in front of those of the second. -/
theorem elementAt_append_iff {front back : List α} (count : length.toInt = front.length) :
    elementAt (front ++ back) index = .ok item ↔
      index < length ∧ elementAt front index = .ok item ∨
        length ≤ index ∧ ∃ place,
          Arithmetic.subtract.apply (.int index) (.int length) = .ok (.int place) ∧
            elementAt back place = .ok item := by
  simp only [Int64.lt_iff_toInt_lt, Int64.le_iff_toInt_le, subtract_eq_ok_iff, elementAt_eq_ok_iff,
    count]
  rcases Int.lt_or_le index.toInt front.length with before | behind
  · rw [or_iff_left fun after => Int.not_le.mpr before after.1, and_iff_right before]
    refine exists_congr fun place => and_congr_right fun placed => ?_
    rw [List.getElem?_append_left (by omega)]
  · rw [or_iff_right fun inside => Int.not_le.mpr inside.1 behind, and_iff_right behind]
    constructor
    · rintro ⟨place, placed, present⟩
      obtain ⟨further, rfl⟩ := Nat.exists_eq_add_of_le (show front.length ≤ place by omega)
      rw [List.getElem?_append_right (Nat.le_add_right ..), Nat.add_sub_cancel_left] at present
      have bound := index.toInt_lt
      have counted : (Int64.ofNat further).toInt = further := Int64.toInt_ofNat_of_lt (by omega)
      exact ⟨Int64.ofNat further, by omega, further, counted, present⟩
    · rintro ⟨behindFront, difference, place, placed, present⟩
      refine ⟨front.length + place, by omega, ?_⟩
      rw [List.getElem?_append_right (Nat.le_add_right ..), Nat.add_sub_cancel_left, present]

/-- The elements behind the first one are found one index further on. The greatest index has no next
one, but in so short a list no element either. -/
theorem elementAt_tail_iff {first : α} {others : List α} (few : others.length + 1 < 2 ^ 63)
    (nonnegative : 0 ≤ index) :
    elementAt others index = .ok item ↔ ∃ next,
      Arithmetic.add.apply (.int index) (.int 1) = .ok (.int next) ∧
        elementAt (first :: others) next = .ok item := by
  have start : 0 ≤ index.toInt := Int64.le_iff_toInt_le.mp nonnegative
  have one : (1 : Int64).toInt = 1 := rfl
  simp only [add_eq_ok_iff, elementAt_eq_ok_iff, one]
  constructor
  · rintro ⟨place, placed, present⟩
    have within := (List.getElem?_eq_some_iff.mp present).1
    have counted : (Int64.ofNat (place + 1)).toInt = (place + 1 : Nat) :=
      Int64.toInt_ofNat_of_lt (by omega)
    exact ⟨Int64.ofNat (place + 1), by omega, place + 1, counted, present⟩
  · rintro ⟨next, follows, place, placed, present⟩
    obtain ⟨before, rfl⟩ : ∃ before, place = before + 1 := ⟨place - 1, by omega⟩
    exact ⟨before, by omega, present⟩

end

/-- A call of a builtin comes to a value, whatever has been written, and writes nothing. -/
def Builtin.Yields (builtin : Builtin) (arguments : List Value) (value : Value) : Prop :=
  ∀ sink, builtin.run arguments sink = .ok value sink

theorem Builtin.yields_single {builtin : SingleBuiltin} {argument value : Value}
    (applied : builtin.apply argument = .ok value) :
    (Builtin.single builtin).Yields [argument] value := by
  intro sink
  rw [run, applied]
  rfl

namespace Value

variable {sequence first second : Value}

/-- The length of a sequence tells which of its indices are good. -/
structure Measured (sequence : Value) (length : Int64) : Prop where
  len : (Builtin.single .len).Yields [sequence] (.int length)
  count : length.toInt = sequence.parts.length
  inside : ∀ index, (∃ value, sequence.element index = .ok value) ↔ 0 ≤ index ∧ index < length
  outside : ∀ index, ¬ (0 ≤ index ∧ index < length) →
    sequence.element index = .error (.indexOutOfBounds index length.toInt.toNat)

theorem measured (indexable : sequence.isIndexable = true) (few : sequence.parts.length < 2 ^ 63) :
    sequence.Measured (Int64.ofNat sequence.parts.length) := by
  have count := Int64.toInt_ofNat_of_lt few
  have good (index : Int64) : 0 ≤ index ∧ index < Int64.ofNat sequence.parts.length ↔
      0 ≤ index.toInt ∧ index.toInt < sequence.parts.length := by
    rw [Int64.le_iff_toInt_le, Int64.lt_iff_toInt_lt, count]
    rfl
  refine ⟨Builtin.yields_single ?_, count, fun index => ?_, fun index outside => ?_⟩
  · exact (length_eq_ofInt indexable).trans (ofInt_eq_ok_iff.mpr count)
  · rw [element_eq_elementAt indexable, good]
    exact exists_elementAt_iff
  · rw [element_eq_elementAt indexable, elementAt_of_outside (mt (good index).mpr outside), count]
    rfl

/-! ### Sums -/

/-- A sum of two sequences has their lengths together, and the elements of the first in front of
those of the second. -/
structure Joined (first second joined : Value) (length other : Int64) : Prop where
  sum : Arithmetic.add.apply first second = .ok joined
  len : ∃ total, (Builtin.single .len).Yields [joined] (.int total) ∧
    Arithmetic.add.apply (.int length) (.int other) = .ok (.int total)
  element : ∀ index value, joined.element index = .ok value ↔
    index < length ∧ first.element index = .ok value ∨
      length ≤ index ∧ ∃ place,
        Arithmetic.subtract.apply (.int index) (.int length) = .ok (.int place) ∧
          second.element place = .ok value

theorem isIndexable_of_type (indexable : first.isIndexable = true)
    (sameType : second.type = first.type) : second.isIndexable = true := by
  cases first with
  | list items =>
    cases second with
    | list others => rfl
    | _ => cases sameType
  | str text =>
    cases second with
    | str other => rfl
    | _ => cases sameType
  | _ => cases indexable

theorem exists_joined (indexable : first.isIndexable = true) (sameType : second.type = first.type)
    (few : first.parts.length + second.parts.length < 2 ^ 63) :
    ∃ joined, first.Joined second joined (Int64.ofNat first.parts.length)
      (Int64.ofNat second.parts.length) := by
  obtain ⟨joined, sum, joinedType, joinedParts⟩ := exists_sum indexable sameType
  have total : joined.parts.length = first.parts.length + second.parts.length := by
    rw [joinedParts, List.length_append]
  have joinedIndexable := isIndexable_of_type indexable joinedType
  have firstCount : (Int64.ofNat first.parts.length).toInt = first.parts.length :=
    Int64.toInt_ofNat_of_lt (by omega)
  have secondCount : (Int64.ofNat second.parts.length).toInt = second.parts.length :=
    Int64.toInt_ofNat_of_lt (by omega)
  have joinedMeasured := measured joinedIndexable (by omega)
  refine ⟨joined, sum, ⟨_, joinedMeasured.len, add_eq_ok_iff.mpr ?_⟩, fun index value => ?_⟩
  · rw [joinedMeasured.count, firstCount, secondCount, total, Int.natCast_add]
  · simp only [element_eq_elementAt joinedIndexable, element_eq_elementAt indexable,
      element_eq_elementAt (isIndexable_of_type indexable sameType), joinedParts]
    exact elementAt_append_iff firstCount

/-! ### Parts put together -/

/-- The empty sequence of the same type as a sequence. -/
def unit (sequence : Value) : EStateM RuntimeFault Sink Value :=
  match sequence with
  | .list _ => (Builtin.variadic .list).run []
  | _ => return .str ""

/-- The sequence, of the same type as a sequence, whose only part is a part of it. -/
def single (sequence part : Value) : EStateM RuntimeFault Sink Value :=
  match sequence with
  | .list _ => (Builtin.variadic .list).run [part]
  | _ => return part

/-- Starts from the empty sequence and adds a number of elements of a sequence, one after the
other. -/
def gather (sequence : Value) : Nat → EStateM RuntimeFault Sink Value
  | 0 => sequence.unit
  | count + 1 => do
    let gathered ← sequence.gather count
    let element ← MonadExcept.ofExcept (sequence.element (Int64.ofNat count))
    let added ← sequence.single element
    MonadExcept.ofExcept (Arithmetic.add.apply gathered added)

theorem ofChar_injective : Function.Injective ofChar := by
  intro left right same
  injection same with same
  have characters := congrArg String.toList same
  rw [String.toList_singleton, String.toList_singleton] at characters
  exact List.singleton_inj.mp characters

theorem eq_of_parts (indexable : first.isIndexable = true) (sameType : second.type = first.type)
    (sameParts : second.parts = first.parts) : second = first := by
  cases first with
  | list items =>
    cases second with
    | list others => exact congrArg list sameParts
    | _ => cases sameType
  | str text =>
    cases second with
    | str other =>
      have characters := List.map_injective_iff.mpr ofChar_injective sameParts
      exact congrArg str (String.toList_injective characters)
    | _ => cases sameType
  | _ => cases indexable

theorem exists_unit (indexable : sequence.isIndexable = true) :
    ∃ empty, (∀ sink, sequence.unit sink = .ok empty sink) ∧ empty.type = sequence.type ∧
      empty.parts = [] := by
  cases sequence with
  | list items => exact ⟨.list [], fun _ => rfl, rfl, rfl⟩
  | str text => exact ⟨.str "", fun _ => rfl, rfl, rfl⟩
  | _ => cases indexable

theorem exists_single {part : Value} (isPart : part ∈ sequence.parts) :
    ∃ added, (∀ sink, sequence.single part sink = .ok added sink) ∧ added.type = sequence.type ∧
      added.parts = [part] := by
  cases sequence with
  | list items => exact ⟨.list [part], fun _ => rfl, rfl, rfl⟩
  | str text =>
    obtain ⟨character, -, rfl⟩ := List.mem_map.mp isPart
    refine ⟨ofChar character, fun _ => rfl, rfl, ?_⟩
    rw [ofChar, parts, String.toList_singleton]
    rfl
  | _ => cases isPart

/-- The elements up to a place, put together, are the parts up to that place. -/
theorem exists_gather (indexable : sequence.isIndexable = true)
    (few : sequence.parts.length < 2 ^ 63) (count : Nat) (within : count ≤ sequence.parts.length) :
    ∃ gathered, (∀ sink, sequence.gather count sink = .ok gathered sink) ∧
      gathered.type = sequence.type ∧ gathered.parts = sequence.parts.take count := by
  induction count with
  | zero => exact exists_unit indexable
  | succ count ih =>
    obtain ⟨gathered, gathers, gatheredType, gatheredParts⟩ := ih (by omega)
    have present := List.getElem?_eq_getElem (show count < sequence.parts.length from within)
    have element : sequence.element (Int64.ofNat count) = .ok sequence.parts[count] := by
      rw [element_eq_elementAt indexable]
      exact elementAt_eq_ok_iff.mpr ⟨count, Int64.toInt_ofNat_of_lt (by omega), present⟩
    obtain ⟨added, adds, addedType, addedParts⟩ :=
      exists_single (List.getElem_mem (show count < sequence.parts.length from within))
    obtain ⟨joined, sum, joinedType, joinedParts⟩ :=
      exists_sum (isIndexable_of_type indexable gatheredType) (addedType.trans gatheredType.symm)
    refine ⟨joined, fun sink => ?_, joinedType.trans gatheredType, ?_⟩
    · rw [gather, EStateM.bind_of_ok (gathers sink), element]
      show (sequence.single _ >>= _) sink = _
      rw [EStateM.bind_of_ok (adds sink), sum]
      rfl
    · rw [joinedParts, gatheredParts, addedParts, List.take_append_getElem]

theorem gather_all (indexable : sequence.isIndexable = true)
    (few : sequence.parts.length < 2 ^ 63) (sink : Sink) :
    sequence.gather sequence.parts.length sink = .ok sequence sink := by
  obtain ⟨gathered, gathers, gatheredType, gatheredParts⟩ :=
    exists_gather indexable few sequence.parts.length (Nat.le_refl _)
  rw [List.take_length] at gatheredParts
  rw [gathers sink, eq_of_parts indexable gatheredType gatheredParts]

/-! ### Head and rest -/

/-- A list falls into its first element and the others. There is nothing, as which `nil` stands,
in the place of both if the list is empty. -/
structure Split (sequence first others : Value) (length : Int64) : Prop where
  head : (Builtin.single .head).Yields [sequence] first
  rest : (Builtin.single .rest).Yields [sequence] others
  isEmpty : ∃ truth, (Builtin.single .isEmpty).Yields [sequence] (.bool truth) ∧
    (truth = true ↔ length = 0)
  nothing : others = .nil ↔ length = 0
  first_nothing : length = 0 → first = .nil
  first_element : length ≠ 0 → sequence.element 0 = .ok first
  others_element : length ≠ 0 → ∀ index value, 0 ≤ index →
    (others.element index = .ok value ↔ ∃ next,
      Arithmetic.add.apply (.int index) (.int 1) = .ok (.int next) ∧
        sequence.element next = .ok value)
  restored : length ≠ 0 → ∃ single, (Builtin.variadic .list).Yields [first] single ∧
    Arithmetic.add.apply single others = .ok sequence

theorem exists_split (items : List Value) (few : items.length < 2 ^ 63) :
    ∃ first others, (list items).Split first others (Int64.ofNat items.length) := by
  cases items with
  | nil =>
    refine ⟨.nil, .nil, Builtin.yields_single rfl, Builtin.yields_single rfl,
      ⟨true, Builtin.yields_single rfl, iff_of_true rfl rfl⟩, iff_of_true rfl rfl, fun _ => rfl,
      ?_, ?_, ?_⟩
    all_goals exact fun some => absurd rfl some
  | cons first others =>
    have some : Int64.ofNat (others.length + 1) ≠ 0 := fun none => by
      have count := Int64.toInt_ofNat_of_lt few
      rw [List.length_cons, none] at count
      rw [Int64.toInt_zero] at count
      omega
    exact ⟨first, .list others,
      { head := Builtin.yields_single rfl
        rest := Builtin.yields_single rfl
        isEmpty := ⟨false, Builtin.yields_single rfl, iff_of_false nofun some⟩
        nothing := iff_of_false nofun some
        first_nothing := fun none => absurd none some
        first_element := fun _ => rfl
        others_element := fun _ index value => elementAt_tail_iff few
        restored := fun _ => ⟨.list [first], fun _ => rfl, rfl⟩ }⟩

end Value

/-- Length, indices and sums of two lists or two texts agree, and so do the builtins that take a
list apart. The length tells which indices are good. A sum has the lengths together and the
elements one after the other. The elements put together are the sequence. The first element and
the others of a list, put together, are the list. -/
theorem sequences_agree {first second : Value} (indexable : first.isIndexable = true)
    (sameType : second.type = first.type)
    (few : first.parts.length + second.parts.length < 2 ^ 63) :
    ∃ length other joined, first.Measured length ∧ second.Measured other ∧
      first.Joined second joined length other ∧
      (∀ sink, first.gather length.toInt.toNat sink = .ok first sink) ∧
      (first.type = .list → ∃ head rest, first.Split head rest length) := by
  have firstFew : first.parts.length < 2 ^ 63 := by omega
  have secondFew : second.parts.length < 2 ^ 63 := by omega
  have secondIndexable := Value.isIndexable_of_type indexable sameType
  obtain ⟨joined, isJoined⟩ := Value.exists_joined indexable sameType few
  refine ⟨_, _, joined, Value.measured indexable firstFew, Value.measured secondIndexable secondFew,
    isJoined, fun sink => ?_, fun isList => ?_⟩
  · rw [Int64.toInt_ofNat_of_lt firstFew]
    exact Value.gather_all indexable firstFew sink
  · cases first with
    | list items => exact Value.exists_split items firstFew
    | _ => cases isList

/-- Two texts, the first of which has more bytes than characters, and two lists. -/
theorem sequences_agree_text_and_list :
    (∃ length other joined, (Value.str "é").Measured length ∧ (Value.str "ün").Measured other ∧
      (Value.str "é").Joined (.str "ün") joined length other ∧
      ∀ sink, (Value.str "é").gather length.toInt.toNat sink = .ok (.str "é") sink) ∧
    ∃ length other joined, (Value.list [.nil]).Measured length ∧ (Value.list []).Measured other ∧
      (Value.list [.nil]).Joined (.list []) joined length other ∧
      (∀ sink, (Value.list [.nil]).gather length.toInt.toNat sink = .ok (.list [.nil]) sink) ∧
      ∃ head rest, (Value.list [.nil]).Split head rest length := by
  constructor
  · obtain ⟨length, other, joined, measured, otherMeasured, isJoined, gathered, -⟩ :=
      @sequences_agree (.str "é") (.str "ün") rfl rfl (by decide)
    exact ⟨length, other, joined, measured, otherMeasured, isJoined, gathered⟩
  · obtain ⟨length, other, joined, measured, otherMeasured, isJoined, gathered, split⟩ :=
      @sequences_agree (.list [.nil]) (.list []) rfl rfl (by decide)
    exact ⟨length, other, joined, measured, otherMeasured, isJoined, gathered, split rfl⟩

end Scriptlet
