/-
This file opens the readers that every phrase is made of. Each one is described twice:
what a list must start with for the reader to succeed, and what the reader does with a
list that starts so.
-/

import Scriptlet.Parser.Program
import Scriptlet.Proofs.Grammar.Basic
import Scriptlet.Proofs.Steps

namespace Scriptlet.Parser

open Grammar

variable {α β : Type} {tokens rest : List Placed}

/-! ### Single tokens -/

theorem peek_bind (next : Placed → Parser β) (tokens : List Placed) :
    (peek >>= next) tokens = next (front tokens) tokens := rfl

theorem skip_bind (next : Unit → Parser β) (tokens : List Placed) :
    (skip >>= next) tokens = next () tokens.tail := rfl

theorem of_peek_ok {next : Placed → Parser β} {result : β}
    (taken : (peek >>= next) tokens = .ok result rest) :
    (next (front tokens)).run tokens = .ok result rest := taken

theorem of_skip_ok {next : Unit → Parser β} {result : β}
    (taken : (skip >>= next) tokens = .ok result rest) :
    (next ()).run tokens.tail = .ok result rest := taken

@[simp] theorem front_cons (placed : Placed) (rest : List Placed) :
    front (placed :: rest) = placed := rfl

theorem eq_mark {placed : Placed} {symbol : Symbol} (kind : placed.token = .symbol symbol) :
    placed = mark symbol placed.position := by
  rw [mark, ← kind]

/-- A token at the front that is not the end is really there. -/
theorem eq_cons_of_front {token : Token} (found : (front tokens).token = token)
    (inside : token ≠ .endOfInput) :
    tokens = ⟨token, (front tokens).position⟩ :: tokens.tail := by
  cases tokens with
  | nil => exact absurd found.symm inside
  | cons placed rest =>
    rw [← found]
    rfl

/-- A reader that found something else yields nothing. -/
theorem not_unexpected {found : Placed} {expected : Expected} {result : α}
    (taken : unexpected found expected tokens = .ok result rest) : False := by
  have taken : (unexpected found expected).run tokens = .ok result rest := taken
  unfold unexpected at taken
  split at taken <;> cases taken

theorem advance_ok {expected : Expected} {found : Placed}
    (taken : advance expected tokens = .ok found rest) :
    tokens = found :: rest ∧ found.token ≠ .endOfInput := by
  have taken := of_skip_ok (of_peek_ok taken)
  split at taken
  · cases taken
  · rename_i inside
    obtain ⟨same, left⟩ := EStateM.of_pure_ok taken
    subst same left
    refine ⟨?_, inside⟩
    exact eq_cons_of_front rfl inside

theorem advance_cons {expected : Expected} {placed : Placed} (inside : placed.token ≠ .endOfInput)
    (rest : List Placed) : advance expected (placed :: rest) = .ok placed rest := by
  rw [advance, peek_bind, skip_bind, front_cons]
  cases kind : placed.token with
  | endOfInput => exact absurd kind inside
  | _ => rfl

theorem expect_ok {token : Token} {expected : Expected} {position : Position}
    (taken : expect token expected tokens = .ok position rest) :
    tokens = ⟨token, position⟩ :: rest := by
  obtain ⟨found, middle, advanced, checked⟩ := EStateM.of_bind_ok taken
  obtain ⟨start, _⟩ := advance_ok advanced
  split at checked
  · rename_i same
    obtain ⟨place, left⟩ := EStateM.of_pure_ok checked
    rw [start, ← same, ← place, ← left]
  · exact (not_unexpected checked).elim

theorem expect_cons {token : Token} (expected : Expected) (inside : token ≠ .endOfInput)
    (position : Position) (rest : List Placed) :
    expect token expected (⟨token, position⟩ :: rest) = .ok position rest := by
  rw [expect, EStateM.bind_of_ok (advance_cons inside rest), if_pos rfl]
  rfl

theorem expectSymbol_ok {symbol : Symbol} {position : Position}
    (taken : expectSymbol symbol tokens = .ok position rest) :
    tokens = mark symbol position :: rest :=
  expect_ok taken

theorem expectSymbol_mark (symbol : Symbol) (position : Position) (rest : List Placed) :
    expectSymbol symbol (mark symbol position :: rest) = .ok position rest :=
  expect_cons _ (fun ended => by cases ended) position rest

theorem expectKeyword_ok {keyword : Keyword} {position : Position}
    (taken : expectKeyword keyword tokens = .ok position rest) :
    tokens = word keyword position :: rest :=
  expect_ok taken

theorem expectKeyword_word (keyword : Keyword) (position : Position) (rest : List Placed) :
    expectKeyword keyword (word keyword position :: rest) = .ok position rest :=
  expect_cons _ (fun ended => by cases ended) position rest

theorem identifier_ok {name : PlacedName} (taken : identifier tokens = .ok name rest) :
    tokens = named name.name name.position :: rest := by
  obtain ⟨found, middle, advanced, checked⟩ := EStateM.of_bind_ok taken
  obtain ⟨start, _⟩ := advance_ok advanced
  split at checked
  · rename_i text same
    obtain ⟨equal, left⟩ := EStateM.of_pure_ok checked
    subst equal left
    rw [start, named, ← same]
  · split at checked
    · cases checked
    · exact (not_unexpected checked).elim

theorem identifier_named (name : PlacedName) (rest : List Placed) :
    identifier (named name.name name.position :: rest) = .ok name rest := by
  rw [identifier, EStateM.bind_of_ok (advance_cons (fun ended => by cases ended) rest)]
  rfl

/-! ### Lists -/

/-- Items up to the closing parenthesis are pieces with commas between them. -/
theorem itemsToClose_ok {item : Parser α} (Derived : List Placed → α → Prop)
    (sound : ∀ {tokens tree rest}, item tokens = .ok tree rest →
      ∃ taken, tokens = taken ++ rest ∧ Derived taken tree) :
    ∀ {bound : Nat} {tokens rest : List Placed} {items : List α},
      itemsToClose item bound tokens = .ok items rest →
      ∃ first others inner closed, items = trees (first :: others) ∧
        (∀ piece ∈ first :: others, Derived piece.tokens piece.tree) ∧
        Separated (first :: others) inner ∧ tokens = inner ++ mark .closeParen closed :: rest := by
  intro bound
  induction bound with
  | zero =>
    intro tokens rest items taken
    cases taken
  | succ bound inductionHypothesis =>
    intro tokens rest items taken
    rw [itemsToClose] at taken
    obtain ⟨tree, middle, read, taken⟩ := EStateM.of_bind_ok taken
    obtain ⟨itemTokens, start, derived⟩ := sound read
    obtain ⟨found, later, advanced, taken⟩ := EStateM.of_bind_ok taken
    obtain ⟨second, _⟩ := advance_ok advanced
    have onlyDerived : ∀ piece ∈ [(⟨itemTokens, tree⟩ : Piece α)],
        Derived piece.tokens piece.tree := by
      intro piece member
      rw [List.mem_singleton.mp member]
      exact derived
    split at taken
    · rename_i closing
      obtain ⟨equal, left⟩ := EStateM.of_pure_ok taken
      subst equal left
      refine ⟨⟨itemTokens, tree⟩, [], itemTokens, found.position, rfl, onlyDerived, .one _, ?_⟩
      rw [start, second, eq_mark closing]
      rfl
    · rename_i comma
      have taken := of_peek_ok taken
      split at taken
      · cases taken
      · obtain ⟨others, last, readOthers, done⟩ := EStateM.of_bind_ok taken
        obtain ⟨equal, left⟩ := EStateM.of_pure_ok done
        obtain ⟨first, more, inner, closed, otherItems, otherDerived, separated, rejoined⟩ :=
          inductionHypothesis readOthers
        subst equal left otherItems
        refine ⟨⟨itemTokens, tree⟩, first :: more, itemTokens ++ mark .comma found.position :: inner,
          closed, rfl, ?_, .more _ _ separated, ?_⟩
        · intro piece member
          rcases List.mem_cons.mp member with same | inRest
          · exact onlyDerived piece (List.mem_singleton.mpr same)
          · exact otherDerived piece inRest
        · rw [start, second, rejoined, eq_mark comma, List.append_assoc]
          rfl
    · exact (not_unexpected taken).elim

/-- What stands between parentheses is pieces with commas between them. -/
theorem commaSeparated_ok {item : Parser α} (Derived : List Placed → α → Prop)
    (sound : ∀ {tokens tree rest}, item tokens = .ok tree rest →
      ∃ taken, tokens = taken ++ rest ∧ Derived taken tree)
    {bound : Nat} {items : List α} (taken : commaSeparated item bound tokens = .ok items rest) :
    ∃ pieces inner closed, items = trees pieces ∧
      (∀ piece ∈ pieces, Derived piece.tokens piece.tree) ∧ Separated pieces inner ∧
      tokens = inner ++ mark .closeParen closed :: rest := by
  have taken := of_peek_ok taken
  split at taken
  · rename_i closing
    have taken := of_skip_ok taken
    obtain ⟨equal, left⟩ := EStateM.of_pure_ok taken
    subst equal left
    refine ⟨[], [], (front tokens).position, rfl, (fun _ member => by cases member), .none, ?_⟩
    exact eq_cons_of_front closing fun ended => by cases ended
  · obtain ⟨first, others, inner, closed, read⟩ := itemsToClose_ok Derived sound taken
    exact ⟨first :: others, inner, closed, read⟩

/-- Pieces with commas between them are taken as items, if each piece is taken as one. -/
theorem itemsToClose_separated {item : Parser α} {first : Piece α} {others : List (Piece α)}
    {inner : List Placed} (separated : Separated (first :: others) inner) :
    ∀ {bound : Nat}, others.length < bound →
    (∀ piece ∈ first :: others, ∀ rest,
      (front rest).token = .symbol .comma ∨ (front rest).token = .symbol .closeParen →
      item (piece.tokens ++ rest) = .ok piece.tree rest) →
    (∀ piece ∈ first :: others, ∀ rest,
      (front (piece.tokens ++ rest)).token ≠ .symbol .closeParen) →
    ∀ closed rest, itemsToClose item bound (inner ++ mark .closeParen closed :: rest) =
      .ok (trees (first :: others)) rest := by
  induction others generalizing first inner with
  | nil =>
    intro bound enough reads _ closed rest
    obtain ⟨bound, rfl⟩ := Nat.exists_eq_add_one_of_ne_zero (Nat.ne_of_gt enough)
    cases separated with
    | one =>
      have read := reads first List.mem_cons_self (mark .closeParen closed :: rest) (Or.inr rfl)
      rw [itemsToClose, EStateM.bind_of_ok read,
        EStateM.bind_of_ok (advance_cons (fun ended => by cases ended) rest)]
      rfl
  | cons next others inductionHypothesis =>
    intro bound enough reads opens closed rest
    obtain ⟨bound, rfl⟩ := Nat.exists_eq_add_one_of_ne_zero (Nat.ne_of_gt (Nat.zero_lt_of_lt enough))
    cases separated with
    | more _ comma separatedRest =>
      rename_i inner
      have inRest : ∀ {piece}, piece ∈ next :: others → piece ∈ first :: next :: others :=
        List.mem_cons_of_mem first
      have read := reads first List.mem_cons_self
        (mark .comma comma :: (inner ++ mark .closeParen closed :: rest)) (Or.inl rfl)
      have readRest := inductionHypothesis separatedRest (Nat.lt_of_succ_lt_succ enough)
        (fun piece member => reads piece (inRest member))
        (fun piece member => opens piece (inRest member)) closed rest
      have opensNext : (front (inner ++ mark .closeParen closed :: rest)).token ≠
          .symbol .closeParen := by
        have opensPiece := opens next (inRest List.mem_cons_self)
        cases separatedRest with
        | one => exact opensPiece _
        | more _ _ _ =>
          rw [List.append_assoc]
          exact opensPiece _
      rw [List.append_assoc, List.cons_append, itemsToClose, EStateM.bind_of_ok read,
        EStateM.bind_of_ok (advance_cons (fun ended => by cases ended) _)]
      refine (peek_bind _ _).trans ?_
      show EStateM.run _ _ = _
      split
      · rename_i closing
        exact absurd closing opensNext
      · exact EStateM.bind_of_ok readRest

/-- Pieces with commas between them are taken as the items between parentheses, if each piece is
taken as one. -/
theorem commaSeparated_separated {item : Parser α} {pieces : List (Piece α)} {inner : List Placed}
    (separated : Separated pieces inner) {bound : Nat} (enough : pieces.length ≤ bound)
    (reads : ∀ piece ∈ pieces, ∀ rest,
      (front rest).token = .symbol .comma ∨ (front rest).token = .symbol .closeParen →
      item (piece.tokens ++ rest) = .ok piece.tree rest)
    (opens : ∀ piece ∈ pieces, ∀ rest,
      (front (piece.tokens ++ rest)).token ≠ .symbol .closeParen)
    (closed : Position) (rest : List Placed) :
    commaSeparated item bound (inner ++ mark .closeParen closed :: rest) =
      .ok (trees pieces) rest := by
  cases pieces with
  | nil =>
    cases separated with
    | none => rfl
  | cons first others =>
    have opened : (front (inner ++ mark .closeParen closed :: rest)).token ≠
        .symbol .closeParen := by
      have opensFirst := opens first List.mem_cons_self
      cases separated with
      | one => exact opensFirst _
      | more _ _ _ =>
        rw [List.append_assoc]
        exact opensFirst _
    rw [commaSeparated, peek_bind]
    show EStateM.run _ _ = _
    split
    · rename_i closing
      exact absurd closing opened
    · exact itemsToClose_separated separated enough reads opens closed rest

/-! ### Parameters -/

theorem firstRepeated?_eq_none_iff (names : List PlacedName) (seen : List String) :
    firstRepeated? seen names = none ↔
      (names.map PlacedName.name).Nodup ∧ ∀ name ∈ names, name.name ∉ seen := by
  induction names generalizing seen with
  | nil => simp [firstRepeated?]
  | cons first rest inductionHypothesis =>
    rw [firstRepeated?]
    by_cases repeated : first.name ∈ seen
    · rw [if_pos repeated]
      constructor
      · intro impossible
        cases impossible
      · intro distinct
        exact absurd repeated (distinct.2 first List.mem_cons_self)
    · rw [if_neg repeated, inductionHypothesis, List.map_cons, List.nodup_cons]
      simp only [List.mem_cons, not_or, List.mem_map, not_exists, not_and, forall_eq_or_imp]
      constructor
      · rintro ⟨distinct, apart⟩
        exact ⟨⟨fun name member => (apart name member).1, distinct⟩, repeated,
          fun name member => (apart name member).2⟩
      · rintro ⟨⟨apart, distinct⟩, _, unseen⟩
        exact ⟨distinct, fun name member => ⟨apart name member, unseen name member⟩⟩

theorem eq_ofName {pieces : List (Piece PlacedName)}
    (derived : ∀ piece ∈ pieces, piece.tokens = [named piece.tree.name piece.tree.position]) :
    pieces = (trees pieces).map Piece.ofName := by
  induction pieces with
  | nil => rfl
  | cons piece rest inductionHypothesis =>
    have first : piece = Piece.ofName piece.tree := by
      rw [Piece.ofName, ← derived piece List.mem_cons_self]
    have others := inductionHypothesis fun other member =>
      derived other (List.mem_cons_of_mem piece member)
    rw [trees, List.map_cons, List.map_cons, ← first]
    exact congrArg (piece :: ·) others

theorem parameters_ok {bound : Nat} {names : List String}
    (taken : parameters bound tokens = .ok names rest) :
    ∃ parameters, tokens = parameters ++ rest ∧ Parameters parameters names := by
  obtain ⟨opened, middle, open_, taken⟩ := EStateM.of_bind_ok taken
  obtain ⟨placed, last, read, taken⟩ := EStateM.of_bind_ok taken
  have start := expectSymbol_ok open_
  obtain ⟨pieces, inner, closed, items, derived, separated, rejoined⟩ := commaSeparated_ok
    (fun taken name => taken = [named name.name name.position]) (fun read => ⟨_, identifier_ok read, rfl⟩) read
  split at taken
  · cases taken
  · rename_i distinct
    obtain ⟨equal, left⟩ := EStateM.of_pure_ok taken
    subst equal left
    have fromNames : pieces = placed.map Piece.ofName := by
      rw [items]
      exact eq_ofName derived
    rw [fromNames] at separated
    refine ⟨mark .openParen opened :: inner ++ [mark .closeParen closed], ?_,
      .intro placed opened closed ((firstRepeated?_eq_none_iff placed []).mp distinct).1 separated⟩
    rw [start, rejoined]
    simp

theorem parameters_derived {parameters : List Placed} {names : List String}
    (derived : Parameters parameters names) {bound : Nat} (enough : parameters.length ≤ bound)
    (rest : List Placed) : Parser.parameters bound (parameters ++ rest) = .ok names rest := by
  cases derived with
  | intro placed opened closed distinct separated =>
    rename_i inner
    have short : (placed.map Piece.ofName).length ≤ bound := by
      have counted := separated.length_le fun piece member => by
        obtain ⟨name, _, equal⟩ := List.mem_map.mp member
        rw [← equal]
        exact List.cons_ne_nil _ _
      simp only [List.length_append, List.length_cons] at enough
      omega
    have read := commaSeparated_separated separated short
      (fun piece member rest _ => by
        obtain ⟨name, _, equal⟩ := List.mem_map.mp member
        rw [← equal]
        exact identifier_named name rest)
      (fun piece member rest => by
        obtain ⟨name, _, equal⟩ := List.mem_map.mp member
        rw [← equal]
        exact fun closing => by cases closing) closed rest
    have trees_eq : trees (placed.map Piece.ofName) = placed := by
      rw [trees, List.map_map]
      exact List.map_id placed
    have unrepeated : firstRepeated? [] placed = none :=
      (firstRepeated?_eq_none_iff placed []).mpr ⟨distinct, fun _ _ => List.not_mem_nil⟩
    rw [List.append_assoc, List.cons_append, List.singleton_append, Parser.parameters,
      EStateM.bind_of_ok (expectSymbol_mark .openParen opened _), EStateM.bind_of_ok read, trees_eq,
      unrepeated]
    rfl

end Scriptlet.Parser
