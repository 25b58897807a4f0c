/-
This file compares the grammar as it is written down with the one that the readers
follow. They differ on token lists in which an update behind its operand is followed by
a call or an index, and on those only: a phrase of the larger grammar is one of the
smaller grammar exactly if its tokens have no such place.
-/

import Scriptlet.Proofs.Grammar.Opening

namespace Scriptlet.Grammar

/-! ### Updates that something follows -/

/-- Whether a variable can end with a token. -/
def endsVariable : Token → Bool
  | .identifier _ => true
  | .symbol .closeParen => true
  | _ => false

/-- Whether a token updates a variable. -/
def isUpdate : Token → Bool
  | .symbol .increment => true
  | .symbol .decrement => true
  | _ => false

/-- Whether a token opens a call or an index. -/
def opensSuffix : Token → Bool
  | .symbol .openParen => true
  | .symbol .openBracket => true
  | _ => false

/-- Whether a call or an index stands behind an update that stands behind a variable. -/
def suffixedUpdate : List Placed → Bool
  | first :: second :: third :: rest =>
    endsVariable first.token && isUpdate second.token && opensSuffix third.token ||
      suffixedUpdate (second :: third :: rest)
  | _ => false

/-- No call or index stands behind an update. -/
def Plain (tokens : List Placed) : Prop :=
  suffixedUpdate tokens = false

/-- A list is empty or starts with a token outside a set. -/
def Avoids (holds : Token → Bool) (tokens : List Placed) : Prop :=
  ∀ first ∈ tokens.head?, holds first.token = false

/-- A list is empty or ends with a token outside a set. -/
def AvoidsLast (holds : Token → Bool) (tokens : List Placed) : Prop :=
  ∀ last ∈ tokens.getLast?, holds last.token = false

theorem StartsWith.avoids {holds others : Token → Bool} {tokens : List Placed}
    (starts : StartsWith holds tokens)
    (disjoint : ∀ token, holds token = true → others token = false) : Avoids others tokens := by
  obtain ⟨first, rest, equal, found⟩ := starts
  subst equal
  intro other isFirst
  cases isFirst
  exact disjoint _ found

namespace Plain

variable {first : Placed} {front back tokens : List Placed}

theorem nil : Plain [] := rfl

theorem singleton (only : Placed) : Plain [only] := rfl

theorem cons_iff {second third : Placed} {rest : List Placed} :
    Plain (first :: second :: third :: rest) ↔
      (endsVariable first.token && isUpdate second.token && opensSuffix third.token) = false ∧
        Plain (second :: third :: rest) := by
  rw [Plain, suffixedUpdate, Bool.or_eq_false_iff]
  rfl

theorem tail (plain : Plain (first :: tokens)) : Plain tokens := by
  match tokens with
  | [] => exact nil
  | [only] => exact singleton only
  | second :: third :: rest => exact (cons_iff.mp plain).2

/-- A token with which no variable ends can be put in front. -/
theorem cons (plain : Plain tokens) (free : endsVariable first.token = false) :
    Plain (first :: tokens) := by
  match tokens with
  | [] => exact singleton first
  | [only] => rfl
  | second :: third :: rest =>
    refine cons_iff.mpr ⟨?_, plain⟩
    rw [free]
    rfl

/-- Any token can be put in front of what does not start with an update. -/
theorem cons_of_avoids (plain : Plain tokens) (avoids : Avoids isUpdate tokens) :
    Plain (first :: tokens) := by
  match tokens with
  | [] => exact singleton first
  | [only] => rfl
  | second :: third :: rest =>
    have noUpdate : isUpdate second.token = false := avoids second rfl
    refine cons_iff.mpr ⟨?_, plain⟩
    rw [noUpdate, Bool.and_false]
    rfl

theorem right (plain : Plain (front ++ back)) : Plain back := by
  induction front with
  | nil => exact plain
  | cons first rest inductionHypothesis => exact inductionHypothesis plain.tail

theorem left (plain : Plain (front ++ back)) : Plain front := by
  induction front with
  | nil => exact nil
  | cons first rest inductionHypothesis =>
    have plainRest := inductionHypothesis plain.tail
    match rest, plainRest with
    | [], _ => exact singleton first
    | [only], _ => rfl
    | second :: third :: more, plainRest => exact cons_iff.mpr ⟨(cons_iff.mp plain).1, plainRest⟩

/-- Lists can be joined where no update is next to a variable or to a call or an index. -/
theorem append (plainFront : Plain front) (plainBack : Plain back)
    (noUpdate : AvoidsLast endsVariable front ∨ Avoids isUpdate back)
    (noSuffix : AvoidsLast isUpdate front ∨ Avoids opensSuffix back) : Plain (front ++ back) := by
  induction front with
  | nil => exact plainBack
  | cons first rest inductionHypothesis =>
    match rest with
    | [] =>
      rcases noUpdate with free | free
      · exact plainBack.cons (free first rfl)
      · exact plainBack.cons_of_avoids free
    | [second] =>
      have plainSecond := inductionHypothesis (singleton second) noUpdate noSuffix
      match back with
      | [] => exact plainFront
      | third :: more =>
        refine cons_iff.mpr ⟨?_, plainSecond⟩
        rcases noSuffix with free | free
        · have noUpdate : isUpdate second.token = false := free second rfl
          rw [noUpdate, Bool.and_false]
          rfl
        · have noSuffix : opensSuffix third.token = false := free third rfl
          rw [noSuffix, Bool.and_false]
    | second :: third :: more =>
      obtain ⟨here, plainRest⟩ := cons_iff.mp plainFront
      exact cons_iff.mpr ⟨here, inductionHypothesis plainRest noUpdate noSuffix⟩

/-- A symbol that neither updates nor opens a call or an index separates two lists. -/
theorem append_cons {between : Placed} (plainFront : Plain front)
    (plainBack : Plain (between :: back)) (noUpdate : isUpdate between.token = false)
    (noSuffix : opensSuffix between.token = false) : Plain (front ++ between :: back) := by
  refine plainFront.append plainBack (Or.inr fun first isFirst => ?_) (Or.inr fun first isFirst => ?_)
  · cases isFirst
    exact noUpdate
  · cases isFirst
    exact noSuffix

/-- A token that opens neither a call nor an index can be put behind anything. -/
theorem concat {last : Placed} (plain : Plain tokens) (noSuffix : opensSuffix last.token = false) :
    Plain (tokens ++ [last]) := by
  induction tokens with
  | nil => exact singleton last
  | cons first rest inductionHypothesis =>
    have plainRest := inductionHypothesis plain.tail
    match rest with
    | [] => rfl
    | [second] =>
      refine cons_iff.mpr ⟨?_, plainRest⟩
      rw [noSuffix, Bool.and_false]
    | second :: third :: more => exact cons_iff.mpr ⟨(cons_iff.mp plain).1, plainRest⟩

end Plain

/-! ### Last tokens -/

/-- Whether a phrase in which no update is gone on with can end with a token. -/
def Phrase.closes : Phrase → Token → Bool
  | .applied, token => !isUpdate token
  | .primary, token => !isUpdate token
  | .block, token => token = .symbol .closeBrace
  | .statement, token => token = .symbol .semicolon ∨ token = .symbol .closeBrace
  | .branch, token => token = .symbol .closeBrace
  | .alternative, token => token = .symbol .closeBrace
  | _, _ => true

/-- A list ends with a token of a set. -/
def EndsWith (holds : Token → Bool) (tokens : List Placed) : Prop :=
  ∃ last ∈ tokens.getLast?, holds last.token = true

namespace EndsWith

variable {holds others : Token → Bool} {front back : List Placed}

theorem concat {last : Placed} (found : holds last.token = true) (front : List Placed) :
    EndsWith holds (front ++ [last]) :=
  ⟨last, List.getLast?_concat, found⟩

theorem append (ends : EndsWith holds back) (front : List Placed) :
    EndsWith holds (front ++ back) := by
  obtain ⟨last, isLast, found⟩ := ends
  refine ⟨last, ?_, found⟩
  rw [List.getLast?_append, Option.mem_def.mp isLast]
  rfl

theorem mono (ends : EndsWith holds front)
    (implies : ∀ {token}, holds token = true → others token = true) : EndsWith others front := by
  obtain ⟨last, isLast, found⟩ := ends
  exact ⟨last, isLast, implies found⟩

theorem avoidsLast (ends : EndsWith holds front)
    (disjoint : ∀ token, holds token = true → others token = false) : AvoidsLast others front := by
  obtain ⟨last, isLast, found⟩ := ends
  intro other isOther
  rw [Option.mem_unique isOther isLast]
  exact disjoint _ found

end EndsWith

/-- Every phrase in which no update is gone on with ends with a token that its kind can end
with. -/
theorem Derives.closes {phrase : Phrase} {tokens : List Placed} {tree : phrase.Tree}
    (derived : Derives false phrase tokens tree) : EndsWith phrase.closes tokens := by
  induction derived with
  | single _ ends => exact ends
  | join position _ _ _ _ ends => exact (ends.append [mark _ position]).append _
  | tighter _ _ ends => exact ends
  | tightest _ ends => exact ends
  | leading position _ _ _ ends => exact ends.append [mark _ position]
  | unled _ ends => exact ends
  | update _ _ _ _ _ => exact .concat rfl _
  | notUpdated _ ends => exact ends.mono fun _ => rfl
  | extended impossible _ _ => cases impossible
  | call _ _ _ _ _ _ _ _ => exact .concat rfl _
  | index _ _ _ _ _ _ => exact .concat rfl _
  | notApplied _ ends => exact ends
  | literal literal position => exact .concat (by cases literal <;> rfl) []
  | name name position => exact .concat rfl []
  | parenthesized _ _ _ _ => exact .concat rfl _
  | lambda position arrow _ _ ends =>
    refine ((ends.append [mark .arrow arrow]).append _).mono fun same => ?_
    rw [of_decide_eq_true same]
    rfl
  | block _ _ _ _ _ => exact .concat rfl _
  | evaluate _ ends => exact ends
  | assign _ sign _ _ _ ends => exact (ends.append [mark .assign sign]).append _
  | compoundAssign _ sign _ _ _ _ ends => exact (ends.append [mark _ sign]).append _
  | declare start position sign _ _ ends =>
    exact ends.append [word _ start, named _ position, mark .assign sign]
  | undeclared _ ends => exact ends
  | simple _ _ _ => exact .concat rfl _
  | nested _ ends =>
    exact ends.mono fun same => decide_eq_true (Or.inr (of_decide_eq_true same))
  | leave position semicolon => exact .concat rfl [word .returnWord position]
  | leaveWith _ _ _ _ => exact .concat rfl _
  | breakLoop position semicolon => exact .concat rfl [word .breakWord position]
  | continueLoop position semicolon => exact .concat rfl [word .continueWord position]
  | loop _ _ closed _ _ _ ends =>
    refine ((ends.append [mark .closeParen closed]).append _).mono fun same => ?_
    exact decide_eq_true (Or.inr (of_decide_eq_true same))
  | counterLoop _ _ _ _ closed _ _ _ _ _ _ _ _ _ ends =>
    refine ((ends.append [mark .closeParen closed]).append _).mono fun same => ?_
    exact decide_eq_true (Or.inr (of_decide_eq_true same))
  | branch _ ends =>
    exact ends.mono fun same => decide_eq_true (Or.inr (of_decide_eq_true same))
  | branchAlone _ _ closed _ _ _ ends => exact (ends.append [mark .closeParen closed]).append _
  | branchElse _ _ _ otherwise _ _ _ _ _ ends =>
    exact (ends.append [word .elseWord otherwise]).append _
  | chained _ ends => exact ends
  | unchained _ ends => exact ends

/-! ### Readers' phrases are plain -/

theorem not_isUpdate_of_openBrace (token : Token) (opens : Phrase.block.opens token = true) :
    isUpdate token = false := by
  rw [of_decide_eq_true opens]
  rfl

theorem plain_separated {α : Type} {pieces : List (Piece α)} {tokens : List Placed}
    (separated : Separated pieces tokens) (plain : ∀ piece ∈ pieces, Plain piece.tokens) :
    Plain tokens := by
  induction separated with
  | none => exact Plain.nil
  | one piece => exact plain piece List.mem_cons_self
  | more piece comma _ inductionHypothesis =>
    have plainRest := inductionHypothesis fun other member =>
      plain other (List.mem_cons_of_mem piece member)
    exact (plain piece List.mem_cons_self).append_cons (plainRest.cons rfl) rfl rfl

theorem plain_parameters {tokens : List Placed} {names : List String}
    (derived : Parameters tokens names) : Plain tokens := by
  cases derived with
  | intro placed opened closed _ separated =>
    have inner := plain_separated separated fun piece member => by
      obtain ⟨name, _, equal⟩ := List.mem_map.mp member
      rw [← equal]
      exact Plain.singleton _
    have opening : Plain (mark .openParen opened :: _) := inner.cons rfl
    exact opening.concat rfl

theorem not_endsVariable_of_closes (token : Token) (closes : Phrase.statement.closes token = true) :
    endsVariable token = false := by
  rcases of_decide_eq_true closes with rfl | rfl <;> rfl

theorem not_isUpdate_of_closes (token : Token) (closes : Phrase.statement.closes token = true) :
    isUpdate token = false := by
  rcases of_decide_eq_true closes with rfl | rfl <;> rfl

/-- Statements end with a token that neither a variable nor an update ends with. -/
theorem plain_statements {pieces : List (Piece Statement)}
    (derived : ∀ piece ∈ pieces, Derives false .statement piece.tokens piece.tree)
    (plain : ∀ piece ∈ pieces, Plain piece.tokens) : Plain (joinTokens pieces) := by
  induction pieces with
  | nil => exact Plain.nil
  | cons first others inductionHypothesis =>
    have plainOthers := inductionHypothesis
      (fun piece member => derived piece (List.mem_cons_of_mem first member))
      (fun piece member => plain piece (List.mem_cons_of_mem first member))
    have closes := (derived first List.mem_cons_self).closes
    exact (plain first List.mem_cons_self).append plainOthers
      (Or.inl (closes.avoidsLast not_endsVariable_of_closes))
      (Or.inl (closes.avoidsLast not_isUpdate_of_closes))

/-- What stands between parentheses behind a word, and the block behind it. -/
theorem plain_headed {keyword : Keyword} {position opened closed : Position}
    {inner body : List Placed} (plainInner : Plain inner) (plainBody : Plain body)
    (opens : StartsWith Phrase.block.opens body) :
    Plain (word keyword position :: mark .openParen opened :: inner ++
      mark .closeParen closed :: body) := by
  have opening : Plain (word keyword position :: mark .openParen opened :: inner) :=
    Plain.cons (plainInner.cons rfl) rfl
  exact opening.append_cons (plainBody.cons_of_avoids (opens.avoids not_isUpdate_of_openBrace))
    rfl rfl

theorem operator_separates {level : Level} {symbol : Symbol} {connective : Connective}
    (member : (symbol, connective) ∈ operators level) :
    endsVariable (.symbol symbol) = false ∧ isUpdate (.symbol symbol) = false ∧
      opensSuffix (.symbol symbol) = false := by
  have table : ∀ entry ∈ operators level, endsVariable (.symbol entry.1) = false ∧
      isUpdate (.symbol entry.1) = false ∧ opensSuffix (.symbol entry.1) = false := by
    cases level <;> decide
  exact table _ member

theorem sign_separates {symbol : Symbol} {operation : Arithmetic}
    (member : (symbol, operation) ∈ compoundSigns) :
    endsVariable (.symbol symbol) = false ∧ isUpdate (.symbol symbol) = false ∧
      opensSuffix (.symbol symbol) = false := by
  have table : ∀ entry ∈ compoundSigns, endsVariable (.symbol entry.1) = false ∧
      isUpdate (.symbol entry.1) = false ∧ opensSuffix (.symbol entry.1) = false := by
    decide
  exact table _ member

theorem leading_not_endsVariable {symbol : Symbol} {op : UnaryOp}
    (member : (symbol, op) ∈ leadingOperators) : endsVariable (.symbol symbol) = false := by
  have table : ∀ entry ∈ leadingOperators, endsVariable (.symbol entry.1) = false := by
    decide
  exact table _ member

theorem update_not_opensSuffix {symbol : Symbol} {step : Step} (member : (symbol, step) ∈ updates) :
    opensSuffix (.symbol symbol) = false := by
  have table : ∀ entry ∈ updates, opensSuffix (.symbol entry.1) = false := by
    decide
  exact table _ member

/-- A call or an index that stands behind no update. -/
theorem plain_suffixed {front inner : List Placed} {opening closing : Placed} (plain : Plain front)
    (ends : EndsWith Phrase.applied.closes front) (plainInner : Plain inner)
    (notUpdate : isUpdate opening.token = false) (free : endsVariable opening.token = false)
    (noSuffix : opensSuffix closing.token = false) :
    Plain (front ++ opening :: inner ++ [closing]) := by
  have opened : Plain (front ++ opening :: inner) := by
    refine plain.append (plainInner.cons free) (Or.inr fun first isFirst => ?_)
      (Or.inl (ends.avoidsLast fun token closes => ?_))
    · cases isFirst
      exact notUpdate
    · exact (Bool.not_eq_true' _).mp closes
  exact opened.concat noSuffix

/-- Phrases in which no update is gone on with are plain. -/
theorem Derives.plain {phrase : Phrase} {tokens : List Placed} {tree : phrase.Tree}
    (derived : Derives false phrase tokens tree) : Plain tokens := by
  induction derived with
  | single _ plain => exact plain
  | join position _ member _ plainLeft plainRight =>
    obtain ⟨free, notUpdate, noSuffix⟩ := operator_separates member
    exact plainLeft.append_cons (plainRight.cons free) notUpdate noSuffix
  | tighter _ _ plain => exact plain
  | tightest _ plain => exact plain
  | leading position member _ _ plain => exact plain.cons (leading_not_endsVariable member)
  | unled _ plain => exact plain
  | update position _ member _ plain => exact plain.concat (update_not_opensSuffix member)
  | notUpdated _ plain => exact plain
  | extended _ _ plain => exact plain
  | call arguments position closed callee _ separated plainCallee plainArguments =>
    exact plain_suffixed plainCallee callee.closes (plain_separated separated plainArguments)
      rfl rfl rfl
  | index position closed target _ plainTarget plainIndex =>
    exact plain_suffixed plainTarget target.closes plainIndex rfl rfl rfl
  | notApplied _ plain => exact plain
  | literal literal position => exact Plain.singleton _
  | name name position => exact Plain.singleton _
  | parenthesized opened closed _ plain =>
    have opening : Plain (mark .openParen opened :: _) := plain.cons rfl
    exact opening.concat rfl
  | lambda position arrow parameters _ plain =>
    have opening : Plain (word .lamWord position :: _) := (plain_parameters parameters).cons rfl
    exact opening.append_cons (plain.cons rfl) rfl rfl
  | block statements position closed each plain =>
    have opening : Plain (mark .openBrace position :: _) := (plain_statements each plain).cons rfl
    exact opening.concat rfl
  | evaluate _ plain => exact plain
  | assign _ sign _ _ plainTarget plainValue =>
    exact plainTarget.append_cons (plainValue.cons rfl) rfl rfl
  | compoundAssign _ sign member _ _ plainTarget plainValue =>
    obtain ⟨free, notUpdate, noSuffix⟩ := sign_separates member
    exact plainTarget.append_cons (plainValue.cons free) notUpdate noSuffix
  | declare start position sign _ _ plain =>
    have assigned : Plain (mark .assign sign :: _) := plain.cons rfl
    refine Plain.cons (assigned.cons_of_avoids fun first isFirst => ?_) rfl
    cases isFirst
    rfl
  | undeclared _ plain => exact plain
  | simple semicolon _ plain => exact plain.concat rfl
  | nested _ plain => exact plain
  | leave position semicolon => rfl
  | leaveWith position semicolon _ plain =>
    have opening : Plain (word .returnWord position :: _) := plain.cons rfl
    exact opening.concat rfl
  | breakLoop position semicolon => rfl
  | continueLoop position semicolon => rfl
  | loop position opened closed _ body plainTest plainBody =>
    exact plain_headed plainTest plainBody body.opens
  | counterLoop position opened first second closed _ _ _ _ _ body plainStart plainTest plainStep
      plainBody =>
    have opening : Plain (word .forWord position :: mark .openParen opened :: _) :=
      Plain.cons (plainStart.cons rfl) rfl
    have test : Plain (mark .semicolon first :: _) := plainTest.cons rfl
    have step : Plain (mark .semicolon second :: _) := plainStep.cons rfl
    exact ((opening.append_cons test rfl rfl).append_cons step rfl rfl).append_cons
      (plainBody.cons_of_avoids (body.opens.avoids not_isUpdate_of_openBrace)) rfl rfl
  | branch _ plain => exact plain
  | branchAlone position opened closed _ body plainTest plainBody =>
    exact plain_headed plainTest plainBody body.opens
  | branchElse position opened closed otherwise _ body _ plainTest plainBody plainOther =>
    exact (plain_headed plainTest plainBody body.opens).append_cons (plainOther.cons rfl) rfl rfl
  | chained _ plain => exact plain
  | unchained _ plain => exact plain

theorem DerivesProcedure.plain {tokens : List Placed} {procedure : Procedure}
    (derived : DerivesProcedure false tokens procedure) : Plain tokens := by
  cases derived with
  | intro position place parameters body =>
    rename_i name _ _
    have plainNames := plain_parameters parameters
    cases parameters with
    | intro names opened closed _ _ =>
      have naming : Plain (named name place :: _) :=
        plainNames.cons_of_avoids fun first isFirst => by
          cases isFirst
          rfl
      have opening : Plain (word .procWord position :: named name place :: _) := naming.cons rfl
      refine opening.append body.plain (Or.inr (body.opens.avoids not_isUpdate_of_openBrace))
        (Or.inr (body.opens.avoids fun token opens => ?_))
      rw [of_decide_eq_true opens]
      rfl

theorem avoids_procedures {extending : Bool} {pieces : List (Piece Procedure)}
    {holds : Token → Bool}
    (derived : ∀ piece ∈ pieces, DerivesProcedure extending piece.tokens piece.tree)
    (free : holds (.keyword .procWord) = false) : Avoids holds (joinTokens pieces) := by
  cases pieces with
  | nil =>
    intro first isFirst
    cases isFirst
  | cons piece others =>
    obtain ⟨position, rest, start⟩ := (derived piece List.mem_cons_self).starts
    have split : joinTokens (piece :: others) = piece.tokens ++ joinTokens others := rfl
    intro first isFirst
    rw [split, start] at isFirst
    cases isFirst
    exact free

theorem DerivesProgram.plain {tokens : List Placed} {program : Program}
    (derived : DerivesProgram false tokens program) : Plain tokens := by
  cases derived with
  | intro pieces each distinct =>
    clear distinct
    induction pieces with
    | nil => exact Plain.nil
    | cons first others inductionHypothesis =>
      have eachOther : ∀ piece ∈ others, DerivesProcedure false piece.tokens piece.tree :=
        fun piece member => each piece (List.mem_cons_of_mem first member)
      have plainOthers := inductionHypothesis eachOther
      exact (each first List.mem_cons_self).plain.append plainOthers
        (Or.inr (avoids_procedures eachOther rfl)) (Or.inr (avoids_procedures eachOther rfl))

/-! ### Plain phrases are the readers' -/

/-- Pieces of a plain list are plain. -/
theorem Plain.of_separated {α : Type} {pieces : List (Piece α)} {tokens : List Placed}
    (separated : Separated pieces tokens) (plain : Plain tokens) :
    ∀ piece ∈ pieces, Plain piece.tokens := by
  induction separated with
  | none =>
    intro piece member
    cases member
  | one only =>
    intro piece member
    rw [List.mem_singleton.mp member]
    exact plain
  | more first comma _ inductionHypothesis =>
    intro piece member
    rcases List.mem_cons.mp member with same | inRest
    · rw [same]
      exact plain.left
    · exact inductionHypothesis plain.right.tail piece inRest

theorem Plain.of_joinTokens {α : Type} {pieces : List (Piece α)}
    (plain : Plain (joinTokens pieces)) : ∀ piece ∈ pieces, Plain piece.tokens := by
  induction pieces with
  | nil =>
    intro piece member
    cases member
  | cons first others inductionHypothesis =>
    have split : joinTokens (first :: others) = first.tokens ++ joinTokens others := rfl
    rw [split] at plain
    intro piece member
    rcases List.mem_cons.mp member with same | inRest
    · rw [same]
      exact plain.left
    · exact inductionHypothesis plain.right piece inRest

/-- A call or an index behind an update of a variable. -/
theorem not_plain_suffixed {front rest : List Placed} {update opening : Placed}
    (ends : EndsWith endsVariable front) (updates : isUpdate update.token = true)
    (opens : opensSuffix opening.token = true) : ¬ Plain (front ++ update :: opening :: rest) := by
  intro plain
  obtain ⟨last, isLast, found⟩ := ends
  obtain ⟨start, rfl⟩ := List.getLast?_eq_some_iff.mp isLast
  rw [List.append_assoc] at plain
  have here := (Plain.cons_iff.mp plain.right).1
  rw [found, updates, opens] at here
  cases here

theorem update_isUpdate {symbol : Symbol} {step : Step} (member : (symbol, step) ∈ updates) :
    isUpdate (.symbol symbol) = true := by
  have table : ∀ entry ∈ updates, isUpdate (.symbol entry.1) = true := by
    decide
  exact table _ member

/-- A variable ends with its name or with a parenthesis around it. -/
theorem Derives.endsVariable {tokens : List Placed} {tree : Expr}
    (derived : Derives false .applied tokens tree) (isName : Variable tree) :
    EndsWith endsVariable tokens := by
  cases isName with
  | intro name position =>
    cases derived with
    | extended impossible _ => cases impossible
    | notApplied primary =>
      cases primary with
      | name _ _ => exact .concat rfl []
      | parenthesized opened closed _ => exact .concat rfl _

/-- An update whose operand is a variable. Nothing plain goes on behind it. -/
def UpdatesVariable (tokens : List Placed) (tree : Expr) : Prop :=
  Derives false .updated tokens tree ∧ ¬ Variable tree ∧
    ∀ opening rest, opensSuffix opening.token = true → ¬ Plain (tokens ++ opening :: rest)

theorem applied_or_updatesVariable {tokens : List Placed} {tree : Expr}
    (derived : Derives false .updated tokens tree) :
    Derives false .applied tokens tree ∨ UpdatesVariable tokens tree := by
  cases derived with
  | notUpdated applied => exact Or.inl applied
  | update position applied member updatable =>
    refine Or.inr ⟨.update position applied member updatable, ?_, fun opening rest opens => ?_⟩
    · intro impossible
      cases impossible
    · rw [List.append_assoc, List.singleton_append]
      exact not_plain_suffixed (applied.endsVariable updatable) (update_isUpdate member) opens

/-- A phrase without the rule for what follows an update, up to an update at its end. -/
def Settled : (phrase : Phrase) → List Placed → phrase.Tree → Prop
  | .applied, tokens, tree => Derives false .applied tokens tree ∨ UpdatesVariable tokens tree
  | phrase, tokens, tree => Derives false phrase tokens tree

/-- Plain phrases of the grammar as it is written down need no rule for what follows an update. -/
theorem Derives.settled {phrase : Phrase} {tokens : List Placed} {tree : phrase.Tree}
    (derived : Derives true phrase tokens tree) (plain : Plain tokens) :
    Settled phrase tokens tree := by
  induction derived with
  | single _ settled => exact .single (settled plain)
  | join position _ member _ left right =>
    exact .join position (left plain.left) member (right plain.right.tail)
  | tighter member _ settled => exact .tighter member (settled plain)
  | tightest _ settled => exact .tightest (settled plain)
  | leading position member _ updatable settled =>
    exact .leading position member (settled plain.tail) updatable
  | unled _ settled => exact .unled (settled plain)
  | update position _ member updatable settled =>
    rcases settled plain.left with applied | updated
    · exact .update position applied member updatable
    · exact absurd updatable updated.2.1
  | notUpdated _ settled =>
    rcases settled plain with applied | updated
    · exact .notUpdated applied
    · exact updated.1
  | extended _ _ settled => exact applied_or_updatesVariable (settled plain)
  | call arguments position closed _ _ separated callee each =>
    have plainInner := plain.left.right.tail
    rcases callee plain.left.left with applied | updated
    · refine Or.inl (.call arguments position closed applied (fun argument member => ?_) separated)
      exact each argument member (Plain.of_separated separated plainInner argument member)
    · exact absurd plain.left (updated.2.2 _ _ rfl)
  | index position closed _ _ target index =>
    rcases target plain.left.left with applied | updated
    · exact Or.inl (.index position closed applied (index plain.left.right.tail))
    · exact absurd plain.left (updated.2.2 _ _ rfl)
  | notApplied _ settled => exact Or.inl (.notApplied (settled plain))
  | literal literal position => exact .literal literal position
  | name name position => exact .name name position
  | parenthesized opened closed _ settled =>
    exact .parenthesized opened closed (settled plain.left.tail)
  | lambda position arrow parameters _ settled =>
    exact .lambda position arrow parameters (settled plain.right.tail)
  | block statements position closed _ settled =>
    have plainInner := Plain.of_joinTokens plain.left.tail
    exact .block statements position closed fun statement member =>
      settled statement member (plainInner statement member)
  | evaluate _ settled => exact .evaluate (settled plain)
  | assign position sign _ _ target value =>
    exact .assign position sign (target plain.left) (value plain.right.tail)
  | compoundAssign position sign member _ _ target value =>
    exact .compoundAssign position sign member (target plain.left) (value plain.right.tail)
  | declare start position sign member _ settled =>
    exact .declare start position sign member (settled plain.tail.tail.tail)
  | undeclared _ settled => exact .undeclared (settled plain)
  | simple semicolon _ settled => exact .simple semicolon (settled plain.left)
  | nested _ settled => exact .nested (settled plain)
  | leave position semicolon => exact .leave position semicolon
  | leaveWith position semicolon _ settled =>
    exact .leaveWith position semicolon (settled plain.left.tail)
  | breakLoop position semicolon => exact .breakLoop position semicolon
  | continueLoop position semicolon => exact .continueLoop position semicolon
  | loop position opened closed _ _ test body =>
    exact .loop position opened closed (test plain.left.tail.tail) (body plain.right.tail)
  | counterLoop position opened first second closed _ initializes _ _ advances _ start test step
      body =>
    exact .counterLoop position opened first second closed (start plain.left.left.left.tail.tail)
      initializes (test plain.left.left.right.tail) (step plain.left.right.tail) advances
      (body plain.right.tail)
  | branch _ settled => exact .branch (settled plain)
  | branchAlone position opened closed _ _ test body =>
    exact .branchAlone position opened closed (test plain.left.tail.tail) (body plain.right.tail)
  | branchElse position opened closed otherwise _ _ _ test body other =>
    exact .branchElse position opened closed otherwise (test plain.left.left.tail.tail)
      (body plain.left.right.tail) (other plain.right.tail)
  | chained _ settled => exact .chained (settled plain)
  | unchained _ settled => exact .unchained (settled plain)

/-- What the readers take is in the grammar as it is written down. -/
theorem Derives.extending {phrase : Phrase} {tokens : List Placed} {tree : phrase.Tree}
    (derived : Derives false phrase tokens tree) : Derives true phrase tokens tree := by
  induction derived with
  | single _ inner => exact .single inner
  | join position _ member _ left right => exact .join position left member right
  | tighter member _ inner => exact .tighter member inner
  | tightest _ inner => exact .tightest inner
  | leading position member _ updatable inner => exact .leading position member inner updatable
  | unled _ inner => exact .unled inner
  | update position _ member updatable inner => exact .update position inner member updatable
  | notUpdated _ inner => exact .notUpdated inner
  | extended impossible _ _ => cases impossible
  | call arguments position closed _ _ separated callee each =>
    exact .call arguments position closed callee each separated
  | index position closed _ _ target index => exact .index position closed target index
  | notApplied _ inner => exact .notApplied inner
  | literal literal position => exact .literal literal position
  | name name position => exact .name name position
  | parenthesized opened closed _ inner => exact .parenthesized opened closed inner
  | lambda position arrow parameters _ body => exact .lambda position arrow parameters body
  | block statements position closed _ each => exact .block statements position closed each
  | evaluate _ inner => exact .evaluate inner
  | assign position sign _ _ target value => exact .assign position sign target value
  | compoundAssign position sign member _ _ target value =>
    exact .compoundAssign position sign member target value
  | declare start position sign member _ value => exact .declare start position sign member value
  | undeclared _ inner => exact .undeclared inner
  | simple semicolon _ inner => exact .simple semicolon inner
  | nested _ inner => exact .nested inner
  | leave position semicolon => exact .leave position semicolon
  | leaveWith position semicolon _ value => exact .leaveWith position semicolon value
  | breakLoop position semicolon => exact .breakLoop position semicolon
  | continueLoop position semicolon => exact .continueLoop position semicolon
  | loop position opened closed _ _ test body => exact .loop position opened closed test body
  | counterLoop position opened first second closed _ initializes _ _ advances _ start test step
      body =>
    exact .counterLoop position opened first second closed start initializes test step advances body
  | branch _ inner => exact .branch inner
  | branchAlone position opened closed _ _ test body =>
    exact .branchAlone position opened closed test body
  | branchElse position opened closed otherwise _ _ _ test body other =>
    exact .branchElse position opened closed otherwise test body other
  | chained _ inner => exact .chained inner
  | unchained _ inner => exact .unchained inner

theorem derivesProcedure_iff_plain {tokens : List Placed} {procedure : Procedure} :
    DerivesProcedure false tokens procedure ↔
      DerivesProcedure true tokens procedure ∧ Plain tokens := by
  constructor
  · intro derived
    refine ⟨?_, derived.plain⟩
    cases derived with
    | intro position place parameters body => exact .intro position place parameters body.extending
  · rintro ⟨derived, plain⟩
    cases derived with
    | intro position place parameters body =>
      exact .intro position place parameters (body.settled plain.right)

/-- The two grammars differ on programs in which a call or an index stands behind an update, and
on no others. -/
theorem derivesProgram_iff_plain {tokens : List Placed} {program : Program} :
    DerivesProgram false tokens program ↔ DerivesProgram true tokens program ∧ Plain tokens := by
  constructor
  · intro derived
    refine ⟨?_, derived.plain⟩
    cases derived with
    | intro pieces each distinct =>
      exact .intro pieces (fun piece member => (derivesProcedure_iff_plain.mp (each piece member)).1)
        distinct
  · rintro ⟨derived, plain⟩
    cases derived with
    | intro pieces each distinct =>
      have plainPieces := Plain.of_joinTokens plain
      refine .intro pieces (fun piece member => ?_) distinct
      exact derivesProcedure_iff_plain.mpr ⟨each piece member, plainPieces piece member⟩

end Scriptlet.Grammar
