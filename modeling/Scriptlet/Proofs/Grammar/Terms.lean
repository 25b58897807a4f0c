/-
This file says what is asked of a reader. A goal that is ready comes to a tree of what it
has taken, or it stops with a fault that is about the token it has last looked at. Two goals
may also refuse what they have read, which they find out about behind it. On the way a goal
may turn to other goals, deeper ones as long as no token is taken.

A recipe meets such terms if it does so wherever the goals it names come to what is asked of
them. So the terms are met reader by reader, and whatever they are good for follows for all
readers at once, by induction on the bound.
-/

import Scriptlet.Proofs.Grammar.Completeness
import Scriptlet.Proofs.Recipe
import Scriptlet.Proofs.Grammar.Headers

namespace Scriptlet.Parser

open Grammar

/-! ### What is taken -/

/-- The tokens go past no end mark and end outside of loop headers. -/
def Passed (taken : List Placed) : Prop :=
  Endless taken ∧ Shut taken

namespace Passed

variable {tokens rest : List Placed}

/-- Where all parentheses are closed, no loop header is left open. -/
theorem of_enclosed (endless : Endless tokens) (enclosed : Enclosed tokens) : Passed tokens :=
  ⟨endless, enclosed.shut⟩

theorem nil : Passed [] :=
  of_enclosed Endless.nil Enclosed.nil

theorem append (first : Passed tokens) (second : Passed rest) : Passed (tokens ++ rest) :=
  ⟨first.1.append second.1, first.2.append second.2⟩

theorem single {first : Placed} (inside : first.token ≠ .endOfInput)
    (other : first.token ≠ .keyword .forWord) : Passed [first] :=
  ⟨Endless.nil.cons inside, Shut.single other⟩

theorem mark (symbol : Symbol) (position : Position) (passed : Passed rest) :
    Passed (Grammar.mark symbol position :: rest) :=
  append (single (fun same => by cases same) fun same => by cases same) passed

theorem derived {phrase : Phrase} {tree : phrase.Tree}
    (derived : Derives false phrase tokens tree) : Passed tokens :=
  of_enclosed derived.endless derived.enclosed

theorem arguments {pieces : List (Piece Expr)} (separated : Separated pieces tokens)
    (each : ∀ piece ∈ pieces, Derives false .expression piece.tokens piece.tree) :
    Passed tokens :=
  of_enclosed (Endless.separated separated fun piece member => (each piece member).endless)
    (Enclosed.separated separated fun piece member => (each piece member).enclosed)

end Passed

/-- The tokens taken make up a phrase. -/
def Took (phrase : Phrase) (tokens : List Placed) (tree : phrase.Tree) (rest : List Placed) :
    Prop :=
  ∃ taken, tokens = taken ++ rest ∧ Derives false phrase taken tree

/-- The tokens taken complete what was read before to a phrase. -/
def Completed (before : Phrase) (start : before.Tree) (phrase : Phrase) (tokens : List Placed)
    (tree : phrase.Tree) (rest : List Placed) : Prop :=
  ∃ taken, tokens = taken ++ rest ∧ Passed taken ∧
    ∀ front, Derives false before front start → Derives false phrase (front ++ taken) tree

/-- The tokens taken are statements and the brace behind them. -/
def TookStatements (tokens : List Placed) (statements : List Statement) (rest : List Placed) :
    Prop :=
  ∃ pieces closed, statements = trees pieces ∧
    (∀ piece ∈ pieces, Derives false .statement piece.tokens piece.tree) ∧
    tokens = joinTokens pieces ++ mark .closeBrace closed :: rest

/-- The tokens taken are an expression and the parentheses around it. -/
def TookCondition (tokens : List Placed) (tree : Expr) (rest : List Placed) : Prop :=
  ∃ opened inner closed,
    tokens = mark .openParen opened :: inner ++ mark .closeParen closed :: rest ∧
    Derives false .expression inner tree

/-- The tokens taken are a procedure with a name that is new. -/
def TookProcedure (defined : List String) (tokens : List Placed) (tree : Procedure)
    (rest : List Placed) : Prop :=
  ∃ taken, tokens = taken ++ rest ∧ DerivesProcedure false taken tree ∧ tree.name ∉ defined

/-- The tokens taken are all up to an end, and make up procedures. Their names differ from each
other and from those defined before. -/
def TookProcedures (defined : List String) (tokens : List Placed) (procedures : List Procedure)
    (rest : List Placed) : Prop :=
  ∃ pieces, procedures = trees pieces ∧ tokens = joinTokens pieces ++ rest ∧
    (∀ piece ∈ pieces, DerivesProcedure false piece.tokens piece.tree) ∧
    (procedures.map Procedure.name).Nodup ∧
    (∀ procedure ∈ procedures, procedure.name ∉ defined) ∧
    (front rest).token = .endOfInput

/-! ### What is asked of goals -/

namespace Goal

/-- What is taken by a goal that comes to a tree. -/
def Took : (goal : Goal) → List Placed → goal.Tree → List Placed → Prop
  | .expression => Parser.Took .expression
  | .joined level => Parser.Took (.joined level)
  | .joinedTail level left => Completed (.joined level) left (.joined level)
  | .operand level => Parser.Took (.operand level)
  | .unary => Parser.Took .unary
  | .primary => Parser.Took .primary
  | .trailing target => Completed .applied target .updated
  | .block => Parser.Took .block
  | .blockTail => TookStatements
  | .statement => Parser.Took .statement
  | .simpleStatement => Parser.Took .simple
  | .declaration _ => Parser.Took .simple
  | .assignment => Parser.Took .assignment
  | .leave => Parser.Took .statement
  | .condition => TookCondition
  | .loop => Parser.Took .statement
  | .counterLoop => Parser.Took .statement
  | .branch => Parser.Took .branch
  | .alternative => Parser.Took .alternative
  | .procedures defined => TookProcedures defined

/-- What a goal may count on. The first word of a declaration has been looked at. -/
def Ready : Goal → List Placed → Prop
  | .declaration mutability, tokens =>
    ∃ keyword, (keyword, mutability) ∈ declarators ∧ (front tokens).token = .keyword keyword
  | _, _ => True

/-- Whether a goal that comes to a tree has taken a token. -/
def fills : Goal → Bool
  | .joinedTail _ _ => false
  | .trailing _ => false
  | .procedures _ => false
  | _ => true

/-- How deep a goal stands below one that takes a token first. -/
def rank : Goal → Nat
  | .expression => 9
  | .joined level => 2 * level.depth + 10
  | .operand level => 2 * level.depth + 11
  | .unary => 22
  | .primary => 23
  | .block => 23
  | .statement => 6
  | .simpleStatement => 7
  | .declaration _ => 8
  | .assignment => 8
  | .leave => 7
  | .loop => 7
  | .counterLoop => 7
  | .branch => 7
  | .alternative => 6
  | _ => 0

/-- Twenty-four readers may be turned to in a row for one token, no more. -/
theorem rank_lt (goal : Goal) : goal.rank < 24 := by
  have shallow (level : Level) : level.depth ≤ 5 := by cases level <;> decide
  cases goal with
  | joined level =>
    have := shallow level
    simp only [rank]
    omega
  | operand level =>
    have := shallow level
    simp only [rank]
    omega
  | _ => simp [rank]

/-- What is refused by a goal behind what it has read: an update of an operand that is no variable,
and a loop header with an expression where an assignment or an update has to stand. -/
def Rejects : Goal → List Placed → ParseError → List Placed → Prop
  | .unary, tokens, error, rest =>
    ∃ symbol step yield position taken operand, (symbol, .update step yield) ∈ leadingOperators ∧
      tokens = mark symbol position :: (taken ++ rest) ∧ Derives false .unary taken operand ∧
      ¬ Variable operand ∧ error = ⟨.invalidUpdateTarget, position⟩
  | .counterLoop, tokens, error, rest =>
    ∃ start opened inside,
      tokens = word .forWord start :: mark .openParen opened :: (inside ++ rest) ∧
      Unfinished inside error
  | _, _, _, _ => False

/-- What a goal takes goes past no end mark and ends outside of loop headers. -/
theorem Took.passed {goal : Goal} {tokens rest : List Placed} {tree : goal.Tree}
    (took : goal.Took tokens tree rest) :
    ∃ taken, tokens = taken ++ rest ∧ Passed taken ∧ (goal.fills = true → taken ≠ []) := by
  have ofPhrase {phrase : Phrase} {tree : phrase.Tree}
      (took : Parser.Took phrase tokens tree rest) :
      ∃ taken, tokens = taken ++ rest ∧ Passed taken ∧ (goal.fills = true → taken ≠ []) := by
    obtain ⟨taken, start, derived⟩ := took
    exact ⟨taken, start, .derived derived, fun _ => derived.ne_nil⟩
  cases goal with
  | joinedTail level left =>
    obtain ⟨taken, start, passed, -⟩ := took
    exact ⟨taken, start, passed, nofun⟩
  | trailing target =>
    obtain ⟨taken, start, passed, -⟩ := took
    exact ⟨taken, start, passed, nofun⟩
  | blockTail =>
    obtain ⟨pieces, closed, -, each, start⟩ := took
    have inner : Passed (joinTokens pieces) := .of_enclosed
      (Endless.joinTokens fun piece member => (each piece member).endless)
      (Enclosed.joinTokens fun piece member => (each piece member).enclosed)
    refine ⟨joinTokens pieces ++ [mark .closeBrace closed], ?_, inner.append (Passed.nil.mark _ _),
      fun _ => List.append_ne_nil_of_right_ne_nil _ (List.cons_ne_nil _ _)⟩
    rw [start, List.append_assoc]
    rfl
  | condition =>
    obtain ⟨opened, inner, closed, start, derived⟩ := took
    refine ⟨mark .openParen opened :: inner ++ [mark .closeParen closed], ?_, .of_enclosed ?_ ?_,
      fun _ => List.cons_ne_nil _ _⟩
    · rw [start]
      simp
    · exact (derived.endless.mark _ _).append (Endless.nil.mark _ _)
    · exact Enclosed.parens opened closed derived.enclosed
  | procedures defined =>
    obtain ⟨pieces, -, start, each, -⟩ := took
    exact ⟨joinTokens pieces, start, .of_enclosed
      (Endless.joinTokens fun piece member => (each piece member).endless)
      (Enclosed.joinTokens fun piece member => (each piece member).enclosed), nofun⟩
  | _ => exact ofPhrase took

end Goal

/-- What is taken by a list that comes to its items. -/
def Listed.Took : (listed : Listed) → List Placed → listed.Items → List Placed → Prop
  | .parameters, tokens, names, rest => ∃ taken, tokens = taken ++ rest ∧ Parameters taken names
  | .arguments, tokens, items, rest =>
    ∃ pieces inner closed, items = trees pieces ∧
      (∀ piece ∈ pieces, Derives false .expression piece.tokens piece.tree) ∧
      Separated pieces inner ∧ tokens = inner ++ mark .closeParen closed :: rest

/-- Lists go past no end mark either, and take their closing parenthesis at least. -/
theorem Listed.Took.passed {listed : Listed} {tokens rest : List Placed} {items : listed.Items}
    (took : listed.Took tokens items rest) :
    ∃ taken, tokens = taken ++ rest ∧ Passed taken ∧ taken ≠ [] := by
  cases listed with
  | parameters =>
    obtain ⟨taken, start, derived⟩ := took
    refine ⟨taken, start,
      .of_enclosed (Endless.parameters derived) (Enclosed.parameters derived), ?_⟩
    cases derived
    exact List.cons_ne_nil _ _
  | arguments =>
    obtain ⟨pieces, inner, closed, -, each, separated, start⟩ := took
    refine ⟨inner ++ [mark .closeParen closed], ?_,
      (Passed.arguments separated each).append (Passed.nil.mark _ _),
      List.append_ne_nil_of_right_ne_nil _ (List.cons_ne_nil _ _)⟩
    rw [start, List.append_assoc]
    rfl

/-! ### Terms -/

/-- What is asked of a reader. -/
structure Terms (α : Type) where
  /-- As long as no token is taken, it turns to deeper goals than this only. -/
  rank : Nat
  rank_lt : rank < 24
  /-- What it yields, with the tokens that are left. -/
  yields : α → List Placed → Prop
  /-- What it refuses of what it has read. -/
  rejects : ParseError → List Placed → Prop
  /-- Whether it takes the first word of a loop header itself. -/
  opens : Prop

/-- What is asked of a reader that is no goal itself. It may turn to any goal, and takes no first
word of a loop header. -/
def Terms.between {α : Type} (yields : α → List Placed → Prop)
    (rejects : ParseError → List Placed → Prop) : Terms α where
  rank := 0
  rank_lt := by decide
  yields := yields
  rejects := rejects
  opens := False

/-- A fault is about a token: it is reported there, and it is that the end came too soon exactly if
the token is the end mark. -/
def Blames (found : Placed) (error : ParseError) : Prop :=
  found.position = error.position ∧
    ((∃ expected, error.fault = .unexpectedEnd expected) ↔ found.token = .endOfInput)

theorem Blames.of_ne_end {found : Placed} {fault : ParseFault} (inside : found.token ≠ .endOfInput)
    (other : ∀ expected, fault ≠ .unexpectedEnd expected) : Blames found ⟨fault, found.position⟩ :=
  ⟨rfl, fun ⟨expected, same⟩ => absurd same (other expected), fun ended => absurd ended inside⟩

/-- A recipe meets the terms on the tokens that are left, behind the token it has last looked at,
whatever the goals it names come to. The flag tells whether no token has been taken so far. -/
inductive Meets {α : Type} (terms : Terms α) : Bool → Placed → Recipe α → List Placed → Prop where
  | done {fresh : Bool} {last : Placed} {value : α} {tokens : List Placed} :
    terms.yields value tokens → Meets terms fresh last (.done value) tokens
  | fail {fresh : Bool} {last : Placed} {fault : ParseFault} {position : Position}
      {tokens : List Placed} :
    Blames last ⟨fault, position⟩ → Meets terms fresh last (.fail fault position) tokens
  | reject {fresh : Bool} {last : Placed} {fault : ParseFault} {position : Position}
      {tokens : List Placed} :
    terms.rejects ⟨fault, position⟩ tokens → Meets terms fresh last (.fail fault position) tokens
  | look {fresh : Bool} {last : Placed} {next : Placed → Recipe α} {tokens : List Placed} :
    Meets terms fresh (front tokens) (next (front tokens)) tokens →
    Meets terms fresh last (.look next) tokens
  | take {fresh : Bool} {last : Placed} {next : Recipe α} {tokens : List Placed} :
    (front tokens).token ≠ .endOfInput → (front tokens).token ≠ .keyword .forWord →
    Meets terms false last next tokens.tail → Meets terms fresh last (.take next) tokens
  | advance {fresh : Bool} {last : Placed} {expected : Expected} {next : Placed → Recipe α}
      {tokens : List Placed} :
    (terms.opens ∨ ∀ found, found.token = .keyword .forWord →
      ∃ fault position, next found = .fail fault position) →
    (∀ found rest, tokens = found :: rest → found.token ≠ .endOfInput →
      Meets terms false found (next found) rest) →
    Meets terms fresh last (.advance expected next) tokens
  | read {fresh : Bool} {last : Placed} {goal : Goal} {next : goal.Tree → Recipe α}
      {tokens : List Placed} :
    goal.Ready tokens → (fresh = true → terms.rank < goal.rank) →
    (∀ tree rest, goal.Took tokens tree rest →
      Meets terms (fresh && !goal.fills) (front rest) (next tree) rest) →
    Meets terms fresh last (.read goal next) tokens
  | list {last : Placed} {listed : Listed} {next : listed.Items → Recipe α}
      {tokens : List Placed} :
    (∀ items rest, listed.Took tokens items rest →
      Meets terms false (front rest) (next items) rest) →
    Meets terms false last (.list listed next) tokens

/-- What is asked of a goal that starts on these tokens. -/
def Goal.terms (goal : Goal) (tokens : List Placed) : Terms goal.Tree where
  rank := goal.rank
  rank_lt := goal.rank_lt
  yields := goal.Took tokens
  rejects := goal.Rejects tokens
  opens := goal = .counterLoop

namespace Meets

variable {α : Type} {terms : Terms α} {fresh : Bool} {last : Placed} {tokens : List Placed}

/-! ### Single tokens -/

/-- A token that is not looked for is refused where it stands. -/
theorem unexpected (found : Placed) (expected : Expected) :
    Meets terms fresh found (.unexpected found expected) tokens := by
  unfold Recipe.unexpected
  split
  · rename_i ended
    exact .fail ⟨rfl, fun _ => ended, fun _ => ⟨_, rfl⟩⟩
  · rename_i inside
    exact .fail (.of_ne_end inside fun _ same => by cases same)

/-- A token that has been looked at and is not the end mark is the first one left. -/
theorem takeToken {next : Recipe α} {token : Token} (kind : (front tokens).token = token)
    (inside : token ≠ .endOfInput) (other : token ≠ .keyword .forWord)
    (following : tokens = ⟨token, (front tokens).position⟩ :: tokens.tail →
      Meets terms false last next tokens.tail) :
    Meets terms fresh last (.take next) tokens :=
  .take (kind ▸ inside) (kind ▸ other) (following (eq_cons_of_front kind inside))

theorem takeSymbol {next : Recipe α} {symbol : Symbol}
    (kind : (front tokens).token = .symbol symbol)
    (following : tokens = mark symbol (front tokens).position :: tokens.tail →
      Meets terms false last next tokens.tail) :
    Meets terms fresh last (.take next) tokens :=
  takeToken kind (fun same => by cases same) (fun same => by cases same) following

theorem takeKeyword {next : Recipe α} {keyword : Keyword}
    (kind : (front tokens).token = .keyword keyword) (other : keyword ≠ .forWord)
    (following : tokens = word keyword (front tokens).position :: tokens.tail →
      Meets terms false last next tokens.tail) :
    Meets terms fresh last (.take next) tokens :=
  takeToken kind (fun same => by cases same) (fun same => other (Token.keyword.inj same)) following

/-- A token that must be there is taken, or refused where it stands. -/
theorem expect {token : Token} {expected : Expected} {next : Position → Recipe α}
    (other : terms.opens ∨ token ≠ .keyword .forWord)
    (following : ∀ position rest, tokens = ⟨token, position⟩ :: rest →
      Meets terms false ⟨token, position⟩ (next position) rest) :
    Meets terms fresh last (.expect token expected next) tokens := by
  refine .advance (other.imp_right fun other found isFor => ?_) fun found rest start inside => ?_
  · refine ⟨.unexpectedToken found.token expected, found.position, ?_⟩
    rw [if_neg fun same => other (same.symm.trans isFor), Recipe.unexpected, isFor]
  · split
    · rename_i same
      subst same
      exact following found.position rest start
    · exact unexpected found expected

theorem expectSymbol {symbol : Symbol} {next : Position → Recipe α}
    (following : ∀ position rest, tokens = mark symbol position :: rest →
      Meets terms false (mark symbol position) (next position) rest) :
    Meets terms fresh last (.expectSymbol symbol next) tokens :=
  expect (Or.inr fun same => by cases same) following

theorem expectKeyword {keyword : Keyword} {next : Position → Recipe α}
    (other : terms.opens ∨ keyword ≠ .forWord)
    (following : ∀ position rest, tokens = word keyword position :: rest →
      Meets terms false (word keyword position) (next position) rest) :
    Meets terms fresh last (.expectKeyword keyword next) tokens :=
  expect (other.imp_right fun other same => other (Token.keyword.inj same)) following

/-- A name is taken, or what stands in its place is refused there. -/
theorem identifier {next : PlacedName → Recipe α}
    (following : ∀ name rest, tokens = named name.name name.position :: rest →
      Meets terms false (named name.name name.position) (next name) rest) :
    Meets terms fresh last (.identifier next) tokens := by
  refine .advance (Or.inr fun found isFor => ?_) fun found rest start inside => ?_
  · exact ⟨_, found.position, by simp only [isFor]; rfl⟩
  · split
    · rename_i name same
      have isName : found = named name found.position := by rw [named, ← same]
      rw [isName] at start ⊢
      exact following ⟨name, found.position⟩ rest start
    · split
      · exact .fail (.of_ne_end inside fun _ same => by cases same)
      · exact unexpected found .identifier

/-! ### Goals -/

/-- A goal that is read last. -/
theorem readLast {goal : Goal} {finish : goal.Tree → α} (ready : goal.Ready tokens)
    (deeper : fresh = true → terms.rank < goal.rank)
    (yields : ∀ tree rest, goal.Took tokens tree rest → terms.yields (finish tree) rest) :
    Meets terms fresh last (.read goal fun tree => .done (finish tree)) tokens :=
  .read ready deeper fun tree rest took => .done (yields tree rest took)

end Meets

/-! ### Prices -/

/-- What a bound has to pay for so many tokens. Each is paid for twenty-four times over, less what
the callers have spent; once a token is taken, the next one need not be paid out of its price. -/
def Terms.Paid {α : Type} (terms : Terms α) (bound : Nat) (fresh : Bool) (count : Nat) : Prop :=
  24 * count + (if fresh then 0 else 24) ≤ bound + 1 + terms.rank

namespace Terms.Paid

variable {α : Type} {terms : Terms α} {bound count less : Nat} {fresh : Bool} {goal : Goal}

theorem of_goal {tokens : List Placed} (pays : 24 * count ≤ bound + 1 + goal.rank) :
    (goal.terms tokens).Paid bound true count :=
  pays

/-- A bound that pays for the tokens pays for a goal that may be turned to. -/
theorem for_goal (paid : terms.Paid bound fresh count)
    (deeper : fresh = true → terms.rank < goal.rank) : 24 * count ≤ bound + goal.rank := by
  have small := terms.rank_lt
  unfold Paid at paid
  cases fresh with
  | true =>
    have below := deeper rfl
    simp only [if_true] at paid
    omega
  | false =>
    simp only [Bool.false_eq_true, if_false] at paid
    omega

/-- Behind a token the bound pays for lists, too. -/
theorem for_list (paid : terms.Paid bound false count) : 24 * count ≤ bound := by
  have small := terms.rank_lt
  unfold Paid at paid
  simp only [Bool.false_eq_true, if_false] at paid
  omega

/-- Behind a token, the bound pays for what is left. -/
theorem shorter (paid : terms.Paid bound fresh count) (shorter : less < count) :
    terms.Paid bound false less := by
  unfold Paid at paid ⊢
  simp only [Bool.false_eq_true, if_false]
  omega

/-- What is left behind a goal is paid for. -/
theorem behind {taken : List Placed} (paid : terms.Paid bound fresh count)
    (le : taken.length + less ≤ count) (filled : goal.fills = true → taken ≠ []) :
    terms.Paid bound (fresh && !goal.fills) less := by
  cases fills : goal.fills with
  | true =>
    have some := List.length_pos_iff.mpr (filled fills)
    rw [Bool.not_true, Bool.and_false]
    exact paid.shorter (by omega)
  | false =>
    rw [Bool.not_false, Bool.and_true]
    unfold Paid at paid ⊢
    omega

end Terms.Paid

end Scriptlet.Parser
