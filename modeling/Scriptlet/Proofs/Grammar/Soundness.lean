/-
This file proves that what a reader takes off the front of a token list is a phrase of
the grammar with the tree that the reader yields. The recipe of each goal meets what is
asked of the goal, where the goals it turns to do what is asked of them; so every goal does,
whatever the bound is.

The two loops are read from the left. What follows an operand is stated for any tokens
in front of it that make up what has been read so far, and the loop turns it into a
longer phrase.
-/

import Scriptlet.Proofs.Grammar.Terms

namespace Scriptlet.Parser

open Grammar

/-- The recipe of a goal meets what is asked of the goal. -/
def Goal.MeetsTerms (goal : Goal) : Prop :=
  ∀ tokens, goal.Ready tokens → Meets (goal.terms tokens) true (front tokens) goal.recipe tokens

namespace Goal

/-! ### Expressions -/

theorem expression_meets : MeetsTerms .expression := by
  intro tokens _
  exact .readLast trivial (fun _ => Nat.le_of_ble_eq_true rfl) fun tree rest took => took

theorem joined_meets (level : Level) : MeetsTerms (.joined level) := by
  intro tokens _
  refine .read trivial (fun _ => Nat.lt_succ_self _) fun left middle first => ?_
  obtain ⟨front, start, derived⟩ := first
  refine .readLast trivial nofun fun tree rest second => ?_
  obtain ⟨back, following, -, completes⟩ := second
  refine ⟨front ++ back, ?_, completes front (.single derived)⟩
  rw [start, following, List.append_assoc]

theorem joinedTail_meets (level : Level) (left : Expr) : MeetsTerms (.joinedTail level left) := by
  intro tokens _
  refine .look ?_
  split
  · refine .done ⟨[], rfl, .nil, fun front derived => ?_⟩
    rw [List.append_nil]
    exact derived
  · rename_i connective found
    obtain ⟨symbol, kind, member⟩ := (connectiveAt?_eq_some_iff _ _ _).mp found
    refine .takeSymbol kind fun start => ?_
    refine .read trivial nofun fun right middle second => ?_
    refine .readLast trivial nofun fun tree rest third => ?_
    obtain ⟨back, following, derivedRight⟩ := second
    obtain ⟨more, last, passed, completes⟩ := third
    refine ⟨mark symbol (front tokens).position :: back ++ more, ?_,
      ((Passed.derived derivedRight).mark _ _).append passed, fun front derived => ?_⟩
    · rw [start, following, last, List.append_assoc]
      rfl
    · have joined := completes _ (.join (Parser.front tokens).position derived member derivedRight)
      rw [List.append_assoc] at joined
      exact joined

theorem operand_meets (level : Level) : MeetsTerms (.operand level) := by
  intro tokens _
  rw [recipe]
  split
  · rename_i tighter next
    have member := (tighter?_eq_some_iff level tighter).mp next
    refine .readLast trivial (fun _ => ?_) fun tree rest took => ?_
    · have deeper := tighter_depth member
      show 2 * level.depth + 11 < 2 * tighter.depth + 10
      omega
    · obtain ⟨front, start, derived⟩ := took
      exact ⟨front, start, .tighter member derived⟩
  · rename_i next
    obtain rfl := (tighter?_eq_none_iff level).mp next
    refine .readLast trivial (fun _ => Nat.le_of_ble_eq_true rfl) fun tree rest took => ?_
    obtain ⟨front, start, derived⟩ := took
    exact ⟨front, start, .tightest derived⟩

/-- Only a variable is updated by an operator in front of it. What is no variable is refused. -/
theorem applyLeading_meets {symbol : Symbol} {op : UnaryOp} {operand : Expr} {position : Position}
    {tokens taken rest : List Placed} {last : Placed} (member : (symbol, op) ∈ leadingOperators)
    (start : tokens = mark symbol position :: (taken ++ rest))
    (derived : Derives false .unary taken operand) :
    Meets (terms .unary tokens) false last (.applyLeading op operand position) rest := by
  have yields (updatable : ∀ step yield, op = .update step yield → Variable operand) :
      Took .unary tokens (.unary op operand position) rest :=
    ⟨mark symbol position :: taken, start, .leading position member derived updatable⟩
  unfold Recipe.applyLeading
  split
  · rename_i step yield
    split
    · rename_i updatable
      exact .done (yields fun _ _ _ => (isVariable_iff operand).mp updatable)
    · rename_i fixed
      exact .reject ⟨symbol, step, yield, position, taken, operand, member, start, derived,
        fun isName => fixed ((isVariable_iff operand).mpr isName), rfl⟩
  · rename_i other
    exact .done (yields fun step yield same => absurd same (other step yield))

theorem unary_meets : MeetsTerms .unary := by
  intro tokens _
  refine .look ?_
  split
  · rename_i op found
    obtain ⟨symbol, kind, member⟩ := (leadingOp?_eq_some_iff _ _).mp found
    refine .takeSymbol kind fun start => ?_
    refine .read trivial nofun fun operand rest second => ?_
    obtain ⟨back, following, derived⟩ := second
    rw [following] at start
    exact applyLeading_meets member start derived
  · refine .read trivial (fun _ => Nat.le_of_ble_eq_true rfl) fun first middle second => ?_
    refine .readLast trivial nofun fun tree rest third => ?_
    obtain ⟨front, start, derived⟩ := second
    obtain ⟨back, following, -, completes⟩ := third
    refine ⟨front ++ back, ?_, .unled (completes front (.notApplied derived))⟩
    rw [start, following, List.append_assoc]

theorem primary_meets : MeetsTerms .primary := by
  intro tokens _
  refine .look ?_
  split
  · rename_i name kind
    refine .takeToken kind (fun same => by cases same) (fun same => by cases same) fun start => ?_
    exact .done ⟨[named name (front tokens).position], start, .name name _⟩
  · rename_i kind
    refine .takeSymbol kind fun start => ?_
    refine .read trivial nofun fun inner middle second => ?_
    refine .expectSymbol fun closed rest closing => .done ?_
    obtain ⟨between, following, derived⟩ := second
    refine ⟨mark .openParen (front tokens).position :: between ++ [mark .closeParen closed], ?_,
      .parenthesized _ closed derived⟩
    rw [start, following, closing]
    simp [mark]
  · rename_i kind
    refine .takeKeyword kind (by decide) fun start => ?_
    refine .list fun names middle listed => ?_
    refine .expectSymbol fun arrow later pointing => ?_
    refine .readLast trivial nofun fun body rest last => ?_
    obtain ⟨parameters, second, derivedNames⟩ := listed
    obtain ⟨back, following, derived⟩ := last
    refine ⟨word .lamWord (front tokens).position :: parameters ++ mark .arrow arrow :: back, ?_,
      .lambda _ arrow derivedNames derived⟩
    rw [start, second, pointing, following]
    simp [word]
  · split
    · rename_i literal found
      have kind := (literal?_eq_some_iff _ _).mp found
      refine .takeToken kind (fun same => by cases literal <;> cases same)
        (fun same => by cases literal <;> cases same) fun start => ?_
      exact .done ⟨[⟨literalToken literal, (front tokens).position⟩], start, .literal literal _⟩
    · exact .unexpected _ _

/-- Only a variable is updated by an operator behind it. -/
theorem trailingUpdate_meets {symbol : Symbol} {step : Step} {target : Expr}
    {tokens : List Placed} (kind : (front tokens).token = .symbol symbol)
    (member : (symbol, step) ∈ updates) :
    Meets (terms (.trailing target) tokens) true (front tokens)
      (.trailingUpdate step target (front tokens).position) tokens := by
  unfold Recipe.trailingUpdate
  split
  · rename_i updatable
    refine .takeSymbol kind fun start => .done ?_
    refine ⟨[mark symbol (front tokens).position], start, Passed.nil.mark _ _,
      fun front derived => ?_⟩
    exact .update _ derived member ((isVariable_iff target).mp updatable)
  · refine .fail (.of_ne_end (fun ended => ?_) fun _ same => by cases same)
    cases kind.symm.trans ended

theorem trailing_meets (target : Expr) : MeetsTerms (.trailing target) := by
  intro tokens _
  refine .look ?_
  split
  · rename_i kind
    refine .takeSymbol kind fun start => ?_
    refine .list fun arguments middle listed => ?_
    refine .readLast trivial nofun fun tree rest third => ?_
    obtain ⟨pieces, inner, closed, items, derivedPieces, separated, second⟩ := listed
    obtain ⟨more, last, passedMore, completes⟩ := third
    subst items
    have passed :=
      (Passed.arguments separated derivedPieces).mark .openParen (front tokens).position
    refine ⟨mark .openParen (front tokens).position :: inner ++ mark .closeParen closed :: more, ?_,
      passed.append (passedMore.mark _ _), fun front derived => ?_⟩
    · rw [start, second, last]
      simp [mark]
    · have called := completes _ (.call pieces (Parser.front tokens).position closed derived
        derivedPieces separated)
      simpa using called
  · rename_i kind
    refine .takeSymbol kind fun start => ?_
    refine .read trivial nofun fun index middle second => ?_
    refine .expectSymbol fun closed later closing => ?_
    refine .readLast trivial nofun fun tree rest third => ?_
    obtain ⟨inner, following, derivedIndex⟩ := second
    obtain ⟨more, last, passed, completes⟩ := third
    refine ⟨mark .openBracket (front tokens).position :: inner ++ mark .closeBracket closed :: more,
      ?_, ((Passed.derived derivedIndex).mark _ _).append (passed.mark _ _),
      fun front derived => ?_⟩
    · rw [start, following, closing, last]
      simp [mark]
    · have indexed :=
        completes _ (.index (Parser.front tokens).position closed derived derivedIndex)
      simpa using indexed
  · rename_i kind
    exact trailingUpdate_meets kind (by decide)
  · rename_i kind
    exact trailingUpdate_meets kind (by decide)
  · refine .done ⟨[], rfl, .nil, fun front derived => ?_⟩
    rw [List.append_nil]
    exact .notUpdated derived

/-! ### Statements -/

theorem block_meets : MeetsTerms .block := by
  intro tokens _
  refine .advance (Or.inr fun found isFor => ?_) fun found middle start inside => ?_
  · exact ⟨_, found.position, by simp only [isFor]; rfl⟩
  · split
    · rename_i opening
      refine .readLast trivial nofun fun statements rest second => ?_
      obtain ⟨pieces, closed, items, derived, following⟩ := second
      subst items
      refine ⟨mark .openBrace found.position :: joinTokens pieces ++ [mark .closeBrace closed], ?_,
        .block pieces found.position closed derived⟩
      rw [start, following, eq_mark opening]
      simp [mark]
    · exact .fail (.of_ne_end inside fun _ same => by cases same)

theorem blockTail_meets : MeetsTerms .blockTail := by
  intro tokens _
  refine .look ?_
  split
  · rename_i closing
    refine .takeSymbol closing fun start => ?_
    exact .done ⟨[], (front tokens).position, rfl, (fun _ member => by cases member), start⟩
  · rename_i ended
    exact .fail ⟨rfl, fun _ => ended, fun _ => ⟨_, rfl⟩⟩
  · refine .read trivial (fun _ => Nat.le_of_ble_eq_true rfl) fun first middle second => ?_
    refine .readLast trivial (fun fresh => by cases fresh) fun others rest third => ?_
    obtain ⟨front, start, derived⟩ := second
    obtain ⟨pieces, closed, items, derivedOthers, following⟩ := third
    subst items
    refine ⟨⟨front, first⟩ :: pieces, closed, rfl,
      List.forall_mem_cons.mpr ⟨derived, derivedOthers⟩, ?_⟩
    rw [start, following, joinTokens, joinTokens, List.flatMap_cons, List.append_assoc]

/-- A word and the semicolon behind it are a statement, if the grammar has it. -/
theorem closedWord_meets {keyword : Keyword} {tokens : List Placed} (other : keyword ≠ .forWord)
    (tree : Position → Statement) (derives : ∀ position semicolon,
      Derives false .statement [word keyword position, mark .semicolon semicolon] (tree position))
    (kind : (front tokens).token = .keyword keyword) :
    Meets (terms .statement tokens) true (front tokens)
      (.take <| .expectSymbol .semicolon fun _ => .done (tree (front tokens).position)) tokens := by
  refine .takeKeyword kind other fun start => ?_
  refine .expectSymbol fun semicolon rest closing => .done ?_
  refine ⟨[word keyword (front tokens).position, mark .semicolon semicolon], ?_, derives _ _⟩
  rw [start, closing]
  simp [word]

theorem statement_meets : MeetsTerms .statement := by
  intro tokens _
  have deeper (goal : Goal) (deep : 6 < goal.rank) (_ : true = true) :
      (terms .statement tokens).rank < goal.rank := deep
  refine .look ?_
  split
  · refine .readLast trivial (deeper _ (by decide)) fun tree rest took => ?_
    obtain ⟨front, start, derived⟩ := took
    exact ⟨front, start, .branch derived⟩
  · exact .readLast trivial (deeper _ (by decide)) fun tree rest took => took
  · exact .readLast trivial (deeper _ (by decide)) fun tree rest took => took
  · refine .readLast trivial (deeper _ (by decide)) fun body rest took => ?_
    obtain ⟨front, start, derived⟩ := took
    exact ⟨front, start, .nested derived⟩
  · exact .readLast trivial (deeper _ (by decide)) fun tree rest took => took
  · rename_i kind
    exact closedWord_meets (by decide) .breakLoop .breakLoop kind
  · rename_i kind
    exact closedWord_meets (by decide) .continueLoop .continueLoop kind
  · refine .read trivial (deeper _ (by decide)) fun simple middle second => ?_
    refine .expectSymbol fun semicolon rest closing => .done ?_
    obtain ⟨front, start, derived⟩ := second
    refine ⟨front ++ [mark .semicolon semicolon], ?_, .simple semicolon derived⟩
    rw [start, closing, List.append_assoc]
    rfl

theorem simpleStatement_meets : MeetsTerms .simpleStatement := by
  intro tokens _
  refine .look ?_
  split
  · rename_i kind
    exact .readLast ⟨_, by decide, kind⟩ (fun _ => Nat.lt_succ_self _) fun tree rest took => took
  · rename_i kind
    exact .readLast ⟨_, by decide, kind⟩ (fun _ => Nat.lt_succ_self _) fun tree rest took => took
  · refine .readLast trivial (fun _ => Nat.lt_succ_self _) fun tree rest took => ?_
    obtain ⟨front, start, derived⟩ := took
    exact ⟨front, start, .undeclared derived⟩

theorem declaration_meets (mutability : Mutability) : MeetsTerms (.declaration mutability) := by
  intro tokens ready
  obtain ⟨keyword, member, kind⟩ := ready
  refine .takeKeyword kind (declarator_ne_forWord member) fun start => ?_
  refine .identifier fun name middle second => ?_
  refine .expectSymbol fun sign later assigning => ?_
  refine .readLast trivial nofun fun value rest took => ?_
  obtain ⟨back, following, derived⟩ := took
  refine ⟨word keyword (front tokens).position :: named name.name name.position ::
    mark .assign sign :: back, ?_, .declare _ name.position sign member derived⟩
  rw [start, second, assigning, following]
  rfl

/-- What is assigned to is a name. -/
theorem assigned_meets {symbol : Symbol} {target : Expr} {front rest : List Placed}
    {tokens : List Placed} (assigning : String → Position → Expr → Statement)
    (start : tokens = front ++ rest) (derived : Derives false .expression front target)
    (kind : (Parser.front rest).token = .symbol symbol)
    (derives : ∀ {name position back value}, target = .identifier name position →
      Derives false .expression back value →
      Derives false .assignment (front ++ mark symbol (Parser.front rest).position :: back)
        (assigning name position value)) :
    Meets (terms .assignment tokens) false (Parser.front rest)
      (.assigned assigning target (Parser.front rest).position) rest := by
  refine .takeSymbol kind fun second => ?_
  split
  · refine .readLast trivial nofun fun value last took => ?_
    obtain ⟨back, following, derivedValue⟩ := took
    refine ⟨front ++ mark symbol (Parser.front rest).position :: back, ?_, derives rfl derivedValue⟩
    rw [start, second, following]
    simp [mark]
  · refine .fail (.of_ne_end (fun ended => ?_) fun _ same => by cases same)
    cases kind.symm.trans ended

theorem assignment_meets : MeetsTerms .assignment := by
  intro tokens _
  refine .look <| .read trivial (fun _ => Nat.lt_succ_self _) fun target middle first => .look ?_
  obtain ⟨front, start, derived⟩ := first
  split
  · rename_i kind
    exact assigned_meets _ start derived kind fun isName value => by
      subst isName
      exact .assign _ _ derived value
  · split
    · rename_i operation found
      obtain ⟨symbol, kind, member⟩ := (compound?_eq_some_iff _ _).mp found
      exact assigned_meets _ start derived kind fun isName value => by
        subst isName
        exact .compoundAssign _ _ member derived value
    · refine .done ⟨front, start, ?_⟩
      obtain ⟨first, others, filled⟩ := List.exists_cons_of_ne_nil derived.ne_nil
      subst filled
      rw [start]
      exact .evaluate derived

theorem leave_meets : MeetsTerms .leave := by
  intro tokens _
  refine .expectKeyword (Or.inr (by decide)) fun position middle start => .look ?_
  split
  · rename_i kind
    refine .takeSymbol kind fun second => .done ?_
    refine ⟨[word .returnWord position, mark .semicolon (front middle).position], ?_, .leave _ _⟩
    rw [start, second]
    rfl
  · refine .read trivial nofun fun value later took => ?_
    refine .expectSymbol fun semicolon rest closing => .done ?_
    obtain ⟨inner, second, derived⟩ := took
    refine ⟨word .returnWord position :: inner ++ [mark .semicolon semicolon], ?_,
      .leaveWith _ _ derived⟩
    rw [start, second, closing]
    simp

theorem condition_meets : MeetsTerms .condition := by
  intro tokens _
  refine .expectSymbol fun opened middle opening => ?_
  refine .read trivial nofun fun test later took => ?_
  refine .expectSymbol fun closed rest closing => .done ?_
  obtain ⟨inner, following, derived⟩ := took
  refine ⟨opened, inner, closed, ?_, derived⟩
  rw [opening, following, closing]
  rfl

theorem loop_meets : MeetsTerms .loop := by
  intro tokens _
  refine .expectKeyword (Or.inr (by decide)) fun position middle opening => ?_
  refine .read trivial nofun fun test later first => ?_
  refine .readLast trivial nofun fun body rest last => ?_
  obtain ⟨opened, inner, closed, second, derivedTest⟩ := first
  obtain ⟨back, following, derivedBody⟩ := last
  refine ⟨_, ?_, .loop position opened closed derivedTest derivedBody⟩
  rw [opening, second, following]
  simp

theorem branch_meets : MeetsTerms .branch := by
  intro tokens _
  refine .expectKeyword (Or.inr (by decide)) fun position middle opening => ?_
  refine .read trivial nofun fun test later first => ?_
  refine .read trivial nofun fun body last second => .look ?_
  obtain ⟨opened, inner, closed, behind, derivedTest⟩ := first
  obtain ⟨back, following, derivedBody⟩ := second
  split
  · rename_i kind
    refine .takeKeyword kind (by decide) fun otherwise => ?_
    refine .readLast trivial nofun fun other rest third => ?_
    obtain ⟨more, final, derivedOther⟩ := third
    refine ⟨_, ?_, .branchElse position opened closed (front last).position derivedTest derivedBody
      derivedOther⟩
    rw [opening, behind, following, otherwise, final]
    simp [word]
  · refine .done ⟨_, ?_, .branchAlone position opened closed derivedTest derivedBody⟩
    rw [opening, behind, following]
    simp

theorem alternative_meets : MeetsTerms .alternative := by
  intro tokens _
  refine .look ?_
  split
  · refine .readLast trivial (fun _ => Nat.lt_succ_self _) fun branch rest took => ?_
    obtain ⟨front, start, derived⟩ := took
    exact ⟨front, start, .chained derived⟩
  · refine .readLast trivial (fun _ => Nat.le_of_ble_eq_true rfl) fun body rest took => ?_
    obtain ⟨front, start, derived⟩ := took
    exact ⟨front, start, .unchained derived⟩

/-! ### Loop headers -/

/-- A statement in front of the end of a header that cannot open a loop is an expression. -/
theorem unfinished_initializer {tokens : List Placed} {initializer : Statement}
    (derived : Derives false .simple tokens initializer) (refused : ¬ Initializes initializer) :
    Unfinished tokens ⟨.invalidForInitializer, initializer.position⟩ := by
  cases derived with
  | declare _ _ _ _ _ => exact absurd (.declare _ _ _ _) refused
  | undeclared assignment =>
    cases assignment with
    | evaluate expression => exact .initializer expression refused
    | assign _ _ _ _ => exact absurd (.advances (.assign _ _ _)) refused
    | compoundAssign _ _ _ _ _ => exact absurd (.advances (.assign _ _ _)) refused

/-- A statement in front of the end of a header that cannot close a round is an expression. -/
theorem unfinished_update {start condition step : List Placed} {initializer update : Statement}
    {test : Expr} (afterStart afterTest : Position)
    (derivedStart : Derives false .simple start initializer) (initializes : Initializes initializer)
    (derivedTest : Derives false .expression condition test)
    (derived : Derives false .assignment step update) (refused : ¬ Advances update) :
    Unfinished (start ++ mark .semicolon afterStart ::
      (condition ++ mark .semicolon afterTest :: step))
      ⟨.invalidForUpdate, update.position⟩ := by
  cases derived with
  | evaluate expression =>
    exact .update afterStart afterTest derivedStart initializes derivedTest expression refused
  | assign _ _ _ _ => exact absurd (.assign _ _ _) refused
  | compoundAssign _ _ _ _ _ => exact absurd (.assign _ _ _) refused

/-- A loop over a counter, behind the parenthesis that opens its header. -/
theorem header_meets {terms : Terms Statement} {last : Placed} {tokens : List Placed}
    (position : Position)
    (yields : ∀ inside tree rest, tokens = inside ++ rest →
      (∀ opened, Derives false .statement
        (word .forWord position :: mark .openParen opened :: inside) tree) →
      terms.yields tree rest)
    (rejects : ∀ inside error rest, tokens = inside ++ rest → Unfinished inside error →
      terms.rejects error rest) :
    Meets terms false last (.header position) tokens := by
  refine .read trivial nofun fun initializer second took => ?_
  obtain ⟨header, afterStart, derivedStart⟩ := took
  split
  · rename_i refused
    refine .reject (rejects header _ second afterStart (unfinished_initializer derivedStart ?_))
    intro initializes
    rw [(canInitialize_iff _).mpr initializes] at refused
    cases refused
  rename_i passed
  have initializes := (canInitialize_iff initializer).mp (by simpa using passed)
  refine .expectSymbol fun first third semicolon => ?_
  refine .read trivial nofun fun test fourth took => ?_
  obtain ⟨condition, afterTest, derivedTest⟩ := took
  refine .expectSymbol fun next fifth nextSemicolon => ?_
  refine .read trivial nofun fun update sixth took => ?_
  obtain ⟨step, afterStep, derivedStep⟩ := took
  split
  · rename_i refused
    refine .reject (rejects (header ++ mark .semicolon first ::
      (condition ++ mark .semicolon next :: step)) _ sixth ?_
      (unfinished_update first next derivedStart initializes derivedTest derivedStep ?_))
    · rw [afterStart, semicolon, afterTest, nextSemicolon, afterStep]
      simp
    · intro advances
      rw [(canAdvance_iff _).mpr advances] at refused
      cases refused
  rename_i passed
  have advances := (canAdvance_iff update).mp (by simpa using passed)
  refine .expectSymbol fun closed seventh closing => ?_
  refine .readLast trivial nofun fun body rest took => ?_
  obtain ⟨back, afterBody, derivedBody⟩ := took
  refine yields _ _ rest ?_ fun opened => .counterLoop position opened first next closed
    derivedStart initializes derivedTest derivedStep advances derivedBody
  rw [afterStart, semicolon, afterTest, nextSemicolon, afterStep, closing, afterBody]
  simp

theorem counterLoop_meets : MeetsTerms .counterLoop := by
  intro tokens _
  refine .expectKeyword (Or.inl rfl) fun position middle start => ?_
  refine .expectSymbol fun opened inner opening => ?_
  subst opening start
  refine header_meets position (fun inside tree rest same derives => ?_)
    fun inside error rest same unfinished => ?_
  · exact ⟨word .forWord position :: mark .openParen opened :: inside, by rw [same]; rfl,
      derives opened⟩
  · exact ⟨position, opened, inside, by rw [same], unfinished⟩

end Goal

/-! ### Procedures -/

theorem Meets.procedure {α : Type} {terms : Terms α} {fresh : Bool} {last : Placed}
    {tokens : List Placed} {defined : List String} {next : Procedure → Recipe α}
    (following : ∀ tree rest, TookProcedure defined tokens tree rest →
      Meets terms false (front rest) (next tree) rest) :
    Meets terms fresh last (.procedure defined next) tokens := by
  refine .expectKeyword (Or.inr (by decide)) fun position middle opening => ?_
  refine .identifier fun name later second => ?_
  split
  · exact .fail (.of_ne_end (fun same => by cases same) fun _ same => by cases same)
  rename_i fresh
  refine .list fun names third listed => ?_
  refine .read trivial nofun fun body rest took => following _ rest ?_
  obtain ⟨parameters, start, derivedNames⟩ := listed
  obtain ⟨back, afterBody, derivedBody⟩ := took
  refine ⟨_, ?_, .intro position name.position derivedNames derivedBody, fresh⟩
  rw [opening, second, start, afterBody]
  simp

theorem Goal.procedures_meets (defined : List String) : MeetsTerms (.procedures defined) := by
  intro tokens _
  refine .look ?_
  split
  · rename_i ended
    exact .done ⟨[], rfl, rfl, (fun _ member => by cases member), List.nodup_nil,
      (fun _ member => by cases member), ended⟩
  · refine .procedure fun first middle took => ?_
    refine .readLast trivial nofun fun others rest last => ?_
    obtain ⟨front, start, derived, fresh⟩ := took
    obtain ⟨pieces, items, following, derivedOthers, distinct, apart, ended⟩ := last
    refine ⟨⟨front, first⟩ :: pieces, by rw [items]; rfl, ?_,
      List.forall_mem_cons.mpr ⟨derived, derivedOthers⟩, ?_, List.forall_mem_cons.mpr ⟨fresh, ?_⟩,
      ended⟩
    · rw [start, following, joinTokens, joinTokens, List.flatMap_cons, List.append_assoc]
    · rw [List.map_cons, List.nodup_cons]
      refine ⟨fun repeated => ?_, distinct⟩
      obtain ⟨other, member, sameName⟩ := List.mem_map.mp repeated
      exact apart other member (sameName ▸ List.mem_cons_self)
    · exact fun procedure member known => apart procedure member (List.mem_cons_of_mem _ known)
  · exact .unexpected _ _

/-! ### Every goal -/

/-- What readers do, up to the goals they turn to, is what is asked of them. -/
theorem Goal.meets (goal : Goal) : goal.MeetsTerms := by
  cases goal with
  | expression => exact expression_meets
  | joined level => exact joined_meets level
  | joinedTail level left => exact joinedTail_meets level left
  | operand level => exact operand_meets level
  | unary => exact unary_meets
  | primary => exact primary_meets
  | trailing target => exact trailing_meets target
  | block => exact block_meets
  | blockTail => exact blockTail_meets
  | statement => exact statement_meets
  | simpleStatement => exact simpleStatement_meets
  | declaration mutability => exact declaration_meets mutability
  | assignment => exact assignment_meets
  | leave => exact leave_meets
  | condition => exact condition_meets
  | loop => exact loop_meets
  | counterLoop => exact counterLoop_meets
  | branch => exact branch_meets
  | alternative => exact alternative_meets
  | procedures defined => exact procedures_meets defined

/-- The goals with a bound come to trees only that stand for what they have taken. -/
def Sound (bound : Nat) : Prop :=
  ∀ (goal : Goal) {tokens rest : List Placed} {tree : goal.Tree}, goal.Ready tokens →
    goal.reader bound tokens = .ok tree rest → goal.Took tokens tree rest

namespace Sound

variable {bound : Nat} {tokens rest : List Placed}

theorem listed (sound : Sound bound) {listed : Listed} {items : listed.Items}
    (came : listed.reader bound tokens = .ok items rest) : listed.Took tokens items rest := by
  cases listed with
  | parameters => exact parameters_ok came
  | arguments =>
    exact commaSeparated_ok (Derives false .expression) (sound .expression trivial) came

/-- Following a recipe that meets its terms yields what they ask for. -/
theorem of_meets (sound : Sound bound) {α : Type} {terms : Terms α} {fresh : Bool} {last : Placed}
    {recipe : Recipe α} (meets : Meets terms fresh last recipe tokens) {value : α}
    (came : recipe.run bound tokens = .ok value rest) : terms.yields value rest := by
  induction meets with
  | done yields =>
    obtain ⟨same, unread⟩ := EStateM.of_pure_ok came
    subst same unread
    exact yields
  | fail blames => cases came
  | reject rejects => cases came
  | look _ inductionHypothesis => exact inductionHypothesis (of_peek_ok came)
  | take _ _ _ inductionHypothesis => exact inductionHypothesis (of_skip_ok came)
  | advance _ _ inductionHypothesis =>
    obtain ⟨found, middle, advanced, came⟩ := EStateM.of_bind_ok came
    obtain ⟨start, inside⟩ := advance_ok advanced
    exact inductionHypothesis found middle start inside came
  | read ready _ _ inductionHypothesis =>
    obtain ⟨tree, middle, read, came⟩ := EStateM.of_bind_ok came
    exact inductionHypothesis tree middle (sound _ ready read) came
  | list _ inductionHypothesis =>
    obtain ⟨items, middle, read, came⟩ := EStateM.of_bind_ok came
    exact inductionHypothesis items middle (sound.listed read) came

end Sound

/-- Readers take phrases only, whatever their bound is. -/
theorem sound (bound : Nat) : Sound bound := by
  induction bound with
  | zero =>
    intro goal tokens rest tree _ came
    rw [goal.reader_zero] at came
    cases came
  | succ bound inductionHypothesis =>
    intro goal tokens rest tree ready came
    rw [goal.reader_succ] at came
    exact inductionHypothesis.of_meets (goal.meets tokens ready) came

end Scriptlet.Parser
