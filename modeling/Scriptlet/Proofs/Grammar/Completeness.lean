/-
This file proves that readers take every phrase of the grammar in which no update is
followed by a call or an index. What stands behind a phrase matters: an operand is
taken to its end only if the next token cannot go on with it, and a branch only if no
alternative follows. A loop over operators is left where it stands when the tokens of
the phrase are used up, so that a longer phrase can go on from there.

The bound on nesting pays for each token twenty-four times over. What a reader hands
down before it takes a token is paid out of the first token, so each kind of phrase
may start with a bound that is short of the full price by as much as its callers have
spent.
-/

import Scriptlet.Proofs.Grammar.Opening
import Scriptlet.Proofs.Grammar.Readers

namespace Scriptlet

/-! ### What may follow -/

/-- The number of levels that bind looser. -/
def Level.depth : Level → Nat
  | .either => 0
  | .both => 1
  | .equality => 2
  | .relation => 3
  | .sum => 4
  | .product => 5

namespace Parser

open Grammar

/-- Whether a symbol goes on with an operand that stands in front of it, as part of one whose
operators are at a depth or below. -/
def goesOn (depth : Nat) : Token → Bool
  | .symbol .openParen => true
  | .symbol .openBracket => true
  | .symbol .increment => true
  | .symbol .decrement => true
  | .symbol symbol =>
    match symbol.connective? with
    | some connective => depth ≤ connective.level.depth
    | none => false
  | _ => false

/-- What follows does not go on with an operand. -/
def Stops (depth : Nat) (rest : List Placed) : Prop :=
  goesOn depth (front rest).token = false

/-- What follows ends a statement inside its brackets. -/
def Ends (rest : List Placed) : Prop :=
  (front rest).token = .symbol .semicolon ∨ (front rest).token = .symbol .closeParen

/-- What follows is not an alternative. -/
def NoElse (rest : List Placed) : Prop :=
  (front rest).token ≠ .keyword .elseWord

variable {tokens rest : List Placed} {bound : Nat}

theorem Stops.deeper {depth deeper : Nat} (stops : Stops depth rest) (le : depth ≤ deeper) :
    Stops deeper rest := by
  unfold Stops goesOn at *
  split at stops
  all_goals try exact stops
  rename_i symbol _ _ _ _ _
  cases found : symbol.connective? with
  | none => rfl
  | some connective =>
    simp only [found, decide_eq_false_iff_not, Nat.not_le] at stops ⊢
    exact Nat.lt_of_lt_of_le stops le

/-- Behind an operand that is not gone on with stands no operator of its level. -/
theorem Stops.connectiveAt? {level : Level} (stops : Stops level.depth rest) :
    (front rest).token.connectiveAt? level = none := by
  rw [Option.eq_none_iff_forall_ne_some]
  intro connective found
  obtain ⟨symbol, kind, member⟩ := (connectiveAt?_eq_some_iff _ _ _).mp found
  obtain ⟨known, sameLevel⟩ := (mem_operators_iff _ _ _).mp member
  rw [Stops, kind, ← sameLevel] at stops
  cases symbol <;> cases known <;> cases stops

/-- An operator stops the operands of its level. -/
theorem stops_operator {level : Level} {symbol : Symbol} {connective : Connective}
    (member : (symbol, connective) ∈ operators level) (position : Position) (rest : List Placed) :
    Stops (level.depth + 1) (mark symbol position :: rest) := by
  have table : ∀ entry ∈ operators level, goesOn (level.depth + 1) (.symbol entry.1) = false := by
    cases level <;> decide
  exact table _ member

/-- What ends an expression in a statement goes on with it at no level. -/
theorem Ends.stops (ends : Ends rest) : Stops 0 rest := by
  rcases ends with semicolon | closing
  · rw [Stops, semicolon]
    rfl
  · rw [Stops, closing]
    rfl

theorem stops_sign {symbol : Symbol} {operation : Arithmetic}
    (member : (symbol, operation) ∈ compoundSigns) (position : Position) (rest : List Placed) :
    Stops 0 (mark symbol position :: rest) := by
  have table : ∀ entry ∈ compoundSigns, goesOn 0 (.symbol entry.1) = false := by
    decide
  exact table _ member

/-- Every tighter level is one deeper, so the prices of levels grow with their depths. -/
theorem tighter_depth {level next : Level} (member : (level, next) ∈ nextLevels) :
    next.depth = level.depth + 1 := by
  have table : ∀ entry ∈ nextLevels, entry.2.depth = entry.1.depth + 1 := by
    decide
  exact table _ member

/-! ### Readings -/

/-- The readers for a kind of phrase take these tokens as this tree, wherever such a phrase may
stand. -/
def Reads : (phrase : Phrase) → List Placed → phrase.Tree → Prop
  | .joined level, tokens, tree => ∀ bound rest,
    24 * tokens.length ≤ bound + (2 * level.depth + 10) → Stops (level.depth + 1) rest →
    ∃ left, bound ≤ left + tokens.length ∧
      joined bound level (tokens ++ rest) = joinedTail left level tree rest
  | .operand level, tokens, tree => ∀ bound rest,
    24 * tokens.length ≤ bound + (2 * level.depth + 11) → Stops (level.depth + 1) rest →
    operand bound level (tokens ++ rest) = .ok tree rest
  | .unary, tokens, tree => ∀ bound rest,
    24 * tokens.length ≤ bound + 22 → Stops 6 rest → unary bound (tokens ++ rest) = .ok tree rest
  | .updated, tokens, tree => ∀ bound rest,
    24 * tokens.length ≤ bound + 23 → Stops 6 rest →
    (primary bound >>= trailing bound) (tokens ++ rest) = .ok tree rest
  | .applied, tokens, tree => ∀ bound rest,
    24 * tokens.length ≤ bound + 23 →
    ∃ left, bound < left + tokens.length ∧
      (primary bound >>= trailing bound) (tokens ++ rest) = trailing left tree rest
  | .primary, tokens, tree => ∀ bound rest,
    24 * tokens.length ≤ bound + 23 → primary bound (tokens ++ rest) = .ok tree rest
  | .block, tokens, tree => ∀ bound rest,
    24 * tokens.length ≤ bound + 23 → block bound (tokens ++ rest) = .ok tree rest
  | .statement, tokens, tree => ∀ bound rest,
    24 * tokens.length ≤ bound + 6 → NoElse rest →
    statement bound (tokens ++ rest) = .ok tree rest
  | .simple, tokens, tree => ∀ bound rest,
    24 * tokens.length ≤ bound + 7 → Ends rest →
    simpleStatement bound (tokens ++ rest) = .ok tree rest
  | .assignment, tokens, tree => ∀ bound rest,
    24 * tokens.length ≤ bound + 8 → Ends rest →
    assignment bound (tokens ++ rest) = .ok tree rest
  | .branch, tokens, tree => ∀ bound rest,
    24 * tokens.length ≤ bound + 7 → NoElse rest →
    branch bound (tokens ++ rest) = .ok tree rest
  | .alternative, tokens, tree => ∀ bound rest,
    24 * tokens.length ≤ bound + 6 → NoElse rest →
    alternative bound (tokens ++ rest) = .ok tree rest

/-- A bound that pays for something is not used up. -/
theorem exists_succ {length spent : Nat} (filled : 0 < length) (pays : 24 * length ≤ bound + spent)
    (less : spent < 24) : ∃ next, bound = next + 1 :=
  Nat.exists_eq_add_one_of_ne_zero (by omega)

/-! ### Expressions -/

/-- Where no operator of the level follows, nothing more is joined. -/
theorem joinedTail_stops {level : Level} (tree : Expr) (stops : Stops level.depth rest) :
    joinedTail (bound + 1) level tree rest = .ok tree rest := by
  rw [joinedTail, peek_bind, stops.connectiveAt?]
  rfl

/-- An operand joined at a level is taken to its end if no operator of the level follows. -/
theorem Reads.joined_ok {level : Level} {tree : Expr} (reads : Reads (.joined level) tokens tree)
    (filled : 0 < tokens.length)
    (pays : 24 * tokens.length ≤ bound + (2 * level.depth + 10)) (stops : Stops level.depth rest) :
    joined bound level (tokens ++ rest) = .ok tree rest := by
  obtain ⟨left, enough, equal⟩ := reads bound rest pays (stops.deeper (Nat.le_succ _))
  have shallow : level.depth ≤ 5 := by cases level <;> decide
  obtain ⟨left, rfl⟩ := Nat.exists_eq_add_one_of_ne_zero (show left ≠ 0 by omega)
  rw [equal, joinedTail_stops tree stops]

theorem Reads.expression_ok {tree : Expr} (reads : Reads .expression tokens tree)
    (filled : 0 < tokens.length) (pays : 24 * tokens.length ≤ bound + 9) (stops : Stops 0 rest) :
    expression bound (tokens ++ rest) = .ok tree rest := by
  obtain ⟨bound, rfl⟩ := exists_succ filled pays (by decide)
  rw [expression]
  have pays : 24 * tokens.length ≤ bound + (2 * Level.either.depth + 10) := by
    rw [Level.depth]
    omega
  exact Reads.joined_ok reads filled pays stops

theorem reads_single {level : Level} {tree : Expr} (reads : Reads (.operand level) tokens tree)
    (filled : 0 < tokens.length) : Reads (.joined level) tokens tree := by
  intro bound rest pays stops
  have shallow : level.depth ≤ 5 := by cases level <;> decide
  obtain ⟨bound, rfl⟩ := exists_succ filled pays (by omega)
  refine ⟨bound, by omega, ?_⟩
  rw [joined, EStateM.bind_of_ok (reads bound rest (by omega) stops)]

/-- The left operand is read first, and the loop takes the operator and the right one. -/
theorem reads_join {level : Level} {front back : List Placed} {left right : Expr}
    {symbol : Symbol} {connective : Connective} (position : Position)
    (readsLeft : Reads (.joined level) front left) (filled : 0 < front.length)
    (member : (symbol, connective) ∈ operators level)
    (readsRight : Reads (.operand level) back right) :
    Reads (.joined level) (front ++ mark symbol position :: back)
      (connective.join left right position) := by
  intro bound rest pays stops
  have shallow : level.depth ≤ 5 := by cases level <;> decide
  rw [List.length_append, List.length_cons] at pays
  obtain ⟨budget, enough, equal⟩ := readsLeft bound (mark symbol position :: (back ++ rest))
    (by omega) (stops_operator member position _)
  obtain ⟨budget, rfl⟩ := Nat.exists_eq_add_one_of_ne_zero (show budget ≠ 0 by omega)
  have found : (mark symbol position).token.connectiveAt? level = some connective :=
    (connectiveAt?_eq_some_iff _ _ _).mpr ⟨symbol, rfl, member⟩
  refine ⟨budget, ?_, ?_⟩
  · rw [List.length_append, List.length_cons]
    omega
  · rw [List.append_assoc, List.cons_append, equal, joinedTail, peek_bind, front_cons, found]
    show (skip >>= _) _ = _
    rw [skip_bind, List.tail_cons, EStateM.bind_of_ok (readsRight budget rest (by omega) stops)]
    rfl

theorem reads_tighter {level next : Level} {tree : Expr} (member : (level, next) ∈ nextLevels)
    (reads : Reads (.joined next) tokens tree) (filled : 0 < tokens.length) :
    Reads (.operand level) tokens tree := by
  intro bound rest pays stops
  have deeper := tighter_depth member
  have shallow : next.depth ≤ 5 := by cases next <;> decide
  obtain ⟨bound, rfl⟩ := exists_succ filled pays (by omega)
  rw [operand, (tighter?_eq_some_iff level next).mpr member]
  exact Reads.joined_ok reads filled (by omega) (deeper ▸ stops)

theorem reads_tightest {tree : Expr} (reads : Reads .unary tokens tree)
    (filled : 0 < tokens.length) : Reads (.operand .product) tokens tree := by
  intro bound rest pays stops
  rw [Level.depth] at pays
  obtain ⟨bound, rfl⟩ := exists_succ filled pays (by decide)
  rw [operand]
  exact reads bound rest (by omega) stops

theorem applyLeading_updatable {op : UnaryOp} {operand : Expr} (position : Position)
    (updatable : ∀ step yield, op = .update step yield → Variable operand)
    (rest : List Placed) :
    applyLeading op operand position rest = .ok (.unary op operand position) rest := by
  cases op with
  | update step yield =>
    rw [applyLeading, if_pos ((isVariable_iff operand).mpr (updatable step yield rfl))]
    rfl
  | _ => rfl

/-- The operator is taken and then its operand, which is a variable if it is updated. -/
theorem reads_leading {symbol : Symbol} {op : UnaryOp} {operand : Expr} (position : Position)
    (member : (symbol, op) ∈ leadingOperators) (reads : Reads .unary tokens operand)
    (updatable : ∀ step yield, op = .update step yield → Variable operand) :
    Reads .unary (mark symbol position :: tokens) (.unary op operand position) := by
  intro bound rest pays stops
  rw [List.length_cons] at pays
  obtain ⟨bound, rfl⟩ := exists_succ (Nat.succ_pos _) pays (by decide)
  have found : leadingOp? (mark symbol position).token = some op :=
    (leadingOp?_eq_some_iff _ _).mpr ⟨symbol, rfl, member⟩
  rw [List.cons_append, unary, peek_bind, front_cons, found]
  show (skip >>= _) _ = _
  rw [skip_bind, List.tail_cons, EStateM.bind_of_ok (reads bound rest (by omega) stops)]
  exact applyLeading_updatable position updatable rest

/-- What starts a primary expression is no operator in front of one. -/
theorem leadingOp?_of_opensPrimary {token : Token} (opens : opensPrimary token = true) :
    leadingOp? token = none := by
  unfold leadingOp?
  split <;> first | rfl | cases opens

theorem reads_unled {tree : Expr} (reads : Reads .updated tokens tree)
    (starts : StartsWith opensPrimary tokens) : Reads .unary tokens tree := by
  intro bound rest pays stops
  have filled := List.length_pos_iff.mpr starts.ne_nil
  obtain ⟨bound, rfl⟩ := exists_succ filled pays (by decide)
  rw [unary, peek_bind, leadingOp?_of_opensPrimary (starts.front rest)]
  exact reads bound rest (by omega) stops

/-- Where no bracket and no update follows, the operand is complete. -/
theorem trailing_stops (tree : Expr) (stops : Stops 6 rest) :
    trailing (bound + 1) tree rest = .ok tree rest := by
  rw [trailing, peek_bind]
  show EStateM.run _ rest = _
  unfold Stops at stops
  split
  all_goals first
    | rfl
    | (rename_i kind; rw [kind] at stops; cases stops)

theorem reads_notUpdated {tree : Expr} (reads : Reads .applied tokens tree)
    (filled : 0 < tokens.length) : Reads .updated tokens tree := by
  intro bound rest pays stops
  obtain ⟨left, enough, equal⟩ := reads bound rest pays
  obtain ⟨left, rfl⟩ := Nat.exists_eq_add_one_of_ne_zero (show left ≠ 0 by omega)
  rw [equal, trailing_stops tree stops]

theorem trailing_update {symbol : Symbol} {step : Step} {operand : Expr} (position : Position)
    (member : (symbol, step) ∈ updates) (updatable : Variable operand) (rest : List Placed) :
    trailing (bound + 1) operand (mark symbol position :: rest) =
      .ok (.unary (.update step .previous) operand position) rest := by
  have passes := (isVariable_iff operand).mpr updatable
  have cases_ : (symbol = .increment ∧ step = .increment) ∨
      (symbol = .decrement ∧ step = .decrement) := by
    simpa [updates] using member
  rcases cases_ with ⟨rfl, rfl⟩ | ⟨rfl, rfl⟩
  · show trailingUpdate .increment operand position (mark .increment position :: rest) = _
    rw [trailingUpdate, if_pos passes]
    rfl
  · show trailingUpdate .decrement operand position (mark .decrement position :: rest) = _
    rw [trailingUpdate, if_pos passes]
    rfl

theorem reads_update {symbol : Symbol} {step : Step} {operand : Expr} (position : Position)
    (reads : Reads .applied tokens operand) (filled : 0 < tokens.length)
    (member : (symbol, step) ∈ updates) (updatable : Variable operand) :
    Reads .updated (tokens ++ [mark symbol position])
      (.unary (.update step .previous) operand position) := by
  intro bound rest pays _
  rw [List.length_append, List.length_singleton] at pays
  obtain ⟨left, enough, equal⟩ := reads bound (mark symbol position :: rest) (by omega)
  obtain ⟨left, rfl⟩ := Nat.exists_eq_add_one_of_ne_zero (show left ≠ 0 by omega)
  rw [List.append_assoc, List.singleton_append, equal, trailing_update position member updatable]

theorem reads_notApplied {tree : Expr} (reads : Reads .primary tokens tree)
    (filled : 0 < tokens.length) : Reads .applied tokens tree := by
  intro bound rest pays
  exact ⟨bound, by omega, EStateM.bind_of_ok (reads bound rest pays)⟩

/-- What starts an expression does not close a list. -/
theorem not_closeParen_of_opensExpression {token : Token} (opens : opensExpression token = true) :
    token ≠ .symbol .closeParen := by
  rintro rfl
  cases opens

/-- The callee is read first, and the loop behind it takes the list of arguments. -/
theorem reads_call {front inner : List Placed} {callee : Expr} (arguments : List (Piece Expr))
    (position closed : Position) (readsCallee : Reads .applied front callee)
    (filled : 0 < front.length)
    (readsArguments : ∀ argument ∈ arguments, Reads .expression argument.tokens argument.tree)
    (opens : ∀ argument ∈ arguments, StartsWith opensExpression argument.tokens)
    (separated : Separated arguments inner) :
    Reads .applied (front ++ mark .openParen position :: inner ++ [mark .closeParen closed])
      (.call callee (trees arguments) position) := by
  intro bound rest pays
  simp only [List.length_append, List.length_cons, List.length_nil] at pays
  obtain ⟨left, enough, equal⟩ := readsCallee bound
    (mark .openParen position :: (inner ++ mark .closeParen closed :: rest)) (by omega)
  obtain ⟨left, rfl⟩ := Nat.exists_eq_add_one_of_ne_zero (show left ≠ 0 by omega)
  have counted := separated.length_le fun argument member => (opens argument member).ne_nil
  have readArguments : commaSeparated (expression left) left
      (inner ++ mark .closeParen closed :: rest) = .ok (trees arguments) rest := by
    refine commaSeparated_separated separated (by omega) (fun argument member rest follows => ?_)
      (fun argument member rest => ?_) closed rest
    · have filledArgument := List.length_pos_iff.mpr (opens argument member).ne_nil
      have short := separated.piece_length_le member
      refine (readsArguments argument member).expression_ok filledArgument (by omega) ?_
      rcases follows with comma | closing
      · rw [Stops, comma]
        rfl
      · rw [Stops, closing]
        rfl
    · exact not_closeParen_of_opensExpression ((opens argument member).front rest)
  refine ⟨left, ?_, ?_⟩
  · simp only [List.length_append, List.length_cons, List.length_nil]
    omega
  · have regrouped : front ++ mark .openParen position :: inner ++ [mark .closeParen closed] ++ rest
        = front ++ mark .openParen position :: (inner ++ mark .closeParen closed :: rest) := by
      simp
    rw [regrouped, equal, trailing]
    exact EStateM.bind_of_ok readArguments

theorem reads_index {front inner : List Placed} {target index : Expr} (position closed : Position)
    (readsTarget : Reads .applied front target) (filled : 0 < front.length)
    (readsIndex : Reads .expression inner index) (filledIndex : 0 < inner.length) :
    Reads .applied (front ++ mark .openBracket position :: inner ++ [mark .closeBracket closed])
      (.index target index position) := by
  intro bound rest pays
  simp only [List.length_append, List.length_cons, List.length_nil] at pays
  obtain ⟨left, enough, equal⟩ := readsTarget bound
    (mark .openBracket position :: (inner ++ mark .closeBracket closed :: rest)) (by omega)
  obtain ⟨left, rfl⟩ := Nat.exists_eq_add_one_of_ne_zero (show left ≠ 0 by omega)
  have readIndex := readsIndex.expression_ok filledIndex
    (show 24 * inner.length ≤ left + 9 by omega)
    (show Stops 0 (mark .closeBracket closed :: rest) from rfl)
  refine ⟨left, ?_, ?_⟩
  · simp only [List.length_append, List.length_cons, List.length_nil]
    omega
  · have regrouped :
        front ++ mark .openBracket position :: inner ++ [mark .closeBracket closed] ++ rest
        = front ++ mark .openBracket position :: (inner ++ mark .closeBracket closed :: rest) := by
      simp
    rw [regrouped, equal, trailing]
    refine (EStateM.bind_of_ok readIndex).trans ?_
    exact EStateM.bind_of_ok (expectSymbol_mark .closeBracket closed rest)

theorem reads_literal (literal : Literal) (position : Position) :
    Reads .primary [⟨literalToken literal, position⟩] (.literal literal position) := by
  intro bound rest pays
  obtain ⟨bound, rfl⟩ := exists_succ Nat.one_pos pays (by decide)
  rw [List.singleton_append, primary]
  cases literal <;> rfl

theorem reads_name (name : String) (position : Position) :
    Reads .primary [named name position] (.identifier name position) := by
  intro bound rest pays
  obtain ⟨bound, rfl⟩ := exists_succ Nat.one_pos pays (by decide)
  rw [List.singleton_append, primary]
  rfl

theorem reads_parenthesized {inner : List Placed} {tree : Expr} (opened closed : Position)
    (reads : Reads .expression inner tree) (filled : 0 < inner.length) :
    Reads .primary (mark .openParen opened :: inner ++ [mark .closeParen closed]) tree := by
  intro bound rest pays
  simp only [List.length_append, List.length_cons, List.length_nil] at pays
  obtain ⟨bound, rfl⟩ := exists_succ (Nat.succ_pos _) pays (by decide)
  have read := reads.expression_ok filled (show 24 * inner.length ≤ bound + 9 by omega)
    (show Stops 0 (mark .closeParen closed :: rest) from rfl)
  rw [List.append_assoc, List.cons_append, List.singleton_append, primary]
  refine (EStateM.bind_of_ok read).trans ?_
  exact EStateM.bind_of_ok (expectSymbol_mark .closeParen closed rest)

/-- A lambda is its word, its parameters, an arrow and a block. -/
theorem reads_lambda {parameters body : List Placed} {names : List String} {block : Block}
    (position arrow : Position) (derived : Parameters parameters names)
    (reads : Reads .block body block) :
    Reads .primary (word .lamWord position :: parameters ++ mark .arrow arrow :: body)
      (.lambda ⟨Procedure.lambdaName, names, block.statements, position⟩ position) := by
  intro bound rest pays
  simp only [List.length_append, List.length_cons] at pays
  obtain ⟨bound, rfl⟩ := exists_succ (Nat.succ_pos _) pays (by decide)
  have readNames := parameters_derived derived (show parameters.length ≤ bound by omega)
    (mark .arrow arrow :: (body ++ rest))
  have readBody := reads bound rest (by omega)
  rw [List.append_assoc, List.cons_append, List.cons_append, primary]
  refine (EStateM.bind_of_ok readNames).trans ?_
  refine (EStateM.bind_of_ok (expectSymbol_mark .arrow arrow (body ++ rest))).trans ?_
  exact EStateM.bind_of_ok readBody

/-! ### Statements -/

/-- What starts a statement is neither the end of a block nor of the tokens. -/
theorem opensStatement_inside {token : Token} (opens : opensStatement token = true) :
    token ≠ .symbol .closeBrace ∧ token ≠ .endOfInput ∧ token ≠ .keyword .elseWord := by
  refine ⟨?_, ?_, ?_⟩ <;> rintro rfl <;> cases opens

/-- Statements are read one by one up to the brace behind them, which starts none. -/
theorem blockTail_reads {pieces : List (Piece Statement)} (closed : Position) (rest : List Placed)
    (reads : ∀ piece ∈ pieces, Reads .statement piece.tokens piece.tree)
    (opens : ∀ piece ∈ pieces, StartsWith opensStatement piece.tokens) :
    ∀ bound, 24 * (joinTokens pieces).length < bound + 6 → 0 < bound →
      blockTail bound (joinTokens pieces ++ mark .closeBrace closed :: rest) =
        .ok (trees pieces) rest := by
  induction pieces with
  | nil =>
    intro bound _ positive
    obtain ⟨bound, rfl⟩ := Nat.exists_eq_add_one_of_ne_zero (Nat.ne_of_gt positive)
    rw [blockTail]
    rfl
  | cons first others inductionHypothesis =>
    intro bound pays positive
    obtain ⟨bound, rfl⟩ := Nat.exists_eq_add_one_of_ne_zero (Nat.ne_of_gt positive)
    have split : joinTokens (first :: others) = first.tokens ++ joinTokens others := rfl
    have starts := opens first List.mem_cons_self
    have filled := List.length_pos_iff.mpr starts.ne_nil
    rw [split, List.length_append] at pays
    have readOthers := inductionHypothesis
      (fun piece member => reads piece (List.mem_cons_of_mem first member))
      (fun piece member => opens piece (List.mem_cons_of_mem first member)) bound (by omega)
      (by omega)
    -- A block goes on with a statement or its brace, and neither is an alternative.
    have noElse : NoElse (joinTokens others ++ mark .closeBrace closed :: rest) := by
      cases others with
      | nil => exact fun impossible => by cases impossible
      | cons next more =>
        have startsNext := opens next (List.mem_cons_of_mem first List.mem_cons_self)
        have inside := opensStatement_inside
          (startsNext.front (joinTokens more ++ mark .closeBrace closed :: rest))
        rw [← List.append_assoc] at inside
        exact inside.2.2
    have readFirst := reads first List.mem_cons_self bound _ (by omega) noElse
    obtain ⟨notClosed, notEnded, _⟩ := opensStatement_inside
      (starts.front (joinTokens others ++ mark .closeBrace closed :: rest))
    rw [split, List.append_assoc, blockTail, peek_bind]
    show EStateM.run _ _ = _
    split
    · rename_i closing
      exact absurd closing notClosed
    · rename_i ended
      exact absurd ended notEnded
    · refine (EStateM.bind_of_ok readFirst).trans ?_
      exact EStateM.bind_of_ok readOthers

theorem reads_block (statements : List (Piece Statement)) (position closed : Position)
    (reads : ∀ piece ∈ statements, Reads .statement piece.tokens piece.tree)
    (opens : ∀ piece ∈ statements, StartsWith opensStatement piece.tokens) :
    Reads .block (mark .openBrace position :: joinTokens statements ++ [mark .closeBrace closed])
      ⟨trees statements, position⟩ := by
  intro bound rest pays
  simp only [List.length_append, List.length_cons, List.length_nil] at pays
  obtain ⟨bound, rfl⟩ := exists_succ (Nat.succ_pos _) pays (by decide)
  have read := blockTail_reads closed rest reads opens bound (by omega) (by omega)
  rw [List.append_assoc, List.cons_append, List.singleton_append, block]
  refine (EStateM.bind_of_ok (advance_cons (fun ended => by cases ended) _)).trans ?_
  exact EStateM.bind_of_ok read

/-- An expression with neither kind of assignment sign behind it is a statement by itself. -/
theorem reads_evaluate {first : Placed} {others : List Placed} {tree : Expr}
    (reads : Reads .expression (first :: others) tree) :
    Reads .assignment (first :: others) (.evaluate tree first.position) := by
  intro bound rest pays ends
  obtain ⟨bound, rfl⟩ := exists_succ (Nat.succ_pos _) pays (by decide)
  have read := reads.expression_ok (Nat.succ_pos _) (by omega) ends.stops
  rw [assignment, peek_bind, EStateM.bind_of_ok read, peek_bind]
  show EStateM.run _ rest = _
  rcases ends with semicolon | closing
  · rw [semicolon]
    rfl
  · rw [closing]
    rfl

/-- What stands in front of the sign is read as an expression and found to be a name. -/
theorem reads_assign {front back : List Placed} {name : String} {value : Expr}
    (position sign : Position) (readsTarget : Reads .expression front (.identifier name position))
    (filled : 0 < front.length) (readsValue : Reads .expression back value)
    (filledValue : 0 < back.length) :
    Reads .assignment (front ++ mark .assign sign :: back) (.assign name value position) := by
  intro bound rest pays ends
  simp only [List.length_append, List.length_cons] at pays
  obtain ⟨bound, rfl⟩ := exists_succ (Nat.add_pos_left filled _) pays (by decide)
  have readTarget := readsTarget.expression_ok filled (show 24 * front.length ≤ bound + 9 by omega)
    (show Stops 0 (mark .assign sign :: (back ++ rest)) from rfl)
  have readValue := readsValue.expression_ok filledValue (show _ ≤ bound + 9 by omega) ends.stops
  rw [List.append_assoc, List.cons_append, assignment, peek_bind, EStateM.bind_of_ok readTarget]
  exact EStateM.bind_of_ok readValue

theorem reads_compoundAssign {symbol : Symbol} {operation : Arithmetic} {front back : List Placed}
    {name : String} {value : Expr} (position sign : Position)
    (member : (symbol, operation) ∈ compoundSigns)
    (readsTarget : Reads .expression front (.identifier name position))
    (filled : 0 < front.length) (readsValue : Reads .expression back value)
    (filledValue : 0 < back.length) :
    Reads .assignment (front ++ mark symbol sign :: back)
      (.compoundAssign name operation value position sign) := by
  intro bound rest pays ends
  simp only [List.length_append, List.length_cons] at pays
  obtain ⟨bound, rfl⟩ := exists_succ (Nat.add_pos_left filled _) pays (by decide)
  have readTarget := readsTarget.expression_ok filled (show 24 * front.length ≤ bound + 9 by omega)
    (stops_sign member sign (back ++ rest))
  have readValue := readsValue.expression_ok filledValue (show _ ≤ bound + 9 by omega) ends.stops
  have found : (mark symbol sign).token.compound? = some operation :=
    (compound?_eq_some_iff _ _).mpr ⟨symbol, rfl, member⟩
  rw [List.append_assoc, List.cons_append, assignment, peek_bind, EStateM.bind_of_ok readTarget,
    peek_bind, front_cons]
  show EStateM.run _ _ = _
  split
  · rename_i kind
    rw [kind] at found
    cases found
  · rw [found]
    exact EStateM.bind_of_ok readValue

theorem reads_declare {keyword : Keyword} {mutability : Mutability} {name : String} {value : Expr}
    (start position sign : Position) (member : (keyword, mutability) ∈ declarators)
    (reads : Reads .expression tokens value) (filled : 0 < tokens.length) :
    Reads .simple (word keyword start :: named name position :: mark .assign sign :: tokens)
      (.declare name value mutability position) := by
  intro bound rest pays ends
  simp only [List.length_cons] at pays
  obtain ⟨bound, rfl⟩ := exists_succ (Nat.succ_pos _) pays (by decide)
  obtain ⟨bound, rfl⟩ := Nat.exists_eq_add_one_of_ne_zero (show bound ≠ 0 by omega)
  have read := reads.expression_ok filled (show _ ≤ bound + 9 by omega) ends.stops
  have declared : declaration (bound + 1) mutability
      (word keyword start :: named name position :: mark .assign sign :: (tokens ++ rest)) =
        .ok (.declare name value mutability position) rest := by
    rw [declaration, skip_bind, List.tail_cons]
    refine (EStateM.bind_of_ok (identifier_named ⟨name, position⟩ _)).trans ?_
    refine (EStateM.bind_of_ok (expectSymbol_mark .assign sign _)).trans ?_
    exact EStateM.bind_of_ok read
  have either : (keyword = .letWord ∧ mutability = .mutable) ∨
      (keyword = .constWord ∧ mutability = .constant) := by
    simpa [declarators] using member
  rw [simpleStatement]
  rcases either with ⟨rfl, rfl⟩ | ⟨rfl, rfl⟩
  · exact declared
  · exact declared

/-- What starts an expression is not the first word of a statement. -/
theorem opensExpression_not_keyword {token : Token} (opens : opensExpression token = true) :
    token ≠ .keyword .letWord ∧ token ≠ .keyword .constWord := by
  refine ⟨?_, ?_⟩ <;> rintro rfl <;> cases opens

theorem reads_undeclared {tree : Statement} (reads : Reads .assignment tokens tree)
    (starts : StartsWith opensExpression tokens) : Reads .simple tokens tree := by
  intro bound rest pays ends
  have filled := List.length_pos_iff.mpr starts.ne_nil
  obtain ⟨bound, rfl⟩ := exists_succ filled pays (by decide)
  obtain ⟨notLet, notConst⟩ := opensExpression_not_keyword (starts.front rest)
  rw [simpleStatement, peek_bind]
  show EStateM.run _ _ = _
  split
  · rename_i kind
    exact absurd kind notLet
  · rename_i kind
    exact absurd kind notConst
  · exact reads bound rest (by omega) ends

theorem reads_simple {tree : Statement} (semicolon : Position) (reads : Reads .simple tokens tree)
    (starts : StartsWith opensSimple tokens) :
    Reads .statement (tokens ++ [mark .semicolon semicolon]) tree := by
  intro bound rest pays _
  rw [List.length_append, List.length_singleton] at pays
  obtain ⟨bound, rfl⟩ := exists_succ (Nat.succ_pos _) pays (by decide)
  have read := reads bound (mark .semicolon semicolon :: rest) (by omega) (Or.inl rfl)
  have opens := starts.front (mark .semicolon semicolon :: rest)
  rw [List.append_assoc, List.singleton_append, statement, peek_bind]
  show EStateM.run _ _ = _
  -- No other statement starts with a token that a simple one starts with.
  split
  iterate 7
    · rename_i kind
      rw [kind] at opens
      cases opens
  · refine (EStateM.bind_of_ok read).trans ?_
    exact EStateM.bind_of_ok (expectSymbol_mark .semicolon semicolon rest)

theorem reads_nested {block : Block} (reads : Reads .block tokens block)
    (starts : StartsWith Phrase.block.opens tokens) :
    Reads .statement tokens (.block block.statements block.position) := by
  intro bound rest pays _
  obtain ⟨bound, rfl⟩ := exists_succ (List.length_pos_iff.mpr starts.ne_nil) pays (by decide)
  have read := reads bound rest (by omega)
  rw [statement, peek_bind, of_decide_eq_true (starts.front rest)]
  exact EStateM.bind_of_ok read

theorem reads_leave (position semicolon : Position) :
    Reads .statement [word .returnWord position, mark .semicolon semicolon]
      (.leave none position) := by
  intro bound rest pays _
  obtain ⟨bound, rfl⟩ := exists_succ (Nat.succ_pos _) pays (by decide)
  simp only [List.length_cons, List.length_nil] at pays
  obtain ⟨bound, rfl⟩ := Nat.exists_eq_add_one_of_ne_zero (show bound ≠ 0 by omega)
  rw [statement, peek_bind]
  show leave (bound + 1) _ = _
  rw [leave]
  rfl

/-- What starts an expression does not end a statement. -/
theorem not_semicolon_of_opensExpression {token : Token} (opens : opensExpression token = true) :
    token ≠ .symbol .semicolon := by
  rintro rfl
  cases opens

theorem reads_leaveWith {value : Expr} (position semicolon : Position)
    (reads : Reads .expression tokens value) (starts : StartsWith opensExpression tokens) :
    Reads .statement (word .returnWord position :: tokens ++ [mark .semicolon semicolon])
      (.leave (some value) position) := by
  intro bound rest pays _
  simp only [List.length_append, List.length_cons, List.length_nil] at pays
  obtain ⟨bound, rfl⟩ := exists_succ (Nat.succ_pos _) pays (by decide)
  obtain ⟨bound, rfl⟩ := Nat.exists_eq_add_one_of_ne_zero (show bound ≠ 0 by omega)
  have filled := List.length_pos_iff.mpr starts.ne_nil
  have read := reads.expression_ok filled (show _ ≤ bound + 9 by omega)
    (show Stops 0 (mark .semicolon semicolon :: rest) from rfl)
  have notSemicolon := not_semicolon_of_opensExpression
    (starts.front (mark .semicolon semicolon :: rest))
  rw [List.append_assoc, List.cons_append, List.singleton_append, statement, peek_bind]
  show leave (bound + 1) _ = _
  rw [leave]
  refine (EStateM.bind_of_ok (expectKeyword_word .returnWord position _)).trans ?_
  rw [peek_bind]
  show EStateM.run _ _ = _
  split
  · rename_i kind
    exact absurd kind notSemicolon
  · refine (EStateM.bind_of_ok read).trans ?_
    exact EStateM.bind_of_ok (expectSymbol_mark .semicolon semicolon rest)

theorem reads_breakLoop (position semicolon : Position) :
    Reads .statement [word .breakWord position, mark .semicolon semicolon]
      (.breakLoop position) := by
  intro bound rest pays _
  obtain ⟨bound, rfl⟩ := exists_succ (Nat.succ_pos _) pays (by decide)
  rw [statement, peek_bind]
  rfl

theorem reads_continueLoop (position semicolon : Position) :
    Reads .statement [word .continueWord position, mark .semicolon semicolon]
      (.continueLoop position) := by
  intro bound rest pays _
  obtain ⟨bound, rfl⟩ := exists_succ (Nat.succ_pos _) pays (by decide)
  rw [statement, peek_bind]
  rfl

/-- A condition is an expression in parentheses, whatever stands behind it. -/
theorem condition_reads {test : Expr} (opened closed : Position)
    (reads : Reads .expression tokens test) (filled : 0 < tokens.length)
    (pays : 24 * tokens.length ≤ bound + 9) (rest : List Placed) :
    condition (bound + 1) (mark .openParen opened :: (tokens ++ mark .closeParen closed :: rest)) =
      .ok test rest := by
  have read := reads.expression_ok filled pays
    (show Stops 0 (mark .closeParen closed :: rest) from rfl)
  rw [condition]
  refine (EStateM.bind_of_ok (expectSymbol_mark .openParen opened _)).trans ?_
  refine (EStateM.bind_of_ok read).trans ?_
  exact EStateM.bind_of_ok (expectSymbol_mark .closeParen closed rest)

theorem reads_loop {inner body : List Placed} {test : Expr} {block : Block}
    (position opened closed : Position) (readsTest : Reads .expression inner test)
    (filled : 0 < inner.length) (readsBody : Reads .block body block) :
    Reads .statement
      (word .whileWord position :: mark .openParen opened :: inner ++ mark .closeParen closed :: body)
      (.loop test block.statements position) := by
  intro bound rest pays _
  simp only [List.length_append, List.length_cons] at pays
  obtain ⟨bound, rfl⟩ := exists_succ (Nat.succ_pos _) pays (by decide)
  obtain ⟨bound, rfl⟩ := Nat.exists_eq_add_one_of_ne_zero (show bound ≠ 0 by omega)
  obtain ⟨bound, rfl⟩ := Nat.exists_eq_add_one_of_ne_zero (show bound ≠ 0 by omega)
  have readTest := condition_reads opened closed readsTest filled
    (show _ ≤ bound + 9 by omega) (body ++ rest)
  have readBody := readsBody (bound + 1) rest (by omega)
  rw [List.append_assoc, List.cons_append, List.cons_append, List.cons_append, statement, peek_bind]
  show loop (bound + 2) _ = _
  rw [loop]
  refine (EStateM.bind_of_ok (expectKeyword_word .whileWord position _)).trans ?_
  refine (EStateM.bind_of_ok readTest).trans ?_
  exact EStateM.bind_of_ok readBody

/-- The parts of the header are read in turn, and both checks are passed. -/
theorem reads_counterLoop {start inner step body : List Placed} {initializer update : Statement}
    {test : Expr} {block : Block} (position opened first second closed : Position)
    (readsInitializer : Reads .simple start initializer) (initializes : Initializes initializer)
    (readsTest : Reads .expression inner test) (filled : 0 < inner.length)
    (readsUpdate : Reads .assignment step update) (advances : Advances update)
    (readsBody : Reads .block body block) :
    Reads .statement
      (word .forWord position :: mark .openParen opened :: start ++
        mark .semicolon first :: inner ++ mark .semicolon second :: step ++
        mark .closeParen closed :: body)
      (.forLoop initializer test update block.statements position block.position) := by
  intro bound rest pays _
  simp only [List.length_append, List.length_cons] at pays
  obtain ⟨bound, rfl⟩ := exists_succ (Nat.succ_pos _) pays (by decide)
  obtain ⟨bound, rfl⟩ := Nat.exists_eq_add_one_of_ne_zero (show bound ≠ 0 by omega)
  have readInitializer := readsInitializer bound (mark .semicolon first :: (inner ++
    mark .semicolon second :: (step ++ mark .closeParen closed :: (body ++ rest))))
    (by omega) (Or.inl rfl)
  have readTest := readsTest.expression_ok filled (show _ ≤ bound + 9 by omega)
    (show Stops 0 (mark .semicolon second ::
      (step ++ mark .closeParen closed :: (body ++ rest))) from rfl)
  have readUpdate := readsUpdate bound (mark .closeParen closed :: (body ++ rest)) (by omega)
    (Or.inr rfl)
  have readBody := readsBody bound rest (by omega)
  have canInitialize := (canInitialize_iff _).mpr initializes
  have canAdvance := (canAdvance_iff _).mpr advances
  have regrouped : word .forWord position :: mark .openParen opened :: start ++
        mark .semicolon first :: inner ++ mark .semicolon second :: step ++
        mark .closeParen closed :: body ++ rest =
      word .forWord position :: mark .openParen opened :: (start ++
        mark .semicolon first :: (inner ++ mark .semicolon second :: (step ++
          mark .closeParen closed :: (body ++ rest)))) := by
    simp
  rw [regrouped, statement, peek_bind]
  show counterLoop (bound + 1) _ = _
  rw [counterLoop]
  refine (EStateM.bind_of_ok (expectKeyword_word .forWord position _)).trans ?_
  refine (EStateM.bind_of_ok (expectSymbol_mark .openParen opened _)).trans ?_
  refine (EStateM.bind_of_ok readInitializer).trans ?_
  simp only [canInitialize, Bool.not_true, Bool.false_eq_true, if_false]
  refine (EStateM.bind_of_ok (expectSymbol_mark .semicolon first _)).trans ?_
  refine (EStateM.bind_of_ok readTest).trans ?_
  refine (EStateM.bind_of_ok (expectSymbol_mark .semicolon second _)).trans ?_
  refine (EStateM.bind_of_ok readUpdate).trans ?_
  simp only [canAdvance, Bool.not_true, Bool.false_eq_true, if_false]
  refine (EStateM.bind_of_ok (expectSymbol_mark .closeParen closed _)).trans ?_
  exact EStateM.bind_of_ok readBody

theorem reads_branch {tree : Statement} (reads : Reads .branch tokens tree)
    (starts : StartsWith Phrase.branch.opens tokens) : Reads .statement tokens tree := by
  intro bound rest pays noElse
  obtain ⟨bound, rfl⟩ := exists_succ (List.length_pos_iff.mpr starts.ne_nil) pays (by decide)
  rw [statement, peek_bind, of_decide_eq_true (starts.front rest)]
  exact reads bound rest (by omega) noElse

theorem reads_branchAlone {inner body : List Placed} {test : Expr} {block : Block}
    (position opened closed : Position) (readsTest : Reads .expression inner test)
    (filled : 0 < inner.length) (readsBody : Reads .block body block) :
    Reads .branch
      (word .ifWord position :: mark .openParen opened :: inner ++ mark .closeParen closed :: body)
      (.branch test block.statements none position) := by
  intro bound rest pays noElse
  simp only [List.length_append, List.length_cons] at pays
  obtain ⟨bound, rfl⟩ := exists_succ (Nat.succ_pos _) pays (by decide)
  obtain ⟨bound, rfl⟩ := Nat.exists_eq_add_one_of_ne_zero (show bound ≠ 0 by omega)
  have readTest := condition_reads opened closed readsTest filled
    (show _ ≤ bound + 9 by omega) (body ++ rest)
  have readBody := readsBody (bound + 1) rest (by omega)
  rw [List.append_assoc, List.cons_append, List.cons_append, List.cons_append, branch]
  refine (EStateM.bind_of_ok (expectKeyword_word .ifWord position _)).trans ?_
  refine (EStateM.bind_of_ok readTest).trans ?_
  refine (EStateM.bind_of_ok readBody).trans ?_
  rw [peek_bind]
  show EStateM.run _ rest = _
  split
  · rename_i kind
    exact absurd kind noElse
  · rfl

/-- The word for an alternative is next, so the alternative belongs to this conditional. -/
theorem reads_branchElse {inner body other : List Placed} {test : Expr} {block : Block}
    {alternative : List Statement} (position opened closed otherwise : Position)
    (readsTest : Reads .expression inner test) (filled : 0 < inner.length)
    (readsBody : Reads .block body block) (readsOther : Reads .alternative other alternative) :
    Reads .branch
      (word .ifWord position :: mark .openParen opened :: inner ++
        mark .closeParen closed :: body ++ word .elseWord otherwise :: other)
      (.branch test block.statements (some alternative) position) := by
  intro bound rest pays noElse
  simp only [List.length_append, List.length_cons] at pays
  obtain ⟨bound, rfl⟩ := exists_succ (Nat.succ_pos _) pays (by decide)
  obtain ⟨bound, rfl⟩ := Nat.exists_eq_add_one_of_ne_zero (show bound ≠ 0 by omega)
  have readTest := condition_reads opened closed readsTest filled
    (show _ ≤ bound + 9 by omega) (body ++ word .elseWord otherwise :: (other ++ rest))
  have readBody := readsBody (bound + 1) (word .elseWord otherwise :: (other ++ rest)) (by omega)
  have readOther := readsOther (bound + 1) rest (by omega) noElse
  have regrouped : word .ifWord position :: mark .openParen opened :: inner ++
        mark .closeParen closed :: body ++ word .elseWord otherwise :: other ++ rest =
      word .ifWord position :: mark .openParen opened :: (inner ++
        mark .closeParen closed :: (body ++ word .elseWord otherwise :: (other ++ rest))) := by
    simp
  rw [regrouped, branch]
  refine (EStateM.bind_of_ok (expectKeyword_word .ifWord position _)).trans ?_
  refine (EStateM.bind_of_ok readTest).trans ?_
  refine (EStateM.bind_of_ok readBody).trans ?_
  exact EStateM.bind_of_ok readOther

theorem reads_chained {tree : Statement} (reads : Reads .branch tokens tree)
    (starts : StartsWith Phrase.branch.opens tokens) : Reads .alternative tokens [tree] := by
  intro bound rest pays noElse
  obtain ⟨bound, rfl⟩ := exists_succ (List.length_pos_iff.mpr starts.ne_nil) pays (by decide)
  have read := reads bound rest (by omega) noElse
  rw [alternative, peek_bind, of_decide_eq_true (starts.front rest)]
  exact EStateM.bind_of_ok read

theorem reads_unchained {block : Block} (reads : Reads .block tokens block)
    (starts : StartsWith Phrase.block.opens tokens) :
    Reads .alternative tokens block.statements := by
  intro bound rest pays _
  obtain ⟨bound, rfl⟩ := exists_succ (List.length_pos_iff.mpr starts.ne_nil) pays (by decide)
  have read := reads bound rest (by omega)
  rw [alternative, peek_bind, of_decide_eq_true (starts.front rest)]
  exact EStateM.bind_of_ok read

/-! ### All phrases -/

/-- Every phrase in which no update is gone on with is taken by its reader. -/
theorem reads_of_derives {phrase : Phrase} {tree : phrase.Tree}
    (derived : Derives false phrase tokens tree) : Reads phrase tokens tree := by
  induction derived with
  | single operand reads => exact reads_single reads operand.length_pos
  | join position left member _ readsLeft readsRight =>
    exact reads_join position readsLeft left.length_pos member readsRight
  | tighter member joined reads => exact reads_tighter member reads joined.length_pos
  | tightest unary reads => exact reads_tightest reads unary.length_pos
  | leading position member _ updatable reads => exact reads_leading position member reads updatable
  | unled updated reads => exact reads_unled reads updated.opens
  | update position applied member updatable reads =>
    exact reads_update position reads applied.length_pos member updatable
  | notUpdated applied reads => exact reads_notUpdated reads applied.length_pos
  | extended impossible _ _ => cases impossible
  | call arguments position closed callee each separated readsCallee readsArguments =>
    exact reads_call arguments position closed readsCallee callee.length_pos readsArguments
      (fun argument member => (each argument member).opens) separated
  | index position closed target index readsTarget readsIndex =>
    exact reads_index position closed readsTarget target.length_pos readsIndex index.length_pos
  | notApplied primary reads => exact reads_notApplied reads primary.length_pos
  | literal literal position => exact reads_literal literal position
  | name name position => exact reads_name name position
  | parenthesized opened closed inner reads =>
    exact reads_parenthesized opened closed reads inner.length_pos
  | lambda position arrow parameters _ reads => exact reads_lambda position arrow parameters reads
  | block statements position closed each reads =>
    exact reads_block statements position closed reads fun statement member =>
      (each statement member).opens
  | evaluate _ reads => exact reads_evaluate reads
  | assign position sign target value readsTarget readsValue =>
    exact reads_assign position sign readsTarget target.length_pos readsValue value.length_pos
  | compoundAssign position sign member target value readsTarget readsValue =>
    exact reads_compoundAssign position sign member readsTarget target.length_pos readsValue
      value.length_pos
  | declare start position sign member value reads =>
    exact reads_declare start position sign member reads value.length_pos
  | undeclared assignment reads => exact reads_undeclared reads assignment.opens
  | simple semicolon simple reads => exact reads_simple semicolon reads simple.opens
  | nested block reads => exact reads_nested reads block.opens
  | leave position semicolon => exact reads_leave position semicolon
  | leaveWith position semicolon value reads =>
    exact reads_leaveWith position semicolon reads value.opens
  | breakLoop position semicolon => exact reads_breakLoop position semicolon
  | continueLoop position semicolon => exact reads_continueLoop position semicolon
  | loop position opened closed test _ readsTest readsBody =>
    exact reads_loop position opened closed readsTest test.length_pos readsBody
  | counterLoop position opened first second closed _ initializes test _ advances _
      readsInitializer readsTest readsUpdate readsBody =>
    exact reads_counterLoop position opened first second closed readsInitializer initializes
      readsTest test.length_pos readsUpdate advances readsBody
  | branch branch reads => exact reads_branch reads branch.opens
  | branchAlone position opened closed test _ readsTest readsBody =>
    exact reads_branchAlone position opened closed readsTest test.length_pos readsBody
  | branchElse position opened closed otherwise test _ _ readsTest readsBody readsOther =>
    exact reads_branchElse position opened closed otherwise readsTest test.length_pos readsBody
      readsOther
  | chained branch reads => exact reads_chained reads branch.opens
  | unchained block reads => exact reads_unchained reads block.opens

end Parser

end Scriptlet
