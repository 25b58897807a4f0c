/-
This file proves that reading always comes to an end, on every list of tokens: an end mark
may be missing from it, stand in its middle or stand in it twice. Readers leave an end of
the list, and where they come to a value, they have taken tokens in front of the first end
mark only, and at least one if the phrase cannot be empty.

That a reader halts is said without its bound: it comes to the same with every bound that
fits the list. For phrases this is known, as one token of look-ahead settles them. A list
of items may have items of any kind. All that is asked of an item is that its reader halts
and spares the end mark; it need not take anything, since the mark behind it is taken.
-/

import Scriptlet.Proofs.Grammar.Acceptance
import Scriptlet.Proofs.Lookahead.Decided

namespace Scriptlet.Parser

open Grammar

variable {α β : Type} {least : Nat} {tokens : List Placed}

/-! ### What a success takes -/

/-- Where the reader comes to a value, it has taken no end mark, and at least so many tokens. -/
def TakesAtLeast (least : Nat) (reader : Parser α) : Prop :=
  ∀ {tokens value rest}, reader tokens = .ok value rest →
    ∃ taken, tokens = taken ++ rest ∧ Endless taken ∧ least ≤ taken.length

theorem Takes.takesAtLeast {reader : Parser α} (takes : Takes reader) : TakesAtLeast 1 reader := by
  intro tokens value rest came
  obtain ⟨taken, start, endless, filled⟩ := takes _ _ _ came
  exact ⟨taken, start, endless, List.length_pos_iff.mpr filled⟩

/-- A goal that comes to a tree has taken no end mark, and at least one token if it cannot be
empty. -/
theorem goal_takesAtLeast (goal : Goal) (ready : ∀ tokens, goal.Ready tokens) (bound : Nat) :
    TakesAtLeast goal.fills.toNat (goal.reader bound) := by
  intro tokens tree rest came
  obtain ⟨taken, start, passed, filled⟩ := (sound bound goal (ready tokens) came).passed
  refine ⟨taken, start, passed.1, ?_⟩
  cases fills : goal.fills with
  | true => exact List.length_pos_iff.mpr (filled fills)
  | false => exact Nat.zero_le _

theorem procedure_takesAtLeast (bound : Nat) (defined : List String) :
    TakesAtLeast 1 (procedure bound defined) := by
  intro tokens tree rest came
  rw [← run_procedure_done] at came
  obtain ⟨taken, start, derived, -⟩ := (sound bound).of_meets (procedure_meets defined tokens) came
  obtain ⟨position, more, opening⟩ := derived.starts
  refine ⟨taken, start, derived.endless, ?_⟩
  rw [opening]
  exact Nat.succ_pos _

theorem program_takesAtLeast (bound : Nat) : TakesAtLeast 0 (program bound) := by
  intro tokens tree rest came
  obtain ⟨procedures, last, read, came⟩ := EStateM.of_bind_ok came
  obtain ⟨-, unread⟩ := EStateM.of_pure_ok came
  subst unread
  exact goal_takesAtLeast (.procedures []) (fun _ => trivial) bound read

/-! ### Both at once -/

/-- Both readers come to the same on these tokens and leave the same end of them. If they come to
a value, they have taken no end mark, and at least so many tokens. -/
def Proceeds (least : Nat) (reader other : Parser α) (tokens : List Placed) : Prop :=
  ∃ taken rest ending, tokens = taken ++ rest ∧ reader tokens = leaving ending rest ∧
    other tokens = leaving ending rest ∧
    ∀ value, ending = .ok value → Endless taken ∧ least ≤ taken.length

theorem Settles.proceeds {reader other : Parser α} (settles : Settles reader other tokens)
    (advances : TakesAtLeast least reader) : Proceeds least reader other tokens := by
  obtain ⟨taken, rest, ending, rfl, came, same⟩ := settles
  refine ⟨taken, rest, ending, rfl, came, same rest rfl, ?_⟩
  rintro value rfl
  obtain ⟨others, start, endless, enough⟩ := advances came
  rw [List.append_cancel_right start]
  exact ⟨endless, enough⟩

namespace Proceeds

theorem pure (value : α) : Proceeds 0 (pure value) (pure value) tokens :=
  ⟨[], tokens, .ok value, rfl, rfl, rfl, fun _ _ => ⟨Endless.nil, Nat.le_refl 0⟩⟩

theorem of_fault {reader other : Parser α} (settles : Settles reader other tokens)
    (fails : ∀ {value rest}, reader tokens ≠ .ok value rest) :
    Proceeds least reader other tokens := by
  obtain ⟨taken, rest, ending, rfl, came, same⟩ := settles
  refine ⟨taken, rest, ending, rfl, came, same rest rfl, ?_⟩
  rintro value rfl
  exact absurd came fails

theorem fail (fault : ParseFault) (position : Position) :
    Proceeds least (fail fault position : Parser α) (Parser.fail fault position) tokens :=
  of_fault (.fail fault position) fun came => by cases came

theorem unexpected (found : Placed) (expected : Expected) :
    Proceeds least (unexpected found expected : Parser α) (Parser.unexpected found expected)
      tokens :=
  of_fault (.unexpected found expected) not_unexpected

/-- What is taken by both parts of a sequence adds up. -/
theorem bind {first second : Nat} {step other : Parser α} {next following : α → Parser β}
    (enough : least ≤ first + second) (proceeds : Proceeds first step other tokens)
    (further : ∀ value rest, rest.length + first ≤ tokens.length →
      Proceeds second (next value) (following value) rest) :
    Proceeds least (step >>= next) (other >>= following) tokens := by
  obtain ⟨taken, middle, ending, rfl, came, same, spared⟩ := proceeds
  cases ending with
  | error error =>
    exact ⟨taken, middle, .error error, rfl, EStateM.bind_of_error came,
      EStateM.bind_of_error same, fun _ stopped => by cases stopped⟩
  | ok value =>
    obtain ⟨endless, some⟩ := spared value rfl
    have shorter : middle.length + first ≤ (taken ++ middle).length := by
      rw [List.length_append]
      omega
    obtain ⟨more, rest, ending, rfl, cameNext, sameNext, sparedNext⟩ := further value middle shorter
    refine ⟨taken ++ more, rest, ending, (List.append_assoc _ _ _).symm, ?_, ?_, ?_⟩
    · rw [EStateM.bind_of_ok came, cameNext]
    · rw [EStateM.bind_of_ok same, sameNext]
    · intro result reached
      obtain ⟨others, someMore⟩ := sparedNext result reached
      refine ⟨endless.append others, ?_⟩
      rw [List.length_append]
      omega

/-- What the second part takes is enough. -/
theorem before {step other : Parser α} {next following : α → Parser β}
    (proceeds : Proceeds 0 step other tokens)
    (further : ∀ value rest, rest.length ≤ tokens.length →
      Proceeds least (next value) (following value) rest) :
    Proceeds least (step >>= next) (other >>= following) tokens :=
  bind (Nat.le_add_left _ _) proceeds further

/-- What the first part takes is enough. -/
theorem andThen {step other : Parser α} {next following : α → Parser β}
    (proceeds : Proceeds least step other tokens)
    (further : ∀ value rest, rest.length + least ≤ tokens.length →
      Proceeds 0 (next value) (following value) rest) :
    Proceeds least (step >>= next) (other >>= following) tokens :=
  bind (Nat.le_add_right _ _) proceeds further

theorem weaken {more : Nat} {reader other : Parser α} (proceeds : Proceeds more reader other tokens)
    (enough : least ≤ more) : Proceeds least reader other tokens := by
  obtain ⟨taken, rest, ending, start, came, same, spared⟩ := proceeds
  exact ⟨taken, rest, ending, start, came, same, fun value reached =>
    ⟨(spared value reached).1, Nat.le_trans enough (spared value reached).2⟩⟩

theorem peek {next following : Placed → Parser β}
    (proceeds : Proceeds least (next (front tokens)) (following (front tokens)) tokens) :
    Proceeds least (peek >>= next) (Parser.peek >>= following) tokens :=
  proceeds

theorem advance (expected : Expected) :
    Proceeds 1 (advance expected) (Parser.advance expected) tokens :=
  (Settles.advance expected).proceeds (takes_advance expected).takesAtLeast

/-! ### Lists -/

section

variable {item other : Parser α} {length : Nat}
  (each : ∀ {tokens}, tokens.length ≤ length → Proceeds 0 item other tokens)

include each

/-- A list of items is paid for by the marks behind them. -/
theorem itemsToClose {bound higher : Nat} (le : bound ≤ higher) (fits : tokens.length ≤ length)
    (pays : tokens.length < bound) :
    Proceeds 1 (itemsToClose item bound) (Parser.itemsToClose other higher) tokens := by
  induction bound generalizing tokens higher with
  | zero => exact absurd pays (Nat.not_lt_zero _)
  | succ bound inductionHypothesis =>
    obtain ⟨higher, rfl⟩ := Nat.exists_eq_add_one_of_ne_zero (show higher ≠ 0 by omega)
    rw [Parser.itemsToClose, Parser.itemsToClose]
    refine before (each fits) fun first middle shorter => ?_
    refine andThen (advance _) fun found rest shorterRest => ?_
    split
    · exact pure _
    · refine peek ?_
      split
      · exact fail _ _
      · have others : Proceeds 1 (Parser.itemsToClose item bound)
            (Parser.itemsToClose other higher) rest :=
          inductionHypothesis (by omega) (by omega) (by omega)
        exact (others.weaken (Nat.zero_le 1)).andThen fun _ _ _ => pure _
    · exact unexpected found _

theorem commaSeparated {bound higher : Nat} (le : bound ≤ higher) (fits : tokens.length ≤ length)
    (pays : tokens.length < bound) :
    Proceeds 1 (commaSeparated item bound) (Parser.commaSeparated other higher) tokens := by
  refine peek ?_
  split
  · rename_i closing
    have inside := Token.ne_end_of_symbol closing
    exact ⟨[front tokens], tokens.tail, .ok [], eq_cons_of_front rfl inside, rfl, rfl, fun _ _ =>
      ⟨Endless.nil.cons inside, Nat.le_refl 1⟩⟩
  · exact itemsToClose each le fits pays

end

end Proceeds

/-! ### Every bound -/

/-- Whatever the tokens, the reader comes to one value or fault with every bound that fits them, and
it leaves an end of them. If it comes to a value, the tokens it has taken stand in front of the
first end mark, and there are at least so many. -/
def Progresses (least : Nat) (reader : Nat → Parser α) : Prop :=
  ∀ tokens, ∃ taken rest ending, tokens = taken ++ rest ∧
    (∀ bound, boundFor tokens ≤ bound → reader bound tokens = leaving ending rest) ∧
    ∀ value, ending = .ok value →
      least ≤ taken.length ∧ Endless taken ∧ taken <+: beforeEnd tokens

/-- Tokens without an end mark at the start of a list stand in front of its first end mark. -/
theorem prefix_beforeEnd {taken : List Placed} (endless : Endless taken) (rest : List Placed) :
    taken <+: beforeEnd (taken ++ rest) := by
  induction taken with
  | nil => exact List.nil_prefix
  | cons first more inductionHypothesis =>
    rw [List.cons_append, beforeEnd_cons_inside (endless first List.mem_cons_self),
      List.cons_prefix_cons]
    exact ⟨rfl, inductionHypothesis fun placed member =>
      endless placed (List.mem_cons_of_mem first member)⟩

theorem Progresses.of_proceeds {reader : Nat → Parser α}
    (proceeds : ∀ {tokens bound}, boundFor tokens ≤ bound →
      Proceeds least (reader (boundFor tokens)) (reader bound) tokens) :
    Progresses least reader := by
  intro tokens
  obtain ⟨taken, rest, ending, rfl, came, -, spared⟩ :=
    proceeds (Nat.le_refl (boundFor tokens))
  refine ⟨taken, rest, ending, rfl, fun bound fits => ?_, fun value reached => ?_⟩
  · obtain ⟨others, left, result, -, first, second, -⟩ := proceeds fits
    rw [second, ← first, came]
  · obtain ⟨endless, enough⟩ := spared value reached
    exact ⟨enough, endless, prefix_beforeEnd endless rest⟩

theorem Fitting.progresses {reader : Nat → Parser α} (fitting : Fitting reader)
    (advances : ∀ bound, TakesAtLeast least (reader bound)) : Progresses least reader :=
  .of_proceeds fun fits => (fitting fits).proceeds (advances _)

/-- The reader halts on every list that a bound fits, so it halts on what is left of one. -/
theorem Progresses.proceeds {reader : Nat → Parser α} (progresses : Progresses least reader)
    {bound higher : Nat} (fits : boundFor tokens ≤ bound) (le : bound ≤ higher) :
    Proceeds least (reader bound) (reader higher) tokens := by
  obtain ⟨taken, rest, ending, start, came, spared⟩ := progresses tokens
  refine ⟨taken, rest, ending, start, came bound fits, came higher (Nat.le_trans fits le), ?_⟩
  intro value reached
  obtain ⟨enough, endless, -⟩ := spared value reached
  exact ⟨endless, enough⟩

theorem Progresses.commaSeparated {item : Nat → Parser α} (progresses : Progresses 0 item) :
    Progresses 1 fun bound => commaSeparated (item bound) bound := by
  refine .of_proceeds fun {tokens bound} fits => ?_
  have each : ∀ {others : List Placed}, others.length ≤ tokens.length →
      Proceeds 0 (item (boundFor tokens)) (item bound) others := by
    intro others shorter
    refine progresses.proceeds ?_ fits
    unfold boundFor
    omega
  refine Proceeds.commaSeparated each fits (Nat.le_refl _) ?_
  unfold boundFor
  omega

theorem identifier_progresses : Progresses 0 fun _ => identifier :=
  .of_proceeds fun _ =>
    (Settles.identifier.proceeds takes_identifier.takesAtLeast).weaken (Nat.zero_le 1)

theorem goal_progresses (goal : Goal) (ready : ∀ tokens, goal.Ready tokens) :
    Progresses goal.fills.toNat fun bound => goal.reader bound :=
  Fitting.progresses (goal_fitting goal ready) (goal_takesAtLeast goal ready)

/-- Reading makes progress on every list of tokens, whether a text has these tokens or not. Each
reader halts and leaves an end of the list. Where it comes to a value, it has taken tokens in front
of the first end mark only; it has taken at least one if it reads an expression, at whichever
level, a list with its closing parenthesis, a block, a statement or a procedure. -/
theorem readers_progress :
    Progresses 1 expression ∧ (∀ level, Progresses 1 fun bound => joined bound level) ∧
    (∀ level, Progresses 1 fun bound => operand bound level) ∧
    Progresses 1 unary ∧ Progresses 1 primary ∧
    (∀ target, Progresses 0 fun bound => trailing bound target) ∧
    (∀ {α : Type} (item : Nat → Parser α), Progresses 0 item →
      Progresses 1 fun bound => commaSeparated (item bound) bound) ∧
    Progresses 1 block ∧ Progresses 1 statement ∧
    (∀ defined, Progresses 1 fun bound => procedure bound defined) ∧ Progresses 0 program := by
  refine ⟨?expression, fun level => ?joined, fun level => ?operand, ?unary, ?primary,
    fun target => ?trailing, fun item progresses => progresses.commaSeparated, ?block, ?statement,
    fun defined => ?procedure, ?program⟩
  case expression => exact goal_progresses .expression fun _ => trivial
  case joined => exact goal_progresses (.joined level) fun _ => trivial
  case operand => exact goal_progresses (.operand level) fun _ => trivial
  case unary => exact goal_progresses .unary fun _ => trivial
  case primary => exact goal_progresses .primary fun _ => trivial
  case trailing => exact goal_progresses (.trailing target) fun _ => trivial
  case block => exact goal_progresses .block fun _ => trivial
  case statement => exact goal_progresses .statement fun _ => trivial
  case procedure =>
    have fitting : Fitting fun bound => procedure bound defined :=
      fun le => procedure_settles le defined (Nat.le_add_right _ _)
    exact fitting.progresses fun bound => procedure_takesAtLeast bound defined
  case program => exact program_fitting.progresses program_takesAtLeast

/-- A list of names that has its end mark in the middle. It is read up to this mark, with whichever
bound, although a name and a closing parenthesis stand behind it. -/
theorem readers_progress_names :
    let behind : List Placed := [⟨.identifier "y", ⟨1, 4⟩⟩, ⟨.symbol .closeParen, ⟨1, 5⟩⟩]
    let tokens : List Placed :=
      [⟨.identifier "x", ⟨1, 1⟩⟩, ⟨.symbol .comma, ⟨1, 2⟩⟩, ⟨.endOfInput, ⟨1, 3⟩⟩] ++ behind
    (Progresses 0 fun _ => identifier) ∧ ∀ bound, boundFor tokens ≤ bound →
      commaSeparated identifier bound tokens =
        leaving (.error ⟨.unexpectedEnd .identifier, ⟨1, 3⟩⟩) behind := by
  intro behind tokens
  refine ⟨identifier_progresses, fun bound fits => ?_⟩
  obtain ⟨-, -, -, -, -, -, lists, -⟩ := readers_progress
  obtain ⟨taken, rest, ending, -, came, -⟩ := lists _ identifier_progresses tokens
  have read : commaSeparated identifier (boundFor tokens) tokens =
      leaving (.error ⟨.unexpectedEnd .identifier, ⟨1, 3⟩⟩) behind := rfl
  exact (came bound fits).trans ((came _ (Nat.le_refl _)).symm.trans read)

end Scriptlet.Parser
