/-
This file reads command line arguments. There is one argument besides the
options: the path of a program, or its text. Options may stand before or behind
it. Long options are written with two dashes and may carry their value behind an
equals sign; short ones can be written together behind one dash; two dashes alone
end the options. Every option but the verbose one may be given once.
-/

namespace Scriptlet.CommandLine

/-- Options without a value. -/
inductive Flag where
  | eval
  | dumpTokens
  | dumpTree
  | printResult
  | verbose
deriving DecidableEq

/-- Options with a value. -/
inductive Setting where
  | entry
  | maxDepth
deriving DecidableEq

/-- What the arguments say so far. -/
structure Draft where
  flags : List Flag := []
  verbosity : Nat := 0
  entry : Option String := none
  maxDepth : Option Nat := none
  contents : Option String := none

/-- What the arguments say. -/
structure Options where
  inline : Bool
  dumpTokens : Bool
  dumpTree : Bool
  printResult : Bool
  verbosity : Nat
  entry : String
  maxDepth : Nat
  contents : String

/-- The procedure that runs when none is named. -/
def defaultEntry : String := "main"

/-- The limit on nested calls when none is given. -/
def defaultMaxDepth : Nat := 10000

/-! ### Names -/

/-- The flag with a long name. -/
def Flag.ofName? : String → Option Flag
  | "eval" => some .eval
  | "dump-tokens" => some .dumpTokens
  | "dump-ast" => some .dumpTree
  | "print-result" => some .printResult
  | "verbose" => some .verbose
  | _ => none

/-- The flag with a letter. -/
def Flag.ofLetter? : Char → Option Flag
  | 'e' => some .eval
  | 'p' => some .printResult
  | 'v' => some .verbose
  | _ => none

/-- The setting with a name. -/
def Setting.ofName? : String → Option Setting
  | "entry" => some .entry
  | "max-depth" => some .maxDepth
  | _ => none

/-! ### Steps -/

/-- The number a text stands for: decimal digits, perhaps behind a plus sign, that fit
64 bits. -/
def count? (text : List Char) : Option Nat :=
  let digits :=
    match text with
    | '+' :: digits => digits
    | digits => digits
  if digits.isEmpty || !digits.all Char.isDigit then none
  else
    let value := digits.foldl (fun value digit => 10 * value + (digit.toNat - '0'.toNat)) 0
    if value < 18446744073709551616 then some value else none

namespace Draft

/-- Raises a flag. -/
def raise? (draft : Draft) (flag : Flag) : Option Draft :=
  match flag with
  | .verbose => some { draft with verbosity := draft.verbosity + 1 }
  | _ => if flag ∈ draft.flags then none else some { draft with flags := flag :: draft.flags }

/-- Gives a setting its value. -/
def set? (draft : Draft) (setting : Setting) (value : String) : Option Draft :=
  match setting with
  | .entry =>
    match draft.entry with
    | none => some { draft with entry := some value }
    | some _ => none
  | .maxDepth =>
    match draft.maxDepth, count? value.toList with
    | none, some limit => some { draft with maxDepth := some limit }
    | _, _ => none

/-- Takes the argument that is no option. -/
def place? (draft : Draft) (contents : String) : Option Draft :=
  match draft.contents with
  | none => some { draft with contents := some contents }
  | some _ => none

/-- The finished options. -/
def finish? (draft : Draft) : Option Options :=
  draft.contents.map fun contents =>
    { inline := decide (Flag.eval ∈ draft.flags)
      dumpTokens := decide (Flag.dumpTokens ∈ draft.flags)
      dumpTree := decide (Flag.dumpTree ∈ draft.flags)
      printResult := decide (Flag.printResult ∈ draft.flags)
      verbosity := draft.verbosity
      entry := draft.entry.getD defaultEntry
      maxDepth := draft.maxDepth.getD defaultMaxDepth
      contents }

end Draft

/-! ### Arguments -/

/-- The forms an argument can have. A long option may have a value joined to it. -/
inductive Argument where
  | plain (text : String)
  | endOfOptions
  | long (name : String) (value : Option String)
  | short (letters : List Char)

/-- The form of an argument. A single dash is no option. -/
def Argument.ofText (text : String) : Argument :=
  match text.toList with
  | ['-', '-'] => .endOfOptions
  | '-' :: '-' :: option =>
    let name := String.ofList (option.takeWhile (· != '='))
    match option.dropWhile (· != '=') with
    | _ :: value => .long name (some (String.ofList value))
    | [] => .long name none
  | '-' :: letter :: letters => .short (letter :: letters)
  | _ => .plain text

/-- Reads arguments one after the other. What follows a setting without a joined value is its
value, and must not look like an option. -/
def readArguments (draft : Draft) : List String → Option Draft
  | [] => some draft
  | argument :: rest =>
    match Argument.ofText argument with
    | .plain contents => do readArguments (← draft.place? contents) rest
    | .endOfOptions => rest.foldlM Draft.place? draft
    | .short letters => do
      let flags ← letters.mapM Flag.ofLetter?
      readArguments (← flags.foldlM Draft.raise? draft) rest
    | .long name joined =>
      match Flag.ofName? name, joined with
      | some flag, none => do readArguments (← draft.raise? flag) rest
      | some _, some _ => none
      | none, _ =>
        match Setting.ofName? name with
        | none => none
        | some setting =>
          match joined with
          | some value => do readArguments (← draft.set? setting value) rest
          | none =>
            match rest with
            | [] => none
            | next :: others =>
              match Argument.ofText next with
              | .plain value => do readArguments (← draft.set? setting value) others
              | _ => none

/-- The options that a list of arguments stands for, if it is well formed. -/
def Options.ofArguments? (arguments : List String) : Option Options := do
  (← readArguments {} arguments).finish?

end Scriptlet.CommandLine
