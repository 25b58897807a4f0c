/-
This file says what an invocation does: it lists the tokens of a program, shows
its tree, or runs it. Faults go to the error stream and make the invocation
fail; what was printed before stays printed.
-/

import Scriptlet.CommandLine.Options
import Scriptlet.Interpreter
import Scriptlet.Parser.Program
import Scriptlet.Tree.Outline

namespace Scriptlet.CommandLine

/-- What an invocation leaves behind. -/
structure Report where
  succeeded : Bool
  output : ByteArray
  errors : String

namespace Report

/-- The report of an invocation that went well. -/
def success (output : ByteArray) : Report :=
  { succeeded := true, output, errors := "" }

/-- The report of an invocation that failed with a message. -/
def failure (output : ByteArray) (message : String) : Report :=
  { succeeded := false, output, errors := message ++ "\n" }

/-- The report's exit code. -/
def exitCode (report : Report) : UInt8 :=
  if report.succeeded then 0 else 1

end Report

/-- The exit code of an invocation whose arguments are not well formed. -/
def usageExitCode : UInt8 := 2

/-- The line of a token listing. -/
def tokenLine (placed : Placed) : String :=
  placed.position.text ++ "\t" ++ placed.token.description ++ "\n"

/-- Lists the tokens of a text. -/
def listTokens (source : String) : Report :=
  match Token.scan source with
  | .ok tokens => .success (String.join (tokens.map tokenLine)).toUTF8
  | .error error => .failure .empty error.display

/-- The message about a program that cannot be read. -/
def unreadable (path : String) : String :=
  "Failed to read the input file '" ++ path ++ "'. Perhaps this file does not exist?"

/-- Runs a program, and shows its result if asked to and there is one. -/
def runProgram (options : Options) (budget : Nat) (program : Program) : Report :=
  let interpreter := Interpreter.new ⟨options.entry, options.maxDepth⟩ {}
  let run := interpreter.run budget program
  let output := run.interpreter.machine.sink.written
  match run.outcome with
  | .ok value =>
    if options.printResult && !value.isVoid then
      .success (output ++ (value.display ++ "\n").toUTF8)
    else .success output
  | .error (.fault error) => .failure output error.display
  | .error .exhausted => .failure output "Out of budget."

/-- Does what the options ask for with the text of a program. -/
def process (options : Options) (budget : Nat) (source : String) : Report :=
  if options.dumpTokens then listTokens source
  else
    match Program.ofText source with
    | .error error => .failure .empty error.display
    | .ok program =>
      if options.dumpTree then .success (program.outline.text ++ "\n").toUTF8
      else runProgram options budget program

/-- Does what the options ask for. A file that has no text, because it cannot be opened or is not
valid UTF-8, is reported. -/
def report (options : Options) (budget : Nat) (file : Option ByteArray) : Report :=
  if options.inline then process options budget options.contents
  else
    match file.bind String.fromUTF8? with
    | some source => process options budget source
    | none => .failure .empty (unreadable options.contents)

end Scriptlet.CommandLine
