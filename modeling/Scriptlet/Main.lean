/-
This file is the program: it reads the file that the arguments name, leaves the
work to the report, and writes it out.
-/

import Scriptlet.CommandLine.Report

namespace Scriptlet.CommandLine

/-- The bytes of a file, if it can be opened. -/
def readContents (path : String) : IO (Option ByteArray) := do
  try
    return some (← IO.FS.readBinFile path)
  catch _ =>
    return none

/-- More rounds than any run makes. -/
def ampleBudget : Nat := 1000000000000000000

/-- What is said about arguments that are not well formed. -/
def usage : String :=
  "Expected one path, or one program text with --eval, and options: --eval, --entry NAME, " ++
    "--max-depth COUNT, --dump-tokens, --dump-ast, --print-result, --verbose."

/-- Does what the options ask for and writes the report. -/
def invoke (options : Options) : IO UInt8 := do
  let file ← if options.inline then pure none else readContents options.contents
  let report := report options ampleBudget file
  let output ← IO.getStdout
  output.write report.output
  output.flush
  IO.eprint report.errors
  return report.exitCode

end Scriptlet.CommandLine

open Scriptlet.CommandLine in
/-- Runs the program with its arguments. -/
def main (arguments : List String) : IO UInt32 := do
  match Options.ofArguments? arguments with
  | some options => return (← invoke options).toUInt32
  | none =>
    IO.eprintln usage
    return usageExitCode.toUInt32
