import Calculator.Command.Argument
import Calculator.Command.Document

/-!
# The command line

Two commands.

* `document [-o FILE] [FILE]` calculates a document.  A dash, or no name, stands
  for standard input and standard output.
* `argument [--tokens] EXPRESSION` calculates its argument, or lists its tokens.

With `--help` each of them tells how it is called.

Only this module reads and writes.  What is read is decided by the names alone,
and what is written by `Document.run` and `Argument.run`.
-/

namespace Calculator

/-- Writes what an outcome asks for, and gives its exit code. -/
def perform (outcome : Option Outcome) (file : Option Text) : IO UInt32 := do
  match outcome with
  | none =>
      (← IO.getStderr).putStrLn (String.ofList Outcome.usageMessage)
      return Outcome.usageExitCode.toUInt32
  | some outcome =>
      (← IO.getStdout).putStr (String.ofList outcome.stdout)
      (← IO.getStderr).putStr (String.ofList outcome.stderr)
      match outcome.written, file with
      | some text, some name => IO.FS.writeFile (String.ofList name) (String.ofList text)
      | _, _ => pure ()
      return outcome.exitCode.toUInt32

/-- Reads the document of a given name. -/
def readSource (name : Option Text) : IO Document.Source := do
  match name with
  | none => return .standardInput (← (← IO.getStdin).readToEnd).toList
  | some name =>
      if name = Document.dashName then
        return .dash (← (← IO.getStdin).readToEnd).toList
      else
        try
          return .file (← IO.FS.readFile (String.ofList name)).toList
        catch _ => return .missing

/-- Calculates the document that a command line names. -/
def calculateDocument (arguments : List Text) : IO UInt32 := do
  match Document.Arguments.ofList arguments with
  | none => perform none none
  | some arguments =>
      match arguments.order? with
      | none => perform none none
      | some .help => perform (some (.printed Document.helpPage)) none
      | some (.calculate input) =>
          let source ← readSource input
          perform (Document.run source arguments.target) arguments.output

/-- Runs one of the two commands. -/
def command : List Text → IO UInt32
  | [] => perform none none
  | name :: arguments =>
      if name = "document".toList then calculateDocument arguments
      else if name = "argument".toList then perform (Argument.run arguments) none
      else perform none none

end Calculator

def main (arguments : List String) : IO UInt32 :=
  Calculator.command (arguments.map String.toList)
