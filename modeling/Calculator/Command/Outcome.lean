import Calculator.Evaluation.Basic
import Calculator.Text.ControlSequence

/-!
# Outcomes of a command

A command ends with an exit code, with text for the two standard channels, and
perhaps with text for an output file.  An output file for which there is no
text is left alone.

The diagnostic of a failure repeats the expression, which is text from outside.
What it holds of control sequences for a terminal is not passed on.  The line
of the marks is not adjusted: it counts the characters of the whole expression.
-/

namespace Calculator

/-- What a command does. -/
structure Outcome where
  /-- The code it ends with, zero for success. -/
  exitCode : Nat
  /-- The text for standard output. -/
  stdout : Text
  /-- The text for standard error. -/
  stderr : Text
  /-- The text that the output file is to hold, if it is to be written. -/
  written : Option Text
  deriving DecidableEq

namespace Outcome

/-- Success, with text for standard output. -/
def printed (text : Text) : Outcome := ⟨0, text, [], none⟩

/-- Success, with text for the output file. -/
def stored (text : Text) : Outcome := ⟨0, [], [], some text⟩

/-- Failure, with the diagnostic of a fault, from which control sequences are left out. -/
def failed (fault : Fault) (expression : Text) : Outcome :=
  ⟨1, [], ControlSequence.strip (fault.diagnostic expression), none⟩

/-- The content of the output file afterwards, from its content before. -/
def fileAfter (outcome : Outcome) (before : Option Text) : Option Text :=
  outcome.written.or before

/-! ## Wrong command lines -/

/-- The exit code for a command line that is not understood. -/
def usageExitCode : Nat := 2

/-- What is said about a command line that is not understood. -/
def usageMessage : Text := "usage error".toList

/-! ## Results -/

/-- The line that shows a result. -/
def resultLine (value : Int) : Text := "Result = ".toList ++ Numeral.write value ++ ['\n']

end Outcome
end Calculator
