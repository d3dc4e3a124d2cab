import Calculator.Command.Outcome
import Calculator.Text.Lines

/-!
# Calculating a document

This command takes its expression from standard input or from a file, and gives
the result to standard output or to a file.  Line ends are unified, and those
at the end of the document do not belong to the expression.

The output file is written only with a result.  Whatever goes wrong, it keeps
its content.

What a calculation has of stack depends on the command that it is part of.  So
the limit on open parentheses is an argument of `calculateWithin` and
`runWithin`.
-/

namespace Calculator
namespace Document

/-! ## Command lines -/

/-- A command line, taken apart. -/
structure Arguments where
  /-- Whether to tell how the command is called. -/
  help : Bool
  /-- The names of documents, in order. -/
  inputs : List Text
  /-- The name of the output, if there is one. -/
  output : Option Text
  deriving DecidableEq

/-- The name that stands for standard input or standard output. -/
def dashName : Text := ['-']

/-- The output that an argument names in itself, as `--output=NAME` or `-oNAME`. -/
def attachedOutput? : Text → Option Text
  | '-' :: 'o' :: name => some name
  | argument =>
      if "--output=".toList.isPrefixOf argument then
        some (argument.drop "--output=".toList.length)
      else none

/-- Whether an argument cannot be the name of a document.  A dash alone can. -/
def isOption : Text → Bool
  | '-' :: _ :: _ => true
  | _ => false

/-- An output, unless one that stands behind it counts. -/
def Arguments.withOutput (name : Text) (arguments : Arguments) : Arguments :=
  { arguments with output := arguments.output.or (some name) }

/-- Takes a command line apart.  Of several outputs the last one counts, and behind `--` there are
no options. -/
def Arguments.ofList : List Text → Option Arguments
  | [] => some ⟨false, [], none⟩
  | argument :: rest =>
      if argument = "--".toList then some ⟨false, rest, none⟩
      else if argument = "--help".toList then
        (ofList rest).map fun a => { a with help := true }
      else if argument = "-o".toList ∨ argument = "--output".toList then
        match rest with
        | [] => none
        | name :: rest => (ofList rest).map (withOutput name)
      else match attachedOutput? argument with
        | some name => (ofList rest).map (withOutput name)
        | none =>
            if isOption argument then none
            else (ofList rest).map fun a => { a with inputs := argument :: a.inputs }

/-- How the command is called. -/
def helpPage : Text := "Usage: document [--help] [-o FILE] [FILE]\n".toList

/-- What a command line asks for. -/
inductive Order where
  /-- To tell how the command is called. -/
  | help
  /-- To calculate the document of a name, or standard input. -/
  | calculate (input : Option Text)

/-- What a command line asks for.  It names one document at most, unless it asks for help. -/
def Arguments.order? (arguments : Arguments) : Option Order :=
  if arguments.help then some .help
  else
    match arguments.inputs with
    | [] => some (.calculate none)
    | [name] => some (.calculate (some name))
    | _ => none

/-! ## Documents and results -/

/-- Where a document comes from, with its text. -/
inductive Source where
  /-- Standard input, because nothing is named. -/
  | standardInput (text : Text)
  /-- Standard input, named by a dash. -/
  | dash (text : Text)
  /-- A file. -/
  | file (text : Text)
  /-- A file that does not exist. -/
  | missing

/-- The text of a document, if there is one. -/
def Source.text? : Source → Option Text
  | standardInput text | dash text | file text => some text
  | missing => none

/-- Where the result goes. -/
inductive Target where
  /-- Standard output, because nothing is named. -/
  | standardOutput
  /-- Standard output, named by a dash. -/
  | dash
  /-- A file. -/
  | file

/-- The target that a command line names. -/
def Arguments.target (arguments : Arguments) : Target :=
  match arguments.output with
  | none => .standardOutput
  | some name => if name = dashName then .dash else .file

/-! ## Calculation -/

/-- The expression in a document. -/
def expression (text : Text) : Text := Lines.trim (Lines.unify text)

/-- The outcome for a result. -/
def deliver (value : Int) : Target → Outcome
  | .standardOutput | .dash => .printed (Outcome.resultLine value)
  | .file => .stored (Outcome.resultLine value)

/-- Calculates a text. -/
def calculateWithin (limit : Option Nat) (text : Text) (target : Target) : Outcome :=
  match evaluateWithin limit (expression text) with
  | .ok value => deliver value target
  | .error fault => .failed fault (expression text)

/-- Calculates a document.  There is no outcome where there is no document. -/
def runWithin (limit : Option Nat) (source : Source) (target : Target) : Option Outcome :=
  source.text?.map (calculateWithin limit · target)

/-- Calculates a document, within the usual limit. -/
def run (source : Source) (target : Target) : Option Outcome :=
  runWithin (some openLimit) source target

/-! ## Results and faults -/

theorem runWithin_of_text? {source : Source} {text : Text} (h : source.text? = some text)
    (limit : Option Nat) (target : Target) :
    runWithin limit source target = some (calculateWithin limit text target) := by
  rw [runWithin, h]
  rfl

theorem calculateWithin_of_ok {limit : Option Nat} {text : Text} {value : Int}
    (h : evaluateWithin limit (expression text) = .ok value) (target : Target) :
    calculateWithin limit text target = deliver value target := by
  rw [calculateWithin, h]

theorem calculateWithin_of_error {limit : Option Nat} {text : Text} {fault : Fault}
    (h : evaluateWithin limit (expression text) = .error fault) (target : Target) :
    calculateWithin limit text target = .failed fault (expression text) := by
  rw [calculateWithin, h]

end Document
end Calculator
