import Calculator.Command.Outcome

/-!
# Calculating an argument

This command takes its expression from the command line, as it stands, and
prints the result or, with the flag `--tokens`, a listing of the tokens.  With
the flag `--help` it prints how it is called, and does nothing else.

The flags may stand anywhere before `--`, and more than once.  They take no
value, so `--tokens=` with anything behind it makes the command line wrong, and
so does `--help=`.  Behind `--` everything is an expression, and so is any other
argument before it, also one that begins with a dash.  There has to be exactly
one expression, unless help is asked for.

What a calculation has of stack depends on the command that it is part of.  So
the limit on open parentheses is an argument of `calculateWithin` and
`runWithin`.
-/

namespace Calculator
namespace Argument

/-! ## Command lines -/

/-- A command line, taken apart. -/
structure Arguments where
  /-- Whether to tell how the command is called. -/
  help : Bool
  /-- Whether to list tokens. -/
  listing : Bool
  /-- The arguments that are not flags, in order. -/
  expressions : List Text
  deriving DecidableEq

/-- Whether an argument is a flag with a value. -/
def isValued (argument : Text) : Bool :=
  "--tokens=".toList.isPrefixOf argument || "--help=".toList.isPrefixOf argument

/-- Takes a command line apart, unless a flag has a value. -/
def Arguments.ofList : List Text → Option Arguments
  | [] => some ⟨false, false, []⟩
  | argument :: rest =>
      if argument = "--".toList then some ⟨false, false, rest⟩
      else if isValued argument then none
      else if argument = "--help".toList then
        (ofList rest).map fun a => { a with help := true }
      else if argument = "--tokens".toList then
        (ofList rest).map fun a => { a with listing := true }
      else (ofList rest).map fun a => { a with expressions := argument :: a.expressions }

/-- How the command is called. -/
def helpPage : Text := "Usage: argument [--help] [--tokens] EXPRESSION\n".toList

/-! ## Listing and calculation -/

/-- The listing of tokens, a line for each. -/
def listing (tokens : List Token) : Text := tokens.flatMap fun token => token.line ++ ['\n']

/-- Lists the tokens of an expression.  A fault leaves nothing to list. -/
def list (expression : Text) : Outcome :=
  match tokens expression with
  | .ok tokens => .printed (listing tokens)
  | .error fault => .failed fault expression

/-- Calculates an expression. -/
def calculateWithin (limit : Option Nat) (expression : Text) : Outcome :=
  match evaluateWithin limit expression with
  | .ok value => .printed (Outcome.resultLine value)
  | .error fault => .failed fault expression

/-- Does what a command line asks for.  There is no outcome for a wrong one. -/
def runWithin (limit : Option Nat) (arguments : List Text) : Option Outcome :=
  match Arguments.ofList arguments with
  | some ⟨true, _, _⟩ => some (.printed helpPage)
  | some ⟨false, true, [expression]⟩ => some (list expression)
  | some ⟨false, false, [expression]⟩ => some (calculateWithin limit expression)
  | _ => none

/-- Does what a command line asks for, within the usual limit. -/
def run (arguments : List Text) : Option Outcome := runWithin (some openLimit) arguments

end Argument
end Calculator
