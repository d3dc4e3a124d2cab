import Calculator.Evaluation.Machine

/-!
# Evaluation

The value of an expression, of a phrase at the current token of a reader, and
of all that a reader has left.  Each leaves the reader behind the phrase, or
where its fault was found.

At most `openLimit` parentheses may be open at one time.  The functions whose
names end in `Within` take that limit as an argument, and have no limit where
it is `none`.

A limit stands for the stack that a calculation has, which need not be the same
everywhere.  It is met between two readings.  A stack can be used up within one,
and what is left then is another matter (`Reader.Yields`).
-/

namespace Calculator

/-- The number of parentheses that may be open at one time where no other limit is given. -/
def openLimit : Nat := 500

namespace Reader

/-- Calculates the longest phrase at the current token. -/
def phraseWithin (limit : Option Nat) (phrase : Phrase) (reader : Reader) :
    Except Fault Int × Reader :=
  (State.start phrase reader).run limit

/-- Calculates the expression at the current token, which has to reach to the end. -/
def wholeWithin (limit : Option Nat) (reader : Reader) : Except Fault Int × Reader :=
  match reader.phraseWithin limit .expression with
  | (.ok value, reader) =>
      if reader.token.kind = .endOfText then (.ok value, reader)
      else (.error (.trailingInput reader.token), reader)
  | (.error fault, reader) => (.error fault, reader)

/-- Calculates the longest phrase at the current token, within the usual limit. -/
def phrase (phrase : Phrase) (reader : Reader) : Except Fault Int × Reader :=
  reader.phraseWithin (some openLimit) phrase

/-- Calculates all that is left, within the usual limit. -/
def whole (reader : Reader) : Except Fault Int × Reader := reader.wholeWithin (some openLimit)

end Reader

/-- The value of an expression with a limit on the parentheses open at one time. -/
def evaluateWithin (limit : Option Nat) (expression : Text) : Except Fault Int :=
  match Reader.ofText expression with
  | .ok reader => (reader.wholeWithin limit).1
  | .error fault => .error fault

/-- The value of an expression. -/
def evaluate (expression : Text) : Except Fault Int := evaluateWithin (some openLimit) expression

end Calculator
