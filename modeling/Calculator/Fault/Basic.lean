import Calculator.Fault.Notice
import Calculator.Token.Basic

/-!
# Faults

The six ways in which a calculation is refused.  Two are faults of the text,
found by the lexer: a character that begins no token, and a string literal
without its closing quote.  Two are faults of the phrase: a token where another
was expected, and a token behind a complete expression.  The last two are a
divisor of zero, known by the division sign, and a parenthesis too many open at
one time.

A fault keeps what it is about, and `Fault.notice` words it.
-/

namespace Calculator

/-- Why a calculation has no answer. -/
inductive Fault where
  /-- A character that begins no token, as a text. -/
  | unrecognizedCharacter (location : Int) (text : Text)
  /-- A string literal, by the offset of its opening quote, that never ends. -/
  | unterminatedLiteral (location : Int)
  /-- A token where one of another kind, or of a certain text, was expected. -/
  | unexpectedToken (token : Token) (kind : Kind) (text : Option Text)
  /-- A token behind a complete expression. -/
  | trailingInput (token : Token)
  /-- A divisor of zero behind a division sign. -/
  | divisionByZero (slash : Token)
  /-- A token at which too many parentheses are open. -/
  | nestingTooDeep (token : Token)
  deriving DecidableEq

namespace Fault

/-! ## Wording -/

/-- What was expected, by its text or else by its kind. -/
def expectation (kind : Kind) : Option Text → Text
  | some text => Quoted.encode text
  | none => kind.name

/-- The wording of a division by zero. -/
def zeroDivision : Text := "division by zero".toList

/-- A fault in one line. -/
def summary : Fault → Text
  | unrecognizedCharacter _ text => "unrecognized character ".toList ++ Quoted.encode text
  | unterminatedLiteral _ => "unterminated string literal".toList
  | unexpectedToken token kind text =>
      "expected ".toList ++ expectation kind text ++ " but found ".toList ++ token.description
  | trailingInput token => "unexpected ".toList ++ token.description ++ " after expression".toList
  | divisionByZero _ => zeroDivision
  | nestingTooDeep _ => "expression nested too deeply".toList

/-! ## Place -/

/-- The offset of the first character concerned. -/
def location : Fault → Int
  | unrecognizedCharacter location _ | unterminatedLiteral location => location
  | unexpectedToken token .. | trailingInput token | divisionByZero token
  | nestingTooDeep token => token.location

/-- The number of characters concerned.  A fault of the phrase concerns its whole token, and
any other fault a single character. -/
def width : Fault → Int
  | unexpectedToken token .. | trailingInput token => token.length
  | _ => 1

/-! ## Presentation -/

/-- A fault as a notice. -/
def notice (fault : Fault) : Notice := ⟨fault.location, fault.width, fault.summary⟩

/-- A fault below the expression that has it. -/
def diagnostic (fault : Fault) (expression : Text) : Text := fault.notice.diagnostic expression

/-- Whether a fault is one of arithmetic, not of the text. -/
def isArithmetic : Fault → Bool
  | divisionByZero _ => true
  | _ => false

end Fault
end Calculator
