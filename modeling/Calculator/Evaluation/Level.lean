import Calculator.Evaluation.Phrase
import Calculator.Fault.Basic
import Calculator.Number.Quotient

/-!
# Levels

What stands between two parentheses, or outside all of them, is one level.  It
is calculated from left to right with two numbers: the sum of the terms behind
which a sign already stands, and the product of the factors of the term in
progress.  No tree of the expression is kept.

A level knows how the next operand will join: by multiplication, or by division
at a division sign that it keeps in case the divisor is zero.
-/

namespace Calculator

/-- The calculation between two parentheses, in progress. -/
structure Level where
  /-- The phrase that the level is to hold. -/
  phrase : Phrase
  /-- The sum of the terms that are complete. -/
  total : Int
  /-- Whether the term in progress is subtracted from it. -/
  negative : Bool
  /-- The product of the factors, so far, of the term in progress. -/
  product : Int
  /-- The division sign before the next operand, or nothing where it multiplies. -/
  slash : Option Token

namespace Level

/-- A level without any operand. -/
def start (phrase : Phrase) : Level := ⟨phrase, 0, false, 1, none⟩

/-- The value of a level that ends here. -/
def value (level : Level) : Int :=
  if level.negative then level.total - level.product else level.total + level.product

/-- A level behind one more operand. -/
def operand (level : Level) (value : Int) : Except Fault Level :=
  match level.slash with
  | none => .ok { level with product := level.product * value }
  | some slash =>
      match quotient? level.product value with
      | none => .error (.divisionByZero slash)
      | some product => .ok { level with product, slash := none }

/-- A level behind an operator, which `token` is. -/
def operator (level : Level) (token : Token) : Operator → Level
  | .add => ⟨level.phrase, level.value, false, 1, none⟩
  | .sub => ⟨level.phrase, level.value, true, 1, none⟩
  | .mul => { level with slash := none }
  | .div => { level with slash := some token }

end Level
end Calculator
