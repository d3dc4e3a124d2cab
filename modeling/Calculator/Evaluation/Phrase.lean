import Calculator.Token.Basic

/-!
# Operators and phrases

Calculations are built from phrases of three sorts.

* An expression is terms joined by `+` and `-`.
* A term is factors joined by `*` and `/`.
* A factor is a numeral, or an expression in parentheses.

A phrase goes on behind one of its operands as long as it is joined by the
operator that follows (`Phrase.joins`).
-/

namespace Calculator

/-! ## Operators -/

/-- The sign between two operands. -/
inductive Operator where
  | add
  | sub
  | mul
  | div
  deriving DecidableEq

namespace Operator

/-- The text of an operator. -/
def text : Operator → Text
  | add => ['+']
  | sub => ['-']
  | mul => ['*']
  | div => ['/']

/-- The operator of a given text. -/
def ofText? : Text → Option Operator
  | ['+'] => some add
  | ['-'] => some sub
  | ['*'] => some mul
  | ['/'] => some div
  | _ => none

@[simp] theorem ofText?_text (operator : Operator) : ofText? operator.text = some operator := by
  cases operator <;> rfl

theorem text_of_ofText? {text : Text} {operator : Operator}
    (h : ofText? text = some operator) : text = operator.text := by
  unfold ofText? at h
  split at h <;> cases h <;> rfl

/-- The operator that a token is, if it is one. -/
def ofToken? (token : Token) : Option Operator :=
  if token.kind = .punctuator then ofText? token.text else none

theorem ofToken?_eq_some_iff {token : Token} {operator : Operator} :
    ofToken? token = some operator ↔ token.isPunctuator operator.text = true := by
  rw [Token.isPunctuator, Token.is_iff, ofToken?]
  split
  · rename_i hk
    refine ⟨fun h => ⟨hk, text_of_ofText? h⟩, fun h => ?_⟩
    rw [h.2, ofText?_text]
  · rename_i hk
    exact ⟨nofun, fun h => absurd h.1 hk⟩

end Operator

/-! ## Phrases -/

/-- The sorts of phrase. -/
inductive Phrase where
  | expression
  | term
  | factor
  deriving DecidableEq

/-- Whether a phrase goes on behind one of its operands with an operator. -/
def Phrase.joins : Phrase → Operator → Bool
  | expression, _ => true
  | term, .mul | term, .div => true
  | term, _ => false
  | factor, _ => false

end Calculator
