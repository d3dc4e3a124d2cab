import Calculator.Text.Basic

/-!
# Kinds of token

The six kinds of token, with the name each has in messages and the number that
orders them.  Calculations are written in punctuators and numerals.  No rule of
the lexer makes a keyword or an identifier.
-/

namespace Calculator

/-- What a token is. -/
inductive Kind where
  | keyword
  | identifier
  | punctuator
  | stringLiteral
  | numeric
  /-- The end of the text, which is a token of its own. -/
  | endOfText
  deriving DecidableEq

namespace Kind

/-- The name of a kind in messages and listings. -/
def name : Kind → Text
  | keyword => "Keyword".toList
  | identifier => "Identifier".toList
  | punctuator => "Punctuator".toList
  | stringLiteral => "StringLiteral".toList
  | numeric => "Numeric".toList
  | endOfText => "EOF".toList

/-- The place of a kind among all of them, from one. -/
def number : Kind → Nat
  | keyword => 1
  | identifier => 2
  | punctuator => 3
  | stringLiteral => 4
  | numeric => 5
  | endOfText => 6

/-- All kinds by number. -/
def all : List Kind := [keyword, identifier, punctuator, stringLiteral, numeric, endOfText]

/-- The kind of a given name. -/
def ofName? (name : Text) : Option Kind := all.find? fun kind => kind.name == name

theorem ofName?_name (kind : Kind) : ofName? kind.name = some kind := by
  cases kind <;> decide

/-- Names tell kinds apart. -/
theorem name_injective : Function.Injective name := fun a b h => by
  simpa [ofName?_name] using congrArg ofName? h

end Kind
end Calculator
