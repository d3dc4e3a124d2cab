import Calculator.Number.Numeral
import Calculator.Text.Quoted
import Calculator.Token.Kind

/-!
# Tokens

A token has a kind, a text and a span: the offset of its first character and
the number of characters it covers.  The text of a string literal is what
stands between its quotes, so the span is two longer.  The text of any other
token that the lexer makes is its span.

Both numbers are integers.  A token built by hand may stand anywhere, and the
length of a token cut out of a text by two offsets is their difference, also
where they are in the wrong order.
-/

namespace Calculator

/-- A piece of a text. -/
structure Token where
  /-- What the token is. -/
  kind : Kind
  /-- Its text, without the quotes of a string literal. -/
  text : Text
  /-- The offset of its first character. -/
  location : Int
  /-- The number of characters it covers. -/
  length : Int
  deriving DecidableEq

namespace Token

/-! ## Making tokens -/

/-- The token that covers a text that begins at an offset. -/
def lexeme (kind : Kind) (text : Text) (location : Nat) : Token :=
  ⟨kind, text, location, text.length⟩

/-- The token between two offsets of a text.  Its text stops at the end. -/
def ofSpan (kind : Kind) (text : Text) (start stop : Nat) : Token :=
  ⟨kind, (text.take stop).drop start, start, (stop : Int) - start⟩

/-- The token at the end of a text. -/
def endOfText (location : Int) : Token := ⟨.endOfText, [], location, 0⟩

/-! ## Telling tokens apart -/

/-- Whether a token has a kind and a text. -/
def is (token : Token) (kind : Kind) (text : Text) : Bool :=
  token.kind == kind && token.text == text

/-- Whether a token is a certain punctuator. -/
def isPunctuator (token : Token) (text : Text) : Bool := token.is .punctuator text

/-- Whether a token has a kind and, where one is asked for, a text. -/
def fits (token : Token) (kind : Kind) (text : Option Text) : Bool :=
  token.kind == kind && text.all (token.text == ·)

theorem is_iff {token : Token} {kind : Kind} {text : Text} :
    token.is kind text = true ↔ token.kind = kind ∧ token.text = text := by
  simp [is]

theorem fits_some (token : Token) (kind : Kind) (text : Text) :
    token.fits kind (some text) = token.is kind text := by
  simp [fits, is]

theorem fits_iff {token : Token} {kind : Kind} {text : Option Text} :
    token.fits kind text = true ↔ token.kind = kind ∧ ∀ t, text = some t → token.text = t := by
  cases text <;> simp [fits]

/-! ## Reading and writing tokens -/

/-- The value of a token whose text is a numeral. -/
def value (token : Token) : Nat := Numeral.read token.text

/-- A token as a message names it. -/
def description (token : Token) : Text :=
  if token.kind = .endOfText then "end of input".toList
  else token.kind.name ++ ' ' :: Quoted.encode token.text

/-- A token as a listing shows it: kind, text and offset. -/
def line (token : Token) : Text :=
  token.kind.name ++ ' ' :: Quoted.encode token.text ++ ' ' :: Numeral.write token.location

end Token
end Calculator
