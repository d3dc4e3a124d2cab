import Calculator.Token.Lexer

/-!
# Readers

A reader knows one token ahead of what has been accepted, the current token.
Accepting it reads the token behind it, which becomes the current one.

There are two ways to fail.  If the current token is not the expected one, the
reader stays as it is.  If the token behind it cannot be read, the lexer has
moved on and the current token has not changed.

`Reader.advance_weight_lt` bounds what can follow: accepting a token other than
the end uses up weight.
-/

namespace Calculator

/-- The current token, and the lexer behind it. -/
structure Reader where
  /-- The token that decides how to go on. -/
  token : Token
  /-- The lexer, which stands behind it. -/
  lexer : Lexer

namespace Reader

/-- A reader at the first token of a text. -/
def ofText (text : Text) : Except Fault Reader :=
  match (Lexer.ofText text).next with
  | (.ok token, lexer) => .ok ⟨token, lexer⟩
  | (.error fault, _) => .error fault

/-- Gives the current token and makes the one behind it the current one. -/
def advance (reader : Reader) : Except Fault Token × Reader :=
  match reader.lexer.next with
  | (.ok token, lexer) => (.ok reader.token, ⟨token, lexer⟩)
  | (.error fault, lexer) => (.error fault, ⟨reader.token, lexer⟩)

/-- Gives the current token if it has a kind and, where one is asked for, a text. -/
def accept (reader : Reader) (kind : Kind) (text : Option Text) : Except Fault Token × Reader :=
  if reader.token.fits kind text then reader.advance
  else (.error (.unexpectedToken reader.token kind text), reader)

/-! ## Progress -/

/-- The tokens that a reader can accept before it is at the end, at most. -/
def weight (reader : Reader) : Nat :=
  reader.lexer.rest.length + if reader.token.kind = .endOfText then 0 else 1

theorem advance_weight_lt {reader : Reader} {token : Token}
    (hk : reader.token.kind ≠ .endOfText) (h : reader.advance.1 = .ok token) :
    reader.advance.2.weight < reader.weight := by
  cases hr : (lexeme reader.lexer.position reader.lexer.rest).outcome with
  | error fault => simp [advance, Lexer.next, hr] at h
  | ok next =>
      simp only [advance, Lexer.next, hr, weight, hk, if_false]
      by_cases he : next.kind = .endOfText
      · have hend : (lexeme reader.lexer.position reader.lexer.rest).atEnd = true := by
          simp [Reading.atEnd, hr, he]
        simp [lexeme_rest_eq_nil hend, he]
      · have hend : (lexeme reader.lexer.position reader.lexer.rest).atEnd = false := by
          simp [Reading.atEnd, hr, he]
        have := lexeme_rest_lt hend
        simp only [he, if_false]
        omega

theorem accept_weight_lt {reader : Reader} {kind : Kind} {text : Option Text} {token : Token}
    (hk : kind ≠ .endOfText) (h : (reader.accept kind text).1 = .ok token) :
    (reader.accept kind text).2.weight < reader.weight := by
  by_cases hf : reader.token.fits kind text = true
  · rw [accept, if_pos hf] at h ⊢
    exact advance_weight_lt ((Token.fits_iff.1 hf).1 ▸ hk) h
  · simp [accept, hf] at h

end Reader
end Calculator
