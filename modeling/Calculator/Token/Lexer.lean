import Calculator.Token.Lexeme

/-!
# Lexers

A lexer reads a text from left to right, one token at a time.  Its state is the
offset it has reached, the text from there on, and whether it has found the
end.  Nothing it has read before has any influence.

A fault does not stop a lexer.  The next token is read from where the fault
left it, and at the end of the text the token there is found again and again.
Going through the tokens in order is different: it stops behind the first token
at the end (`Lexer.step`), and collecting them stops at the first fault
(`Lexer.drain`).
-/

namespace Calculator

/-- A place in a text from which to read tokens. -/
structure Lexer where
  /-- The offset reached. -/
  position : Nat
  /-- The text from there on. -/
  rest : Text
  /-- Whether the end of the text has been found. -/
  finished : Bool

namespace Lexer

/-- A lexer at the start of a text. -/
def ofText (text : Text) : Lexer := ⟨0, text, false⟩

/-! ## One token -/

/-- Reads the next token. -/
def next (lexer : Lexer) : Except Fault Token × Lexer :=
  let reading := lexeme lexer.position lexer.rest
  (reading.outcome, ⟨reading.position, reading.rest, lexer.finished || reading.atEnd⟩)

/-- Reads the next token, unless the end has been found before. -/
def step (lexer : Lexer) : Option (Except Fault Token) × Lexer :=
  if lexer.finished then (none, lexer) else (some lexer.next.1, lexer.next.2)

/-! ## All tokens -/

/-- The steps that a lexer can make before it is finished, at most. -/
def weight (lexer : Lexer) : Nat := lexer.rest.length + if lexer.finished then 0 else 1

theorem next_weight_lt {lexer : Lexer} (h : lexer.finished = false) :
    lexer.next.2.weight < lexer.weight := by
  cases he : (lexeme lexer.position lexer.rest).atEnd with
  | true => simp [next, weight, h, he, lexeme_rest_eq_nil he]
  | false =>
      have := lexeme_rest_lt he
      simp only [next, weight, h, he, Bool.or_self, Bool.false_eq_true, ite_false]
      omega

/-- Reads all tokens up to the end, or up to the first fault, which is then the answer. -/
def drain (lexer : Lexer) : Except Fault (List Token) × Lexer :=
  if _h : lexer.finished then (.ok [], lexer)
  else
    match lexer.next.1 with
    | .error fault => (.error fault, lexer.next.2)
    | .ok token =>
        let (tokens, last) := drain lexer.next.2
        (tokens.map (token :: ·), last)
termination_by lexer.weight
decreasing_by exact next_weight_lt (by simpa using _h)

end Lexer

/-- The tokens of a text, the one at its end included. -/
def tokens (text : Text) : Except Fault (List Token) := (Lexer.ofText text).drain.1

end Calculator
