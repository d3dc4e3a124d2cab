import Calculator.Fault.Basic

/-!
# Lexemes

Reading one token at the front of a text.  Spaces before it are skipped, and no
other blank is.  What follows decides by its first character.

* A quote begins a string literal, which ends at the next quote of the same
  sort.
* One of `+ - * / & | ( )` is a punctuator.  `&` and `|` are read in pairs where
  they stand in pairs.
* A decimal digit begins a numeral, which takes in every digit that follows.
* The end of the text is a token.
* Any other character is a fault.

A reading says where it stopped.  Behind a character that begins no token it
stands behind that character, and behind a literal that never ends it stands at
the end of the text.

`lexeme_rest_lt` is the progress of reading: unless it found the end, the text
that remains is shorter.
-/

namespace Calculator

/-- What was read at the front of a text, and where the reading stopped. -/
structure Reading where
  /-- The token, or why there is none. -/
  outcome : Except Fault Token
  /-- The offset behind the characters read. -/
  position : Nat
  /-- The text at that offset. -/
  rest : Text

namespace Lexeme

/-! ## Character classes -/

/-- Whether a character encloses string literals. -/
def isQuote (c : Char) : Bool := c == '\'' || c == '"'

/-- Whether a character is read together with another one of its sort. -/
def isPaired (c : Char) : Bool := c == '&' || c == '|'

/-- Whether a character begins a punctuator. -/
def isPunctuator (c : Char) : Bool :=
  c == '+' || c == '-' || c == '*' || c == '/' || c == '(' || c == ')' || isPaired c

/-! ## The three sorts of lexeme -/

/-- Reads a string literal behind its opening quote, which stands at `position`. -/
def literal (position : Nat) (quote : Char) (text : Text) : Reading :=
  let body := text.takeWhile (· != quote)
  match text.dropWhile (· != quote) with
  | [] => ⟨.error (.unterminatedLiteral position), position + 1 + body.length, []⟩
  | _ :: rest =>
      ⟨.ok ⟨.stringLiteral, body, position, body.length + 2⟩, position + (body.length + 2), rest⟩

/-- Reads a punctuator behind its first character, which stands at `position`. -/
def punctuator (position : Nat) (c : Char) (text : Text) : Reading :=
  if isPaired c ∧ text.head? = some c then
    ⟨.ok (.lexeme .punctuator [c, c] position), position + 2, text.tail⟩
  else ⟨.ok (.lexeme .punctuator [c] position), position + 1, text⟩

/-- Reads a numeral, whose first digit stands at `position`. -/
def numeral (position : Nat) (text : Text) : Reading :=
  let digits := text.takeWhile Char.isDigit
  ⟨.ok (.lexeme .numeric digits position), position + digits.length,
    text.dropWhile Char.isDigit⟩

end Lexeme

/-! ## Reading a token -/

/-- Reads one token at the front of a text that begins at offset `position`. -/
def lexeme (position : Nat) : Text → Reading
  | [] => ⟨.ok (.endOfText position), position, []⟩
  | c :: rest =>
      if c = ' ' then lexeme (position + 1) rest
      else if Lexeme.isQuote c then Lexeme.literal position c rest
      else if Lexeme.isPunctuator c then Lexeme.punctuator position c rest
      else if c.isDigit then Lexeme.numeral position (c :: rest)
      else ⟨.error (.unrecognizedCharacter position [c]), position + 1, rest⟩

/-! ## Progress -/

/-- Whether a reading found the end of the text. -/
def Reading.atEnd (reading : Reading) : Bool :=
  match reading.outcome with
  | .ok token => token.kind == .endOfText
  | .error _ => false

namespace Lexeme

theorem length_dropWhile_le (p : Char → Bool) (text : Text) :
    (text.dropWhile p).length ≤ text.length :=
  (List.dropWhile_sublist p).length_le

theorem literal_rest_le (position : Nat) (quote : Char) (text : Text) :
    (literal position quote text).rest.length ≤ text.length := by
  have := length_dropWhile_le (· != quote) text
  unfold literal
  split
  · simp
  · rename_i h
    rw [h] at this
    exact Nat.le_of_succ_le this

theorem punctuator_rest_le (position : Nat) (c : Char) (text : Text) :
    (punctuator position c text).rest.length ≤ text.length := by
  unfold punctuator
  split <;> simp

theorem numeral_rest_lt (position : Nat) {c : Char} (h : c.isDigit = true) (text : Text) :
    (numeral position (c :: text)).rest.length < (c :: text).length := by
  have := length_dropWhile_le Char.isDigit text
  simp only [numeral, List.dropWhile_cons_of_pos h, List.length_cons]
  omega

@[simp] theorem literal_atEnd (position : Nat) (quote : Char) (text : Text) :
    (literal position quote text).atEnd = false := by
  unfold literal
  split <;> rfl

@[simp] theorem punctuator_atEnd (position : Nat) (c : Char) (text : Text) :
    (punctuator position c text).atEnd = false := by
  unfold punctuator
  split <;> rfl

@[simp] theorem numeral_atEnd (position : Nat) (text : Text) :
    (numeral position text).atEnd = false := rfl

end Lexeme

/-- A reading that found the end leaves nothing. -/
theorem lexeme_rest_eq_nil {position : Nat} {text : Text}
    (h : (lexeme position text).atEnd = true) : (lexeme position text).rest = [] := by
  fun_induction lexeme position text with
  | case1 => rfl
  | case2 _ _ ih => exact ih h
  | case3 => simp at h
  | case4 => simp at h
  | case5 => simp at h
  | case6 => simp [Reading.atEnd] at h

/-- A reading that did not find the end leaves less than there was. -/
theorem lexeme_rest_lt {position : Nat} {text : Text}
    (h : (lexeme position text).atEnd = false) :
    (lexeme position text).rest.length < text.length := by
  fun_induction lexeme position text with
  | case1 => simp [Reading.atEnd, Token.endOfText] at h
  | case2 _ _ ih => exact Nat.lt_succ_of_lt (ih h)
  | case3 position c rest _ _ => exact Nat.lt_succ_of_le (Lexeme.literal_rest_le position c rest)
  | case4 position c rest _ _ _ =>
      exact Nat.lt_succ_of_le (Lexeme.punctuator_rest_le position c rest)
  | case5 position c rest _ _ _ hd => exact Lexeme.numeral_rest_lt position hd rest
  | case6 => simp

end Calculator
