import Calculator.Text.Basic
import Calculator.Text.Printable

/-!
# Quoted texts

A text inside a message stands between two quotes and is written so that the
message stays on one line and shows every character.  The quotes are single,
unless the text has a single quote and no double one.

* The backslash and the quote in use are written behind a backslash.
* Tab, line feed and carriage return have the names `\t`, `\n` and `\r`.
* Any other character that is not printable is written by its number in
  hexadecimal digits: `\x` and two, `\u` and four, or `\U` and eight of them,
  the shortest that holds it.
* All else stands for itself.
-/

namespace Calculator
namespace Quoted

/-! ## Numbers -/

/-- The last `width` hexadecimal digits of a number, the most significant first. -/
def hex : (width : Nat) → Nat → Text
  | 0, _ => []
  | width + 1, n => hex width (n / 16) ++ [Nat.digitChar (n % 16)]

@[simp] theorem length_hex (width n : Nat) : (hex width n).length = width := by
  induction width generalizing n with
  | zero => rfl
  | succ width ih => simp [hex, ih]

/-- A character by its number. -/
def numbered (c : Char) : Text :=
  if c.toNat < 0x100 then '\\' :: 'x' :: hex 2 c.toNat
  else if c.toNat < 0x10000 then '\\' :: 'u' :: hex 4 c.toNat
  else '\\' :: 'U' :: hex 8 c.toNat

/-! ## Characters and texts -/

/-- A character as it is written between two quotes `quote`. -/
def escape (quote c : Char) : Text :=
  if c = '\\' ∨ c = quote then ['\\', c]
  else if c = '\t' then ['\\', 't']
  else if c = '\n' then ['\\', 'n']
  else if c = '\r' then ['\\', 'r']
  else if isPrintable c then [c]
  else numbered c

/-- The quote that encloses a text. -/
def quoteFor (text : Text) : Char :=
  if '\'' ∈ text ∧ '"' ∉ text then '"' else '\''

/-- The written form of a text. -/
def encode (text : Text) : Text :=
  quoteFor text :: text.flatMap (escape (quoteFor text)) ++ [quoteFor text]

end Quoted
end Calculator
