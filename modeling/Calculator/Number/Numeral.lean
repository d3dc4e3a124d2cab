import Calculator.Text.Basic

/-!
# Numerals

Whole numbers of any length, read from decimal digits and written in them.
Both directions work on blocks of `blockSize` digits, which keeps the work on a
long numeral to a few operations on large numbers.

* `read` takes its blocks from the left.  Only the last block can be shorter,
  and it shifts the value by its own length.
* `write` splits blocks off on the right.  An inner block is padded with zeros
  to its full length, and the leading block is not.

Reading the empty text gives zero.
-/

namespace Calculator
namespace Numeral

/-! ## Blocks -/

/-- The number of digits in a block. -/
def blockSize : Nat := 4000

/-- What a one is worth with a number of digits behind it. -/
def placeValue (digits : Nat) : Nat := Nat.pow 10 digits

/-- The first number that does not fit into a block. -/
def blockBase : Nat := placeValue blockSize

theorem blockSize_pos : 0 < blockSize := by decide

theorem one_lt_placeValue {digits : Nat} (h : 0 < digits) : 1 < placeValue digits :=
  Nat.one_lt_pow (Nat.pos_iff_ne_zero.1 h) (by decide)

theorem one_lt_blockBase : 1 < blockBase := one_lt_placeValue blockSize_pos

/-! ## Reading -/

/-- The value of digits, one digit after the other. -/
def ofDigits (digits : Text) : Nat := Nat.ofDigitChars 10 digits 0

/-- The value of digits behind a number already read, block by block. -/
def readFrom (value : Nat) (digits : Text) : Nat :=
  if digits = [] then value
  else
    readFrom
      (value * placeValue (digits.take blockSize).length + ofDigits (digits.take blockSize))
      (digits.drop blockSize)
termination_by digits.length
decreasing_by
  rename_i h
  have := List.length_pos_iff.2 h
  have := blockSize_pos
  rw [List.length_drop]
  omega

/-- The value of a numeral. -/
def read (digits : Text) : Nat := readFrom 0 digits

/-! ## Writing -/

/-- The digits of an inner block, with zeros in front up to the block's length. -/
def paddedBlock (n : Nat) : Text := (Nat.toDigits 10 n).leftpad blockSize '0'

/-- The digits of a natural number. -/
def writeNat (n : Nat) : Text :=
  if n < blockBase then Nat.toDigits 10 n
  else writeNat (n / blockBase) ++ paddedBlock (n % blockBase)
termination_by n
decreasing_by
  have := one_lt_blockBase
  exact Nat.div_lt_self (by omega) this

/-- An integer in decimal digits, with a minus sign in front when it is negative. -/
def write (value : Int) : Text :=
  if value < 0 then '-' :: writeNat value.natAbs else writeNat value.natAbs

end Numeral
end Calculator
