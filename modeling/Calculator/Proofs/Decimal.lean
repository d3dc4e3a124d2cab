import Calculator.Proofs.Digits
import Calculator.Token.Basic

/-!
# Decimal form

A natural number has one decimal form: digits with its value, without a zero in
front unless there is nothing else.  The value of digits is said here by places,
where each digit counts as much as the number of digits behind it says
(`positional`).

Writing gives the decimal form, although it works in blocks.  For this it has to
be undone by reading, and digits without a zero in front have to be written again
as they were read (`toDigits_ofDigits`).  What stands in front of the other digits
is then a number that is not zero, and this is all that their induction needs.

So a number that was read from digits is written with the same digits, without
the zeros in front of them.
-/

namespace Calculator
namespace Numeral

/-! ## Values by place -/

/-- The value of digits, each at its place. -/
def positional : Text → Nat
  | [] => 0
  | c :: digits => (c.toNat - '0'.toNat) * placeValue digits.length + positional digits

theorem ofDigits_cons (c : Char) (digits : Text) :
    ofDigits (c :: digits) =
      (c.toNat - '0'.toNat) * placeValue digits.length + ofDigits digits := by
  rw [ofDigits, Nat.ofDigitChars_cons, Nat.mul_zero, Nat.zero_add, ofDigitChars_eq_add]

/-- Reading digit by digit gives each digit its place. -/
theorem ofDigits_eq_positional (digits : Text) : ofDigits digits = positional digits := by
  induction digits with
  | nil => rfl
  | cons c digits ih => rw [ofDigits_cons, ih, positional]

theorem digit_lt {c : Char} (h : c.isDigit = true) : c.toNat - '0'.toNat < 10 := by
  have hle : c.toNat ≤ 57 := (Char.isDigit_iff_toNat.1 h).2
  show c.toNat - 48 < 10
  omega

/-- A digit is written again as it was read. -/
theorem digitChar_digit {c : Char} (h : c.isDigit = true) :
    (c.toNat - '0'.toNat).digitChar = c := by
  have hle : 48 ≤ c.toNat := (Char.isDigit_iff_toNat.1 h).1
  have hd := Nat.toNat_digitChar_of_lt_ten (digit_lt h)
  refine Char.toNat_inj.1 (hd.trans ?_)
  show 48 + (c.toNat - 48) = c.toNat
  omega

/-- Digits are worth less than a one in front of them. -/
theorem ofDigits_lt {digits : Text} (h : ∀ c ∈ digits, c.isDigit = true) :
    ofDigits digits < placeValue digits.length := by
  induction digits with
  | nil => exact Nat.one_pos
  | cons c digits ih =>
      obtain ⟨hc, hd⟩ := List.forall_mem_cons.1 h
      calc ofDigits (c :: digits)
          = (c.toNat - '0'.toNat) * placeValue digits.length + ofDigits digits :=
            ofDigits_cons c digits
        _ < (c.toNat - '0'.toNat) * placeValue digits.length + placeValue digits.length :=
            Nat.add_lt_add_left (ih hd) _
        _ = (c.toNat - '0'.toNat + 1) * placeValue digits.length := (Nat.succ_mul ..).symm
        _ ≤ 10 * placeValue digits.length := Nat.mul_le_mul_right _ (digit_lt hc)
        _ = placeValue (c :: digits).length := Nat.mul_comm ..

/-! ## Digits without zeros in front -/

/-- Digits behind a number that is not zero are written again as they were read. -/
theorem toDigits_append_digits {n : Nat} (hn : 0 < n) {digits : Text}
    (h : ∀ c ∈ digits, c.isDigit = true) :
    Nat.toDigits 10 n ++ digits = Nat.toDigits 10 (Nat.ofDigitChars 10 digits n) := by
  induction digits generalizing n with
  | nil => rw [List.append_nil, Nat.ofDigitChars_nil]
  | cons c digits ih =>
      obtain ⟨hc, hd⟩ := List.forall_mem_cons.1 h
      have hpos : 0 < 10 * n + (c.toNat - '0'.toNat) := by omega
      rw [List.append_cons, Nat.ofDigitChars_cons, ← ih hpos hd,
        ← Nat.toDigits_append_toDigits (by decide) hn (digit_lt hc),
        Nat.toDigits_of_lt_base (digit_lt hc), digitChar_digit hc]

/-- Digits without a zero in front are written again as they were read. -/
theorem toDigits_ofDigits {c : Char} {digits : Text}
    (h : ∀ d ∈ c :: digits, d.isDigit = true) (hz : c ≠ '0') :
    Nat.toDigits 10 (ofDigits (c :: digits)) = c :: digits := by
  obtain ⟨hc, hd⟩ := List.forall_mem_cons.1 h
  have hpos : 0 < c.toNat - '0'.toNat := by
    refine Nat.pos_of_ne_zero fun h0 => hz ?_
    rw [← digitChar_digit hc, h0]
    rfl
  rw [ofDigits, Nat.ofDigitChars_cons, Nat.mul_zero, Nat.zero_add, ← toDigits_append_digits hpos hd,
    Nat.toDigits_of_lt_base (digit_lt hc), digitChar_digit hc]
  rfl

/-- Digits without the zeros in front, of which one is left where there is nothing else. -/
def significant (digits : Text) : Text :=
  match digits.dropWhile (· == '0') with
  | [] => ['0']
  | rest => rest

/-- Zeros in front add nothing. -/
theorem ofDigits_dropWhile (digits : Text) :
    ofDigits (digits.dropWhile (· == '0')) = ofDigits digits := by
  induction digits with
  | nil => rfl
  | cons c digits ih =>
      rw [List.dropWhile_cons]
      split
      · rename_i hc
        rw [ih, ofDigits_cons, eq_of_beq hc, Nat.sub_self, Nat.zero_mul, Nat.zero_add]
      · rfl

/-- The digits of a number that was read are those without the zeros in front. -/
theorem writeNat_ofDigits {digits : Text} (h : ∀ c ∈ digits, c.isDigit = true) :
    writeNat (ofDigits digits) = significant digits := by
  have hd : ∀ c ∈ digits.dropWhile (· == '0'), c.isDigit = true := fun c hm =>
    h c ((List.dropWhile_sublist _).mem hm)
  have hz := List.head?_dropWhile_not (· == '0') digits
  rw [writeNat_eq_toDigits, ← ofDigits_dropWhile, significant]
  cases hrest : digits.dropWhile (· == '0') with
  | nil => rfl
  | cons c rest =>
      rw [hrest] at hd hz
      refine toDigits_ofDigits hd ?_
      rintro rfl
      cases hz

/-! ## The decimal form -/

/-- `IsDecimal n digits`: the digits are the decimal form of a number. -/
structure IsDecimal (n : Nat) (digits : Text) : Prop where
  ne_nil : digits ≠ []
  isDigit : ∀ c ∈ digits, c.isDigit = true
  /-- Only zero itself has a zero in front. -/
  eq_zero : digits.head? = some '0' → digits = ['0']
  positional_eq : positional digits = n

theorem significant_head? {digits : Text} (h : (significant digits).head? = some '0') :
    significant digits = ['0'] := by
  have hz := List.head?_dropWhile_not (· == '0') digits
  rw [significant] at h ⊢
  cases hrest : digits.dropWhile (· == '0') with
  | nil => rfl
  | cons c rest =>
      rw [hrest] at h hz
      cases h
      cases hz

/-- A natural number is written in its decimal form. -/
theorem isDecimal_writeNat (n : Nat) : IsDecimal n (writeNat n) where
  ne_nil := by
    rw [writeNat_eq_toDigits]
    exact Nat.toDigits_ne_nil
  isDigit := fun _ hm => isDigit_of_mem_writeNat hm
  eq_zero := by
    have hs := writeNat_ofDigits fun _ => @isDigit_of_mem_writeNat n _
    rw [ofDigits_writeNat] at hs
    rw [hs]
    exact significant_head?
  positional_eq := by rw [← ofDigits_eq_positional, ofDigits_writeNat]

/-- A number has no other decimal form. -/
theorem IsDecimal.eq_writeNat {n : Nat} {digits : Text} (h : IsDecimal n digits) :
    digits = writeNat n := by
  have hv := h.positional_eq
  rw [← ofDigits_eq_positional] at hv
  rw [← hv, writeNat_eq_toDigits]
  obtain ⟨c, rest, rfl⟩ := List.exists_cons_of_ne_nil h.ne_nil
  by_cases hz : c = '0'
  · rw [h.eq_zero (congrArg some hz)]
    rfl
  · exact (toDigits_ofDigits h.isDigit hz).symm

/-- The minus sign of an integer, if it has one. -/
def sign (value : Int) : Text := if value < 0 then ['-'] else []

theorem write_eq_sign (value : Int) : write value = sign value ++ writeNat value.natAbs := by
  rw [write, sign]
  split
  · rfl
  · rfl

/-- A minus sign is written in front of negative numbers, and nowhere else. -/
theorem minus_mem_write_iff (value : Int) : '-' ∈ write value ↔ value < 0 := by
  have hn : '-' ∉ writeNat value.natAbs := fun hm => by cases isDigit_of_mem_writeNat hm
  rw [write_eq_sign, sign, List.mem_append]
  split
  · rename_i hv
    simp [hv]
  · rename_i hv
    simp [hv, hn]

/-- An integer is written in decimal form, with a minus sign exactly if it is negative.  No other
text is its decimal form, and digits that were read are written again without the zeros in front. -/
theorem write_decimal :
    (∀ (value : Int) (text : Text), text = write value ↔
      ∃ digits, text = sign value ++ digits ∧ IsDecimal value.natAbs digits) ∧
    (∀ value : Int, '-' ∈ write value ↔ value < 0) ∧
    ∀ token : Token, (∀ c ∈ token.text, c.isDigit = true) →
      write token.value = significant token.text := by
  refine ⟨?_, minus_mem_write_iff, ?_⟩
  · intro value text
    rw [write_eq_sign]
    constructor
    · rintro rfl
      exact ⟨_, rfl, isDecimal_writeNat _⟩
    · rintro ⟨digits, rfl, hd⟩
      rw [hd.eq_writeNat]
  · intro token h
    have hs : sign token.value = [] := if_neg (Int.not_lt.2 (Int.natCast_nonneg _))
    rw [write_eq_sign, hs, Int.natAbs_natCast, Token.value, read_eq_ofDigits]
    exact writeNat_ofDigits h

/-- A block of zeros in front of a number that ends with one. -/
theorem write_decimal_padded :
    ∃ token : Token, token.text = List.replicate blockSize '0' ++ ['1', '2', '0'] ∧
      (∀ c ∈ token.text, c.isDigit = true) ∧ write token.value = ['1', '2', '0'] := by
  have hzero : ∀ c ∈ List.replicate blockSize '0', c = '0' := fun c hm =>
    (List.mem_replicate.1 hm).2
  have hd : ∀ c ∈ List.replicate blockSize '0' ++ ['1', '2', '0'], c.isDigit = true := by
    refine List.forall_mem_append.2 ⟨?_, List.all_eq_true.1 rfl⟩
    intro c hm
    rw [hzero c hm]
    rfl
  have hs : significant (List.replicate blockSize '0' ++ ['1', '2', '0']) = ['1', '2', '0'] := by
    rw [significant, List.dropWhile_append_of_pos fun c hm => beq_iff_eq.2 (hzero c hm)]
    rfl
  exact ⟨.lexeme .numeric _ 0, rfl, hd, (write_decimal.2.2 (.lexeme .numeric _ 0) hd).trans hs⟩

end Numeral
end Calculator
