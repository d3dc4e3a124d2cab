import Calculator.Number.Numeral

/-!
# Blocks of digits

A numeral is read in blocks of digits, and its value is the one that reading
digit by digit gives.  Each block moves what was read before it by its own
number of places, so it does not matter where a block ends.

A number is written in blocks, too, and its digits are those that writing digit
by digit gives (`writeNat_eq_toDigits`).  An inner block has all its places, so
the digits in front of it stand where they would stand without blocks.  So a
number is read back from its digits, and an integer is known by its written form.
-/

namespace Calculator
namespace Numeral

/-! ## Reading -/

/-- What was read before is moved by the number of digits that follow. -/
theorem ofDigitChars_eq_add (digits : Text) (value : Nat) :
    Nat.ofDigitChars 10 digits value = value * placeValue digits.length + ofDigits digits := by
  rw [Nat.ofDigitChars_eq_ofDigitChars_zero, Nat.mul_comm]
  rfl

theorem readFrom_eq (value : Nat) (digits : Text) :
    readFrom value digits = Nat.ofDigitChars 10 digits value := by
  fun_induction readFrom value digits with
  | case1 value => exact Nat.ofDigitChars_nil.symm
  | case2 value digits _ ih =>
      rw [ih, ← ofDigitChars_eq_add, ← Nat.ofDigitChars_append, List.take_append_drop]

/-- Reading in blocks is reading digit by digit. -/
theorem read_eq_ofDigits (digits : Text) : read digits = ofDigits digits :=
  readFrom_eq 0 digits

/-! ## Writing -/

/-- A longer block has one more digit behind those of a shorter one, which is not empty. -/
theorem leftpad_toDigits_succ (size n : Nat) :
    (Nat.toDigits 10 n).leftpad (size + 2) '0' =
      (Nat.toDigits 10 (n / 10)).leftpad (size + 1) '0' ++ Nat.toDigits 10 (n % 10) := by
  rw [Nat.toDigits_of_lt_base (Nat.mod_lt n (by decide)), @Nat.toDigits_eq_if 10 n (by decide)]
  split
  · rename_i hn
    rw [Nat.div_eq_of_lt hn, Nat.mod_eq_of_lt hn]
    simp [List.leftpad, List.replicate_succ']
  · simp [List.leftpad]

/-- A number in front of a block is moved by the places of the block. -/
theorem toDigits_append_leftpad {m size n : Nat} (hm : 0 < m) (hs : 0 < size)
    (hn : n < placeValue size) :
    Nat.toDigits 10 m ++ (Nat.toDigits 10 n).leftpad size '0' =
      Nat.toDigits 10 (m * placeValue size + n) := by
  obtain ⟨size, rfl⟩ : ∃ k, size = k + 1 := Nat.exists_eq_add_one.2 hs
  induction size generalizing n with
  | zero =>
      have hn : n < 10 := hn
      rw [Nat.toDigits_of_lt_base hn]
      show Nat.toDigits 10 m ++ [n.digitChar] = Nat.toDigits 10 (m * 10 + n)
      rw [Nat.mul_comm, ← Nat.toDigits_append_toDigits (by decide) hm hn,
        Nat.toDigits_of_lt_base hn]
  | succ size ih =>
      have hp : placeValue (size + 1 + 1) = placeValue (size + 1) * 10 := rfl
      have hdiv : n / 10 < placeValue (size + 1) := Nat.div_lt_of_lt_mul (by omega)
      have hsum : m * placeValue (size + 1 + 1) + n =
          10 * (m * placeValue (size + 1) + n / 10) + n % 10 := by
        rw [hp, ← Nat.mul_assoc]
        omega
      have hpos : 0 < m * placeValue (size + 1) + n / 10 :=
        Nat.add_pos_left (Nat.mul_pos hm (Nat.zero_lt_of_lt hdiv)) _
      rw [leftpad_toDigits_succ, ← List.append_assoc, ih (Nat.succ_pos size) hdiv, hsum,
        Nat.toDigits_append_toDigits (by decide) hpos (Nat.mod_lt n (by decide))]

/-- Writing in blocks is writing digit by digit. -/
theorem writeNat_eq_toDigits (n : Nat) : writeNat n = Nat.toDigits 10 n := by
  fun_induction writeNat n with
  | case1 => rfl
  | case2 n h ih =>
      have hbase := Nat.lt_trans Nat.zero_lt_one one_lt_blockBase
      have hquotient : 0 < n / blockBase := Nat.div_pos (Nat.le_of_not_lt h) hbase
      have hblock : Nat.toDigits 10 (n / blockBase) ++ paddedBlock (n % blockBase) =
          Nat.toDigits 10 (n / blockBase * blockBase + n % blockBase) :=
        toDigits_append_leftpad hquotient blockSize_pos (Nat.mod_lt n hbase)
      rw [ih, hblock, Nat.div_add_mod']

theorem ofDigits_writeNat (n : Nat) : ofDigits (writeNat n) = n := by
  rw [writeNat_eq_toDigits]
  exact Nat.ofDigitChars_toDigits (by decide) (by decide)

theorem isDigit_of_mem_writeNat {n : Nat} {c : Char} (h : c ∈ writeNat n) : c.isDigit = true := by
  rw [writeNat_eq_toDigits] at h
  exact Nat.isDigit_of_mem_toDigits (by decide) (by decide) h

/-- An integer is written with digits, and perhaps with a minus sign. -/
theorem mem_write {value : Int} {c : Char} (h : c ∈ write value) : c = '-' ∨ c.isDigit = true := by
  rw [write] at h
  split at h
  · exact (List.mem_cons.1 h).imp_right isDigit_of_mem_writeNat
  · exact Or.inr (isDigit_of_mem_writeNat h)

/-- No other character is in a number that is written. -/
theorem not_mem_write {c : Char} (hsign : c ≠ '-') (hdigit : c.isDigit = false) (value : Int) :
    c ∉ write value := by
  intro hm
  rcases mem_write hm with rfl | h
  · exact hsign rfl
  · cases hdigit.symm.trans h

theorem write_injective : Function.Injective write := by
  have hhead : ∀ n text, writeNat n ≠ '-' :: text := by
    intro n text h
    have hd := @isDigit_of_mem_writeNat n '-' (h ▸ List.mem_cons_self)
    cases hd
  have hinj : ∀ {m n : Nat}, writeNat m = writeNat n → m = n := by
    intro m n h
    rw [← ofDigits_writeNat m, h, ofDigits_writeNat]
  intro v w h
  rw [write, write] at h
  split at h
  · split at h
    · have := hinj (List.cons.inj h).2
      omega
    · exact absurd h.symm (hhead _ _)
  · split at h
    · exact absurd h (hhead _ _)
    · have := hinj h
      omega

end Numeral
end Calculator
