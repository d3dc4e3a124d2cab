import Calculator.Text.Quoted

/-!
# Reading quoted texts

The written form of a character between two quotes can be read back, whatever
stands behind it (`unescape_escape`).  A backslash goes together with what
follows it: with a mark, which stands for one character, or with a letter that
says how many hexadecimal digits there are.  No other character needs anything
behind it.

No written form begins with the quote in use, so the closing quote is the first
one that stands where a character could.  So a quoted text is known by any text
that it begins (`encode_append_inj`).
-/

namespace Calculator
namespace Quoted

/-! ## Numbers -/

/-- The number that a hexadecimal digit stands for. -/
def digitValue (c : Char) : Nat :=
  if c.isDigit then c.toNat - '0'.toNat else c.toNat - 'a'.toNat + 10

theorem digitValue_digitChar : ∀ n < 16, digitValue (Nat.digitChar n) = n := by decide

/-- The number that hexadecimal digits stand for. -/
def unhex (digits : Text) : Nat := digits.foldl (fun n c => n * 16 + digitValue c) 0

/-- A number is read back if it has digits enough. -/
theorem unhex_hex {width n : Nat} (h : n < Nat.pow 16 width) : unhex (hex width n) = n := by
  induction width generalizing n with
  | zero =>
      have hn : n < 1 := h
      exact (Nat.lt_one_iff.1 hn).symm
  | succ width ih =>
      have hn : n < Nat.pow 16 width * 16 := h
      have hr := ih (Nat.div_lt_of_lt_mul (by omega : n < 16 * Nat.pow 16 width))
      rw [unhex] at hr ⊢
      rw [hex, List.foldl_append, hr, List.foldl_cons, List.foldl_nil,
        digitValue_digitChar _ (Nat.mod_lt n (by decide)), Nat.div_add_mod']

/-! ## Characters -/

/-- The character that a mark behind a backslash stands for. -/
def ofMark : Char → Char
  | 't' => '\t'
  | 'n' => '\n'
  | 'r' => '\r'
  | c => c

/-- The character with a number of a given width in front of a text, and the rest of the text. -/
def unnumbered (width : Nat) (text : Text) : Char × Text :=
  (Char.ofNat (unhex (text.take width)), text.drop width)

/-- The character whose written form a text begins with, and the rest of the text. -/
def unescape : Text → Option (Char × Text)
  | [] => none
  | '\\' :: 'x' :: rest => some (unnumbered 2 rest)
  | '\\' :: 'u' :: rest => some (unnumbered 4 rest)
  | '\\' :: 'U' :: rest => some (unnumbered 8 rest)
  | '\\' :: mark :: rest => some (ofMark mark, rest)
  | c :: rest => some (c, rest)

theorem unnumbered_hex {width : Nat} {c : Char} (h : c.toNat < Nat.pow 16 width) (rest : Text) :
    unnumbered width (hex width c.toNat ++ rest) = (c, rest) := by
  have hw := length_hex width c.toNat
  rw [unnumbered, List.take_left' hw, List.drop_left' hw, unhex_hex h, Char.ofNat_toNat]

theorem unescape_numbered (c : Char) (rest : Text) :
    unescape (numbered c ++ rest) = some (c, rest) := by
  rw [numbered]
  split
  · rename_i h
    exact congrArg some (unnumbered_hex h rest)
  · split
    · rename_i h
      exact congrArg some (unnumbered_hex h rest)
    · have h : c.toNat < Nat.pow 16 8 := c.val.toNat_lt
      exact congrArg some (unnumbered_hex h rest)

theorem unescape_of_ne {c : Char} (h : c ≠ '\\') (rest : Text) :
    unescape (c :: rest) = some (c, rest) := by
  unfold unescape
  split <;> simp_all

/-- Both quotes and the backslash are marks for themselves. -/
theorem unescape_escape {quote : Char} (hq : quote = '\'' ∨ quote = '"') (c : Char)
    (rest : Text) : unescape (escape quote c ++ rest) = some (c, rest) := by
  rw [escape]
  split
  · rename_i h
    rcases h with rfl | rfl
    · rfl
    · rcases hq with rfl | rfl <;> rfl
  · rename_i h
    split
    · rename_i h
      exact h ▸ rfl
    · split
      · rename_i h
        exact h ▸ rfl
      · split
        · rename_i h
          exact h ▸ rfl
        · split
          · exact unescape_of_ne (fun hc => h (Or.inl hc)) rest
          · exact unescape_numbered c rest

/-- The quote in use is written behind a backslash, so nothing that is written begins with it. -/
theorem escape_append_ne {quote : Char} (hq : quote = '\'' ∨ quote = '"') (c : Char)
    (rest tail : Text) : escape quote c ++ rest ≠ quote :: tail := by
  intro h
  have hslash : quote ≠ '\\' := by rcases hq with rfl | rfl <;> decide
  have hread := unescape_escape hq c rest
  rw [h, unescape_of_ne hslash] at hread
  cases hread
  rw [escape, if_pos (Or.inr rfl)] at h
  exact hslash (List.cons.inj h).1.symm

/-! ## Texts -/

/-- Between two quotes the written form of a text ends at the closing one. -/
theorem flatMap_escape_inj {quote : Char} (hq : quote = '\'' ∨ quote = '"')
    {text text' rest rest' : Text}
    (h : text.flatMap (escape quote) ++ quote :: rest =
      text'.flatMap (escape quote) ++ quote :: rest') : text = text' ∧ rest = rest' := by
  induction text generalizing text' with
  | nil =>
      cases text' with
      | nil => exact ⟨rfl, (List.cons.inj h).2⟩
      | cons c' text' =>
          rw [List.flatMap_cons, List.append_assoc] at h
          exact absurd h.symm (escape_append_ne hq c' _ _)
  | cons c text ih =>
      rw [List.flatMap_cons, List.append_assoc] at h
      cases text' with
      | nil => exact absurd h (escape_append_ne hq c _ _)
      | cons c' text' =>
          rw [List.flatMap_cons, List.append_assoc] at h
          have hread := congrArg unescape h
          rw [unescape_escape hq, unescape_escape hq] at hread
          obtain ⟨rfl, htail⟩ := Prod.mk.inj (Option.some.inj hread)
          obtain ⟨rfl, hrest⟩ := ih htail
          exact ⟨rfl, hrest⟩

theorem quoteFor_eq (text : Text) : quoteFor text = '\'' ∨ quoteFor text = '"' := by
  rw [quoteFor]
  split
  · exact Or.inr rfl
  · exact Or.inl rfl

/-- A quoted text is known by any text that it begins. -/
theorem encode_append_inj {text text' rest rest' : Text}
    (h : encode text ++ rest = encode text' ++ rest') : text = text' ∧ rest = rest' := by
  simp only [encode, List.cons_append, List.append_assoc, List.nil_append] at h
  obtain ⟨hquote, hbody⟩ := List.cons.inj h
  rw [hquote] at hbody
  exact flatMap_escape_inj (quoteFor_eq text') hbody

end Quoted
end Calculator
