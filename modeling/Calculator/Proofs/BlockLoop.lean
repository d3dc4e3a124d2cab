import Calculator.Proofs.Safety

/-!
# Reading block by block

A numeral is read by a loop over offsets.  From each multiple of the block's size
below the length it cuts one block, moves what was read before by the places of
the block, and adds the value of the block.  A block can be converted only if it
is digits and is not empty, and the last one can be shorter than the others.

It does not matter where the blocks are cut.  Digits in any number of pieces, none
of them empty, come to the value that they have digit by digit
(`Numeral.readBlocks?_eq`).  The loop's blocks are such pieces of its digits
(`Numeral.flatten_blocks`), so the loop never meets a block without a value.
-/

namespace Calculator
namespace Numeral

/-! ## Digit by digit -/

/-- The value of digits, each of which moves what was read before by one place. -/
def foldDigits (digits : Text) : Nat :=
  digits.foldl (fun value c => value * 10 + (c.toNat - '0'.toNat)) 0

theorem ofDigits_eq_foldDigits (digits : Text) : ofDigits digits = foldDigits digits := by
  rw [ofDigits, Nat.ofDigitChars, foldDigits]
  simp only [Nat.mul_comm]

/-! ## Pieces -/

/-- The value of digits that stand behind others, if they can be converted. -/
def appendBlock? (value : Nat) (block : Text) : Option Nat :=
  (convert? block).map (value * placeValue block.length + ·)

/-- The value of pieces one after another, if each of them can be converted. -/
def readBlocks? (pieces : List Text) : Option Nat := pieces.foldlM appendBlock? 0

theorem appendBlock?_eq {block : Text} (hne : block ≠ []) (hd : ∀ c ∈ block, c.isDigit = true)
    (value : Nat) : appendBlock? value block = some (Nat.ofDigitChars 10 block value) := by
  rw [appendBlock?, convert?, if_pos ⟨hne, List.all_eq_true.2 hd⟩, ofDigitChars_eq_add]
  rfl

/-- The value read so far is that of all pieces so far, as if they had never been cut. -/
theorem foldlM_appendBlock? {pieces : List Text}
    (h : ∀ piece ∈ pieces, piece ≠ [] ∧ ∀ c ∈ piece, c.isDigit = true) (value : Nat) :
    pieces.foldlM appendBlock? value = some (Nat.ofDigitChars 10 pieces.flatten value) := by
  induction pieces generalizing value with
  | nil => exact congrArg some Nat.ofDigitChars_nil.symm
  | cons piece pieces ih =>
      obtain ⟨⟨hne, hd⟩, hrest⟩ := List.forall_mem_cons.1 h
      rw [List.foldlM_cons, appendBlock?_eq hne hd, List.flatten_cons, Nat.ofDigitChars_append]
      exact ih hrest _

theorem readBlocks?_eq {pieces : List Text}
    (h : ∀ piece ∈ pieces, piece ≠ [] ∧ ∀ c ∈ piece, c.isDigit = true) :
    readBlocks? pieces = some (foldDigits pieces.flatten) :=
  (foldlM_appendBlock? h 0).trans (congrArg some (ofDigits_eq_foldDigits _))

/-! ## The blocks of the loop -/

/-- The offsets from which blocks are cut: the multiples of the block's size below a length. -/
def blockStarts (length : Nat) : List Nat :=
  List.range' 0 ((length + (blockSize - 1)) / blockSize) blockSize

/-- The block from an offset on. -/
def blockAt (digits : Text) (start : Nat) : Text := (digits.take (start + blockSize)).drop start

/-- All blocks of digits. -/
def blocks (digits : Text) : List Text := (blockStarts digits.length).map (blockAt digits)

theorem blockAt_eq (digits : Text) (start : Nat) :
    blockAt digits start = (digits.drop start).take blockSize := by
  rw [blockAt, List.drop_take, Nat.add_sub_cancel_left]

theorem blockStarts_of_pos {length : Nat} (h : 0 < length) :
    blockStarts length = 0 :: (blockStarts (length - blockSize)).map (blockSize + ·) := by
  have hcount : (length + (blockSize - 1)) / blockSize =
      (length - blockSize + (blockSize - 1)) / blockSize + 1 := by
    rw [blockSize]
    omega
  rw [blockStarts, blockStarts, hcount, List.range'_succ, List.map_add_range', Nat.add_comm]

/-- Behind the first block the others are those of the digits that are left. -/
theorem blocks_of_ne_nil {digits : Text} (h : digits ≠ []) :
    blocks digits = digits.take blockSize :: blocks (digits.drop blockSize) := by
  rw [blocks, blocks, blockStarts_of_pos (List.length_pos_iff.2 h), List.map_cons, List.map_map,
    List.length_drop, blockAt_eq, List.drop_zero]
  refine congrArg _ (List.map_congr_left fun start _ => ?_)
  rw [Function.comp_apply, blockAt_eq, blockAt_eq, List.drop_drop]

/-- The blocks are the digits, cut into pieces of which none is empty. -/
theorem flatten_blocks (digits : Text) :
    (blocks digits).flatten = digits ∧ ∀ block ∈ blocks digits, block ≠ [] := by
  induction hn : digits.length using Nat.strongRecOn generalizing digits with
  | ind n ih =>
      by_cases h : digits = []
      · subst h
        exact ⟨rfl, nofun⟩
      · have hlt : (digits.drop blockSize).length < n := by
          have := List.length_pos_iff.2 h
          have := blockSize_pos
          rw [List.length_drop]
          omega
        obtain ⟨hf, hne⟩ := ih _ hlt _ rfl
        rw [blocks_of_ne_nil h, List.flatten_cons, hf, List.take_append_drop]
        exact ⟨rfl, List.forall_mem_cons.2 ⟨take_ne_nil h, hne⟩⟩

theorem readBlocks?_blocks {digits : Text} (h : ∀ c ∈ digits, c.isDigit = true) :
    readBlocks? (blocks digits) = some (foldDigits digits) := by
  obtain ⟨hf, hne⟩ := flatten_blocks digits
  rw [readBlocks?_eq, hf]
  intro block hm
  refine ⟨hne block hm, fun c hc => h c ?_⟩
  rw [← hf]
  exact List.mem_flatten_of_mem hm hc

/-- A numeral that is read in blocks has the value that it has digit by digit, wherever it is cut.
So what stands in front counts as much as the digits behind it say. -/
theorem value_digit_by_digit :
    (∀ pieces : List Text, (∀ piece ∈ pieces, piece ≠ [] ∧ ∀ c ∈ piece, c.isDigit = true) →
      readBlocks? pieces = some (foldDigits pieces.flatten)) ∧
    (∀ token : Token, (∀ c ∈ token.text, c.isDigit = true) →
      token.value = foldDigits token.text ∧
        readBlocks? (blocks token.text) = some token.value) ∧
    ∀ first second joined : Token, joined.text = first.text ++ second.text →
      (∀ c ∈ joined.text, c.isDigit = true) →
      joined.value = first.value * placeValue second.text.length + second.value := by
  have hvalue : ∀ token : Token, token.value = foldDigits token.text := fun token =>
    (read_eq_ofDigits token.text).trans (ofDigits_eq_foldDigits token.text)
  refine ⟨fun _ => readBlocks?_eq, ?_, ?_⟩
  · intro token h
    rw [hvalue]
    exact ⟨rfl, readBlocks?_blocks h⟩
  · intro first second joined hj _
    rw [Token.value, Token.value, Token.value, hj, read_eq_ofDigits, read_eq_ofDigits,
      read_eq_ofDigits, ← ofDigitChars_eq_add]
    exact Nat.ofDigitChars_append 0

/-- Two digits in a block of their own, behind a block that is full. -/
theorem value_digit_by_digit_across :
    ∃ first second joined : Token, first.text = List.replicate blockSize '9' ∧
      second.text = ['4', '2'] ∧ joined.text = first.text ++ second.text ∧
      joined.value = first.value * placeValue 2 + 42 ∧
      readBlocks? (blocks joined.text) = some joined.value ∧
      readBlocks? [['4'], ['2']] = some 42 := by
  obtain ⟨hpieces, hvalue, hjoined⟩ := value_digit_by_digit
  have hn : ∀ c ∈ List.replicate blockSize '9', c.isDigit = true := fun c hm =>
    (List.mem_replicate.1 hm).2 ▸ rfl
  have hd : ∀ c ∈ List.replicate blockSize '9' ++ ['4', '2'], c.isDigit = true :=
    List.forall_mem_append.2 ⟨hn, List.all_eq_true.1 rfl⟩
  have hsecond := (hvalue (.lexeme .numeric ['4', '2'] blockSize) (List.all_eq_true.1 rfl)).1
  have hsum := hjoined (.lexeme .numeric (List.replicate blockSize '9') 0)
    (.lexeme .numeric ['4', '2'] blockSize) (.lexeme .numeric _ 0) rfl hd
  rw [hsecond] at hsum
  refine ⟨_, _, _, rfl, rfl, rfl, hsum, (hvalue (.lexeme .numeric _ 0) hd).2, ?_⟩
  refine hpieces [['4'], ['2']] ?_
  simp only [List.forall_mem_cons, List.not_mem_nil, false_implies, implies_true, and_true]
  exact ⟨⟨List.cons_ne_nil _ _, rfl⟩, List.cons_ne_nil _ _, rfl⟩

end Numeral
end Calculator
