import Mathlib.Data.List.Chain
import Calculator.Evaluation.Phrase
import Calculator.Proofs.Tiling

/-!
# Writing expressions

An expression is written as a row of symbols.  Spaces may stand in front of each
symbol and at the end, and zeros in front of each number, as many as a layout
says.

What is written is read back.  If no two numbers stand side by side, the tokens
of the text are the symbols in their order, each at the offset where it was
written (`Layout.tokens_write`).
-/

namespace Calculator

/-! ## Symbols -/

/-- What expressions are written with. -/
inductive Symbol where
  | numeral (value : Nat)
  | sign (operator : Operator)
  | opening
  | closing

namespace Symbol

/-- What a symbol is read as. -/
def kind : Symbol → Kind
  | numeral _ => .numeric
  | sign _ | opening | closing => .punctuator

/-- A symbol as text, with zeros in front of a number. -/
def text (zeros : Nat) : Symbol → Text
  | numeral value => List.replicate zeros '0' ++ Nat.toDigits 10 value
  | sign operator => operator.text
  | opening => ['(']
  | closing => [')']

/-- Symbols that are not read as one where no space stands between them. -/
def Apart (symbol next : Symbol) : Prop :=
  symbol.kind = .punctuator ∨ next.kind = .punctuator

/-- A punctuator keeps what stands around it apart. -/
theorem isChain_append_cons {front rest : List Symbol} {symbol : Symbol}
    (hf : front.IsChain Apart) (hr : rest.IsChain Apart) (hs : symbol.kind = .punctuator) :
    (front ++ symbol :: rest).IsChain Apart := by
  refine hf.append (List.isChain_cons.2 ⟨fun _ _ => Or.inl hs, hr⟩) ?_
  intro _ _ next hn
  cases hn
  exact Or.inr hs

/-- A punctuator is a single character that continues no numeral and no pair. -/
theorem text_of_punctuator {symbol : Symbol} (h : symbol.kind = .punctuator) (zeros : Nat) :
    ∃ c, symbol.text zeros = [c] ∧ c ∈ ['+', '-', '*', '/', '&', '|', '(', ')'] ∧
      c.isDigit = false ∧ ¬ (c = '&' ∨ c = '|') := by
  cases symbol with
  | numeral _ => cases h
  | sign operator => cases operator <;> exact ⟨_, rfl, by decide⟩
  | opening => exact ⟨_, rfl, by decide⟩
  | closing => exact ⟨_, rfl, by decide⟩

theorem isDigit_of_mem_text {value zeros : Nat} {c : Char}
    (h : c ∈ (numeral value).text zeros) : c.isDigit = true := by
  rcases List.mem_append.1 h with h | h
  · rw [List.eq_of_mem_replicate h]
    decide
  · exact Nat.isDigit_of_mem_toDigits (by decide) (by decide) h

/-- Zeros in front make no difference to a number. -/
theorem ofDigits_text (value zeros : Nat) :
    Numeral.ofDigits ((numeral value).text zeros) = value := by
  rw [Numeral.ofDigits, text, Nat.ofDigitChars_append, Nat.ofDigitChars_replicate_zero,
    Nat.mul_zero, Nat.ofDigitChars_toDigits (by decide) (by decide)]

theorem spells {symbol : Symbol} {rest : Text}
    (h : symbol.kind = .numeric → ∀ c ∈ rest.head?, c.isDigit = false) (zeros : Nat) :
    Spells symbol.kind (symbol.text zeros) (symbol.text zeros) rest := by
  have hpunctuator : symbol.kind = .punctuator →
      Spells .punctuator (symbol.text zeros) (symbol.text zeros) rest := by
    intro hk
    obtain ⟨c, ht, hc, -, hp⟩ := text_of_punctuator hk zeros
    rw [ht]
    exact .single hc fun hp' => absurd hp' hp
  cases symbol with
  | numeral value =>
      refine .numeral ?_ (fun c => isDigit_of_mem_text) (h rfl)
      exact List.append_ne_nil_of_right_ne_nil _ Nat.toDigits_ne_nil
  | sign operator => exact hpunctuator rfl
  | opening => exact hpunctuator rfl
  | closing => exact hpunctuator rfl

end Symbol

/-! ## Layouts -/

/-- How symbols are laid out, by their numbers in the row. -/
structure Layout where
  /-- The spaces in front of a symbol, or at the end. -/
  spaces : Nat → Nat
  /-- The zeros in front of a number. -/
  zeros : Nat → Nat

namespace Layout

/-- Writes symbols, of which the first has a given number. -/
def write (layout : Layout) (first : Nat) : List Symbol → Text
  | [] => List.replicate (layout.spaces first) ' '
  | symbol :: symbols =>
      List.replicate (layout.spaces first) ' ' ++
        (symbol.text (layout.zeros first) ++ write layout (first + 1) symbols)

/-- The offset at which a symbol is written. -/
def offset (layout : Layout) (symbols : List Symbol) (i : Nat) : Nat :=
  (layout.write 0 (symbols.take i)).length

/-- The token that a symbol of a given number is read as. -/
def lexeme (layout : Layout) (location : Nat → Nat) (i : Nat) (symbol : Symbol) : Token :=
  .lexeme symbol.kind (symbol.text (layout.zeros i)) (location i)

/-- The tokens that symbols are read as. -/
def lexemes (layout : Layout) (location : Nat → Nat) (first : Nat) : List Symbol → List Token
  | [] => []
  | symbol :: symbols =>
      layout.lexeme location first symbol :: lexemes layout location (first + 1) symbols

theorem lexemes_append (layout : Layout) (location : Nat → Nat) (first : Nat)
    (front rest : List Symbol) : layout.lexemes location first (front ++ rest) =
      layout.lexemes location first front ++
        layout.lexemes location (first + front.length) rest := by
  induction front generalizing first with
  | nil => rfl
  | cons symbol front ih =>
      rw [List.cons_append, lexemes, ih, List.length_cons, Nat.add_comm front.length,
        ← Nat.add_assoc]
      rfl

/-! ## Reading back -/

/-- One more symbol adds its text and the spaces behind it. -/
theorem length_write_concat (layout : Layout) (first : Nat) (front : List Symbol)
    (symbol : Symbol) : (layout.write first (front ++ [symbol])).length =
      (layout.write first front).length +
        ((symbol.text (layout.zeros (first + front.length))).length +
          layout.spaces (first + (front.length + 1))) := by
  induction front generalizing first with
  | nil => simp [write]
  | cons other front ih =>
      have hn : first + 1 + front.length = first + (front.length + 1) := by omega
      have hs : first + 1 + (front.length + 1) = first + (front.length + 1 + 1) := by omega
      simp only [List.cons_append, write, List.length_append, ih, List.length_cons, hn, hs]
      omega

/-- What follows a number cannot be part of it. -/
theorem head?_write (layout : Layout) (first : Nat) {symbols : List Symbol}
    (h : ∀ symbol ∈ symbols.head?, symbol.kind = .punctuator) :
    ∀ c ∈ (layout.write first symbols).head?, c.isDigit = false := by
  intro c hc
  have hspace : ∀ n text, c ∈ (List.replicate (n + 1) ' ' ++ text).head? → c = ' ' :=
    fun _ _ hc => (Option.some.inj hc).symm
  cases hs : layout.spaces first with
  | succ n =>
      cases symbols with
      | nil =>
          rw [write, hs, ← List.append_nil (List.replicate _ _)] at hc
          rw [hspace _ _ hc]
          decide
      | cons symbol symbols =>
          rw [write, hs] at hc
          rw [hspace _ _ hc]
          decide
  | zero =>
      cases symbols with
      | nil =>
          rw [write, hs] at hc
          cases hc
      | cons symbol symbols =>
          obtain ⟨c', ht, -, hd, -⟩ := Symbol.text_of_punctuator (h symbol rfl) (layout.zeros first)
          rw [write, hs, ht] at hc
          cases hc
          exact hd

end Layout

theorem lexes_spaces {position n : Nat} {rest : Text} {ts : List Token}
    (h : Lexes (position + n) rest ts) : Lexes position (List.replicate n ' ' ++ rest) ts := by
  induction n generalizing position with
  | zero => exact h
  | succ n ih => exact .space (ih (by rwa [Nat.add_assoc, Nat.add_comm 1]))

namespace Layout

/-- Symbols are read behind others at the offsets where they were written. -/
theorem lexes_write (layout : Layout) {front rest : List Symbol}
    (h : rest.IsChain Symbol.Apart) {position : Nat}
    (hp : position + layout.spaces front.length = (layout.write 0 front).length) :
    Lexes position (layout.write front.length rest)
      (layout.lexemes (layout.offset (front ++ rest)) front.length rest) := by
  induction rest generalizing front position with
  | nil =>
      rw [write, ← List.append_nil (List.replicate _ _)]
      exact lexes_spaces .nil
  | cons symbol rest ih =>
      obtain ⟨hhead, hrest⟩ := List.isChain_cons.1 h
      have hoffset : layout.offset (front ++ symbol :: rest) front.length =
          (layout.write 0 front).length := by
        rw [offset, List.take_left]
      have hsp := @Symbol.spells symbol (layout.write (front.length + 1) rest) ?_
        (layout.zeros front.length)
      · have htail := @ih (front ++ [symbol]) hrest ((layout.write 0 front).length +
          (symbol.text (layout.zeros front.length)).length) ?_
        · rw [List.append_assoc, List.length_append] at htail
          rw [write, lexemes, lexeme, hoffset]
          refine lexes_spaces ?_
          rw [hp]
          exact .token hsp htail
        · have hlen := layout.length_write_concat 0 front symbol
          rw [Nat.zero_add, Nat.zero_add, Nat.add_assoc] at *
          rw [List.length_append]
          exact hlen.symm
      · intro hk
        apply layout.head?_write
        intro next hn
        rcases hhead next hn with hk' | hk'
        · rw [hk] at hk'
          cases hk'
        · exact hk'

/-- What is written is read back as it was written. -/
theorem tokens_write (layout : Layout) {symbols : List Symbol}
    (h : symbols.IsChain Symbol.Apart) :
    tokens (layout.write 0 symbols) =
      .ok (layout.lexemes (layout.offset symbols) 0 symbols ++
        [.endOfText (layout.write 0 symbols).length]) :=
  tokens_eq_ok_iff_lexes.2
    ⟨_, rfl, @lexes_write layout [] symbols h 0 (by simp [write])⟩

end Layout
end Calculator
