import Calculator.Proofs.Value
import Calculator.Proofs.Writing

/-!
# Precedence

A tree of calculations is written with as few parentheses as it can be.  A sum
or difference stands in parentheses as an operand of a product or quotient, and
on the right of a sum or difference.  A product or quotient stands in
parentheses on the right of a product or quotient.  No other operand does.

The text is calculated as the tree is, however it is spaced.
A tree without parentheses around it is a phrase of the sort that its operator
makes, and the parentheses stand where a rule of the grammar wants another sort
(`Tree.derives_enclose`).  So the symbols have a derivation that joins operands
as the tree does, and no other one matters.

The divisions of a tree are listed in the order of calculation, left operand,
right operand, operator.  The first one with a divisor of zero is the fault.
-/

namespace Calculator

/-! ## Trees -/

/-- A calculation as a tree. -/
inductive Tree where
  | leaf (value : Nat)
  | node (operator : Operator) (left right : Tree)

namespace Operator

/-- Whether an operator joins terms, not factors. -/
def isSum : Operator → Bool
  | add | sub => true
  | mul | div => false

/-- What an operator makes of two numbers.  The quotient is rounded toward zero.  By a divisor of
zero it has no meaning. -/
def calculate : Operator → Int → Int → Int
  | add, a, b => a + b
  | sub, a, b => a - b
  | mul, a, b => a * b
  | div, a, b => a.tdiv b

/-- Whether a tree needs parentheses on the left of an operator. -/
def enclosesLeft (operator : Operator) : Tree → Bool
  | .leaf _ => false
  | .node inner _ _ => inner.isSum && !operator.isSum

/-- Whether a tree needs parentheses on the right of an operator. -/
def enclosesRight (operator : Operator) : Tree → Bool
  | .leaf _ => false
  | .node inner _ _ => inner.isSum || !operator.isSum

end Operator

/-- Symbols in parentheses, where they are needed. -/
def enclose (needed : Bool) (symbols : List Symbol) : List Symbol :=
  if needed then .opening :: (symbols ++ [.closing]) else symbols

/-- A division in a tree. -/
structure Division where
  /-- The number of its sign among the symbols. -/
  sign : Nat
  /-- The value of the operand on the right. -/
  divisor : Int

namespace Tree

/-- The symbols of a tree. -/
def symbols : Tree → List Symbol
  | leaf value => [.numeral value]
  | node operator left right =>
      enclose (operator.enclosesLeft left) left.symbols ++
        .sign operator :: enclose (operator.enclosesRight right) right.symbols

/-- A tree as a text. -/
def write (tree : Tree) (layout : Layout) : Text := layout.write 0 tree.symbols

/-- The value of a tree. -/
def value : Tree → Int
  | leaf value => value
  | node operator left right => operator.calculate left.value right.value

/-- The number of the sign behind a left operand, where the first symbol has a given number. -/
def sign (first : Nat) (operator : Operator) (left : Tree) : Nat :=
  first + (enclose (operator.enclosesLeft left) left.symbols).length

/-- The divisions of a tree in the order of calculation, where its first symbol has a given
number. -/
def divisions (first : Nat) : Tree → List Division
  | leaf _ => []
  | node operator left right =>
      left.divisions (first + (operator.enclosesLeft left).toNat) ++
        (right.divisions (sign first operator left + 1 + (operator.enclosesRight right).toNat) ++
          if operator = .div then [⟨sign first operator left, right.value⟩] else [])

/-- The value of a tree, or the token of the sign of its first division by zero. -/
def outcome (token : Nat → Token) (first : Nat) (tree : Tree) : Except Token Int :=
  match (tree.divisions first).find? (·.divisor = 0) with
  | some division => .error (token division.sign)
  | none => .ok tree.value

/-! ## The order of calculation -/

theorem apply_eq (operator : Operator) (sign : Token) (a b : Int) :
    operator.apply sign a b =
      if operator = .div ∧ b = 0 then .error sign else .ok (operator.calculate a b) := by
  cases operator with
  | div => by_cases hb : b = 0 <;> simp [Operator.apply, Operator.calculate, hb]
  | add => rfl
  | sub => rfl
  | mul => rfl

/-- The outcome of a node is that of its operands joined. -/
theorem outcome_node (token : Nat → Token) (first : Nat) (operator : Operator)
    (left right : Tree) :
    (node operator left right).outcome token first =
      operator.join (token (sign first operator left))
        (left.outcome token (first + (operator.enclosesLeft left).toNat))
        (right.outcome token
          (sign first operator left + 1 + (operator.enclosesRight right).toNat)) := by
  simp only [outcome, divisions, List.find?_append]
  cases (left.divisions _).find? _ with
  | some division => rfl
  | none =>
      cases (right.divisions _).find? _ with
      | some division => rfl
      | none =>
          show _ = operator.apply _ left.value right.value
          rw [apply_eq]
          by_cases hd : operator = .div
          · by_cases hb : right.value = 0
            · simp [hd, hb]
            · simp [hd, hb, value]
          · simp [hd, value]

/-! ## The phrase of a tree -/

/-- The sort of phrase that a tree is without parentheses around it. -/
def phrase : Tree → Phrase
  | leaf _ => .factor
  | node operator _ _ => if operator.isSum then .expression else .term

end Tree

/-- `Phrase.Within p q`: phrases of one sort are also phrases of the other. -/
def Phrase.Within (p q : Phrase) : Prop := ∀ {ts v}, Derives p ts v → Derives q ts v

theorem Phrase.factor_within (p : Phrase) : Phrase.factor.Within p := by
  intro ts v h
  cases p with
  | expression => exact .term (.factor h)
  | term => exact .factor h
  | factor => exact h

theorem Phrase.within_expression (p : Phrase) : p.Within .expression := by
  intro ts v h
  cases p with
  | expression => exact h
  | term => exact .term h
  | factor => exact .term (.factor h)

namespace Tree

theorem within_left {operator : Operator} {left : Tree}
    (h : operator.enclosesLeft left = false) :
    left.phrase.Within (if operator.isSum then .expression else .term) := by
  cases left with
  | leaf _ => exact Phrase.factor_within _
  | node inner _ _ =>
      by_cases ho : operator.isSum = true
      · rw [if_pos ho]
        exact Phrase.within_expression _
      · have hi : inner.isSum = false := by simpa [Operator.enclosesLeft, ho] using h
        rw [if_neg ho, phrase, hi]
        exact id

theorem within_right {operator : Operator} {right : Tree}
    (h : operator.enclosesRight right = false) :
    right.phrase.Within (if operator.isSum then .term else .factor) := by
  cases right with
  | leaf _ => exact Phrase.factor_within _
  | node inner _ _ =>
      obtain ⟨hi, ho⟩ : inner.isSum = false ∧ operator.isSum = true := by
        simpa [Operator.enclosesRight] using h
      rw [if_pos ho, phrase, hi]
      exact id

section Derivation

variable (layout : Layout) (location : Nat → Nat)

/-- An operand is a phrase of the sort that is asked for, in parentheses where it needs them. -/
theorem derives_enclose {p q : Phrase} {first : Nat} {symbols : List Symbol} {needed : Bool}
    {v : Except Token Int}
    (h : Derives p (layout.lexemes location (first + needed.toNat) symbols) v)
    (hq : needed = false → p.Within q) :
    Derives q (layout.lexemes location first (enclose needed symbols)) v := by
  cases needed with
  | false => exact hq rfl h
  | true =>
      have hd := @Derives.parentheses (layout.lexeme location first .opening)
        (layout.lexeme location (first + 1 + symbols.length) .closing) _ _ rfl
        (p.within_expression h) rfl
      have hl : layout.lexemes location first (enclose true symbols) =
          layout.lexeme location first .opening ::
            (layout.lexemes location (first + 1) symbols ++
              [layout.lexeme location (first + 1 + symbols.length) .closing]) := by
        show layout.lexeme location first .opening :: layout.lexemes location (first + 1) _ = _
        rw [Layout.lexemes_append]
        rfl
      rw [hl]
      exact q.factor_within hd

/-- The symbols of a tree are a phrase that means what the tree comes to. -/
theorem derives (tree : Tree) (first : Nat) :
    Derives tree.phrase (layout.lexemes location first tree.symbols)
      (tree.outcome (fun i => layout.lexeme location i (.sign .div)) first) := by
  induction tree generalizing first with
  | leaf value =>
      have hd := @Derives.numeral (layout.lexeme location first (.numeral value)) rfl
      have hv : Numeral.ofDigits (layout.lexeme location first (.numeral value)).text = value :=
        Symbol.ofDigits_text value _
      rw [hv] at hd
      exact hd
  | node operator left right ihl ihr =>
      have hl := derives_enclose layout location (ihl (first + _)) (@within_left operator left)
      have hr := derives_enclose layout location (ihr (sign first operator left + 1 + _))
        (@within_right operator right)
      rw [outcome_node, symbols, Layout.lexemes_append, Layout.lexemes]
      -- a sign other than that of a division is never reported, so it may be any
      cases operator with
      | add => exact .sum hl rfl (Or.inl rfl) hr
      | sub => exact .sum hl rfl (Or.inr rfl) hr
      | mul => exact .product hl rfl (Or.inl rfl) hr
      | div => exact .product hl rfl (Or.inr rfl) hr

end Derivation

/-! ## The text of a tree -/

theorem isChain_enclose {symbols : List Symbol} (h : symbols.IsChain Symbol.Apart)
    (needed : Bool) : (enclose needed symbols).IsChain Symbol.Apart := by
  cases needed with
  | false => exact h
  | true =>
      exact Symbol.isChain_append_cons .nil (Symbol.isChain_append_cons h .nil rfl) rfl

/-- Between two numbers of a tree there is always a sign. -/
theorem isChain_symbols (tree : Tree) : tree.symbols.IsChain Symbol.Apart := by
  induction tree with
  | leaf _ => exact .singleton _
  | node operator left right ihl ihr =>
      exact Symbol.isChain_append_cons (isChain_enclose ihl _) (isChain_enclose ihr _) rfl

theorem evaluate_eq_outcome {tree : Tree} {layout : Layout}
    (h : OpensAtMost 200 (tree.write layout)) :
    evaluate (tree.write layout) = (tree.outcome (fun i =>
      .lexeme .punctuator ['/'] (layout.offset tree.symbols i)) 0).mapError .divisionByZero :=
  evaluate_of_derives h (layout.tokens_write tree.isChain_symbols)
    ((Phrase.within_expression _) (tree.derives layout _ 0))

end Tree

/-- A text with as few parentheses as the precedence of operators allows is calculated as the tree
is from which it was written. -/
theorem evaluate_write {tree : Tree} {layout : Layout}
    (h : NestsAtMost 200 (tree.write layout)) :
    ((∀ division ∈ tree.divisions 0, division.divisor ≠ 0) →
      evaluate (tree.write layout) = .ok tree.value) ∧
    ∀ before division after, tree.divisions 0 = before ++ division :: after →
      (∀ earlier ∈ before, earlier.divisor ≠ 0) → division.divisor = 0 →
      evaluate (tree.write layout) = .error (.divisionByZero
        (.lexeme .punctuator ['/'] (layout.offset tree.symbols division.sign))) := by
  rw [Tree.evaluate_eq_outcome (opensAtMost_of_nestsAtMost h), Tree.outcome]
  constructor
  · intro hall
    have hf : (tree.divisions 0).find? (·.divisor = 0) = none := by
      simpa using hall
    rw [hf]
    rfl
  · intro before division after hd hb hz
    have hf : (tree.divisions 0).find? (·.divisor = 0) = some division := by
      rw [List.find?_eq_some_iff_append]
      exact ⟨by simpa using hz, before, after, hd, by simpa using hb⟩
    rw [hf]
    rfl

/-- A divisor that is zero only once it is calculated. -/
theorem evaluate_write_zero_difference :
    ∃ (tree : Tree) (layout : Layout), tree.write layout = "8 -07 /( 002- 0002) ".toList ∧
      NestsAtMost 200 (tree.write layout) ∧
      evaluate (tree.write layout) = .error (.divisionByZero (.lexeme .punctuator ['/'] 6)) := by
  have hw : Tree.write
      (.node .sub (.leaf 8) (.node .div (.leaf 7) (.node .sub (.leaf 2) (.leaf 2))))
      ⟨(· % 2), (· / 2)⟩ = "8 -07 /( 002- 0002) ".toList := by decide
  have h : NestsAtMost 200 "8 -07 /( 002- 0002) ".toList := nestsAtMost_of_length_le (by decide)
  rw [← hw] at h
  exact ⟨_, _, hw, h, (evaluate_write h).2 [] ⟨3, 0⟩ [] rfl nofun rfl⟩

end Calculator
