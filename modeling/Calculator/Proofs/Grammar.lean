import Calculator.Evaluation.Phrase

/-!
# The grammar

What the three sorts of phrase are, and what they mean, without any machine.

* An expression is a term, or an expression, `+` or `-`, and a term.
* A term is a factor, or a term, `*` or `/`, and a factor.
* A factor is a numeral, or an expression in parentheses.

The rules of the first two lines recurse on the left, so a derivation joins its
operands from left to right.

A phrase means a number, or the division sign of its first division by zero.
First in the order of calculation: the left operand, the right operand, then
the operator between them (`Operator.join`).  A numeral means what its digits
say one by one.

A sentence is an expression that is all there is.  What a sentence can begin
with is viable.  A division by zero is complete where viable tokens end in a
factor of value zero directly behind a division sign.
-/

namespace Calculator

namespace Operator

/-- What an operator makes of two numbers.  Only a division can fail, and its
failure is the sign, which is the token of the operator. -/
def apply (operator : Operator) (sign : Token) (a b : Int) : Except Token Int :=
  match operator with
  | add => .ok (a + b)
  | sub => .ok (a - b)
  | mul => .ok (a * b)
  | div => if b = 0 then .error sign else .ok (a.tdiv b)

/-- What an operator makes of what its two operands mean. -/
def join (operator : Operator) (sign : Token) (v w : Except Token Int) : Except Token Int :=
  v.bind fun a => w.bind fun b => operator.apply sign a b

end Operator

/-! ## Derivations -/

/-- `Derives p ts v`: the tokens `ts` are a phrase of sort `p`, and it means `v`. -/
inductive Derives : Phrase → List Token → Except Token Int → Prop where
  | numeral {token : Token} :
      token.kind = .numeric →
      Derives .factor [token] (.ok (Numeral.ofDigits token.text))
  | parentheses {left right : Token} {ts : List Token} {v : Except Token Int} :
      left.isPunctuator ['('] = true →
      Derives .expression ts v →
      right.isPunctuator [')'] = true →
      Derives .factor (left :: (ts ++ [right])) v
  | factor {ts : List Token} {v : Except Token Int} :
      Derives .factor ts v →
      Derives .term ts v
  | product {ts us : List Token} {sign : Token} {operator : Operator} {v w : Except Token Int} :
      Derives .term ts v →
      sign.isPunctuator operator.text = true →
      operator = .mul ∨ operator = .div →
      Derives .factor us w →
      Derives .term (ts ++ sign :: us) (operator.join sign v w)
  | term {ts : List Token} {v : Except Token Int} :
      Derives .term ts v →
      Derives .expression ts v
  | sum {ts us : List Token} {sign : Token} {operator : Operator} {v w : Except Token Int} :
      Derives .expression ts v →
      sign.isPunctuator operator.text = true →
      operator = .add ∨ operator = .sub →
      Derives .term us w →
      Derives .expression (ts ++ sign :: us) (operator.join sign v w)

/-- Tokens that are an expression, whatever it means. -/
def Sentence (ts : List Token) : Prop := ∃ v, Derives .expression ts v

/-- Tokens with which a sentence can begin. -/
def Viable (ts : List Token) : Prop := ∃ us, Sentence (ts ++ us)

/-- `CompletesZeroDivision ts slash`: the last of the tokens `ts` ends a factor of value zero,
and the division sign `slash` stands directly in front of it. -/
def CompletesZeroDivision (ts : List Token) (slash : Token) : Prop :=
  Viable ts ∧ ∃ front us, ts = front ++ slash :: us ∧ slash.isPunctuator ['/'] = true ∧
    Derives .factor us (.ok 0)

/-! ## Tokens of a phrase -/

/-- A phrase is made of punctuators and numerals. -/
theorem Derives.kind_of_mem {p : Phrase} {ts : List Token} {v : Except Token Int}
    (h : Derives p ts v) : ∀ token ∈ ts, token.kind = .punctuator ∨ token.kind = .numeric := by
  induction h with
  | numeral hk => exact List.forall_mem_singleton.2 (Or.inr hk)
  | parentheses hl _ hr ih =>
      refine List.forall_mem_cons.2 ⟨Or.inl (Token.is_iff.1 hl).1, List.forall_mem_append.2 ⟨ih, ?_⟩⟩
      exact List.forall_mem_singleton.2 (Or.inl (Token.is_iff.1 hr).1)
  | factor _ ih => exact ih
  | term _ ih => exact ih
  | product _ hs _ _ ihl ihr =>
      exact List.forall_mem_append.2 ⟨ihl, List.forall_mem_cons.2 ⟨Or.inl (Token.is_iff.1 hs).1, ihr⟩⟩
  | sum _ hs _ _ ihl ihr =>
      exact List.forall_mem_append.2 ⟨ihl, List.forall_mem_cons.2 ⟨Or.inl (Token.is_iff.1 hs).1, ihr⟩⟩

theorem Derives.ne_nil {p : Phrase} {ts : List Token} {v : Except Token Int}
    (h : Derives p ts v) : ts ≠ [] := by
  induction h with
  | numeral _ => exact List.cons_ne_nil _ _
  | parentheses _ _ _ _ => exact List.cons_ne_nil _ _
  | factor _ ih => exact ih
  | term _ ih => exact ih
  | product _ _ _ _ ih _ => exact List.append_ne_nil_of_left_ne_nil ih _
  | sum _ _ _ _ ih _ => exact List.append_ne_nil_of_left_ne_nil ih _

theorem Sentence.viable {ts : List Token} (h : Sentence ts) : Viable ts :=
  ⟨[], by rwa [List.append_nil]⟩

theorem Viable.of_append {ts us : List Token} (h : Viable (ts ++ us)) : Viable ts := by
  obtain ⟨vs, hs⟩ := h
  exact ⟨us ++ vs, by rwa [← List.append_assoc]⟩

end Calculator
