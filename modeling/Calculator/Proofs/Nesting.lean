import Calculator.Proofs.Cutting
import Calculator.Proofs.Prefix
import Calculator.Proofs.Run

/-!
# Nesting

How many parentheses are open somewhere in a text can be counted without
calculating anything.  The calculation never has more open than that.

The levels of a stack are the parentheses it was fed with, opened and not closed
(`Stack.length_outer_of_feed`).  What it was fed with are the tokens of some
front of the text (`exists_lexes_of_scan_append`), and in a front made of
punctuators and numerals each parenthesis is a token (`Lexes.count_eq`).
-/

namespace Calculator

/-- `NestsAtMost n text`: nowhere in a text are more than `n` parentheses open. -/
def NestsAtMost (n : Nat) (text : Text) : Prop :=
  ∀ front, front <+: text → front.count '(' ≤ front.count ')' + n

theorem nestsAtMost_of_length_le {n : Nat} {text : Text} (h : text.length ≤ n) :
    NestsAtMost n text := by
  intro front hp
  have hc := @List.count_le_length _ _ '(' front
  have hl := hp.length_le
  omega

/-! ## Parentheses of a stack -/

/-- A token with a text is a punctuator of this text at most. -/
theorem Token.isPunctuator_eq {token : Token} {text : Text} (h : token.isPunctuator text = true)
    (other : Text) : token.isPunctuator other = decide (text = other) := by
  obtain ⟨hk, rfl⟩ := Token.is_iff.1 h
  simp [isPunctuator, is, hk, beq_eq_decide]

theorem Token.isPunctuator_of_ne {token : Token} (h : token.kind ≠ .punctuator) (text : Text) :
    token.isPunctuator text = false := by
  simp [isPunctuator, is, h]

namespace Stack

/-- How many of the tokens are a certain punctuator. -/
def tally (text : Text) (ts : List Token) : Nat := ts.countP fun token => token.isPunctuator text

theorem length_outer_of_shift {stack next : Stack} {token : Token}
    (h : stack.shift token = .ok next) :
    next.outer.length + tally [')'] [token] = stack.outer.length + tally ['('] [token] := by
  have hc := shifts stack token
  rw [h] at hc
  simp only [tally, List.countP_singleton]
  cases hc with
  | opens hp => simp [Token.isPunctuator_eq hp]
  | numeral hk ho =>
      have hn : token.kind ≠ .punctuator := by
        rw [hk]
        decide
      simp [Token.isPunctuator_of_ne hn, (eq_of_operand ho).2]
  | @operator _ _ _ operator ht _ => cases operator <;> simp [Token.isPunctuator_eq ht, Operator.text]
  | closes hp ho => simp [Token.isPunctuator_eq hp, (eq_of_operand ho).2]

/-- The levels around the innermost one are the parentheses that are open. -/
theorem length_outer_of_feed {start stack : Stack} {ts : List Token}
    (h : start.feed ts = .ok stack) :
    stack.outer.length + tally [')'] ts = start.outer.length + tally ['('] ts := by
  induction ts generalizing start with
  | nil =>
      cases h
      rfl
  | cons token ts ih =>
      cases hs : start.shift token with
      | error fault =>
          rw [feed_cons, hs] at h
          cases h
      | ok next =>
          rw [feed_cons, hs] at h
          have hf := ih h
          have hn := length_outer_of_shift hs
          simp only [tally, List.countP_cons, List.countP_nil] at hf hn ⊢
          omega

end Stack

/-! ## Parentheses of a text -/

/-- The tokens in front of another one are those of a front of the text. -/
theorem exists_lexes_of_scan_append {text : Text} {ts rest : List Token} {token : Token}
    {stop : Option Fault} (h : scan text = (ts ++ token :: rest, stop)) :
    ∃ front, front <+: text ∧ Lexes 0 front ts := by
  obtain ⟨front, tail, lexemes, rfl, hx, -, hl⟩ := exists_lexes_to_token h
  rcases hl with rfl | ⟨rfl, -⟩
  · obtain ⟨first, span, last, rfl, hfirst, -⟩ := hx.exists_span
    rw [List.append_assoc]
    exact ⟨first, List.prefix_append .., hfirst⟩
  · exact ⟨front, List.prefix_append .., hx⟩

theorem spells_parenthesis {c : Char} (h : c = '(' ∨ c = ')') (rest : Text) :
    Spells .punctuator [c] [c] rest := by
  refine .single ?_ ?_
  · rcases h with rfl | rfl <;> decide
  · rcases h with rfl | rfl <;> rintro (h | h) <;> cases h

/-- A span that is no string literal has a parenthesis in it if it is one. -/
theorem Spells.count_eq {token : Token} {span rest : Text} {c : Char}
    (h : Spells token.kind token.text span rest)
    (hk : token.kind = .punctuator ∨ token.kind = .numeric) (hc : c = '(' ∨ c = ')') :
    span.count c = if token.isPunctuator [c] then 1 else 0 := by
  obtain ⟨kind, text, location, length⟩ := token
  simp only [Token.isPunctuator, Token.is] at *
  have hd : c.isDigit = false := by rcases hc with rfl | rfl <;> decide
  have hp : ¬ (c = '&' ∨ c = '|') := by rcases hc with rfl | rfl <;> decide
  cases h with
  | numeral _ hall _ =>
      rw [List.count_eq_zero.2 fun hm => Bool.eq_false_iff.1 hd (hall c hm)]
      rfl
  | @pair c' _ hc' =>
      have hne : c' ≠ c := fun he => hp (he ▸ hc')
      simp [hne]
  | @single c' _ _ _ => simp [List.count_singleton]
  | literal _ _ => rcases hk with hk | hk <;> cases hk

/-- In a text of punctuators and numerals the parentheses are tokens. -/
theorem Lexes.count_eq {position : Nat} {text : Text} {ts : List Token} {c : Char}
    (h : Lexes position text ts)
    (hk : ∀ token ∈ ts, token.kind = .punctuator ∨ token.kind = .numeric)
    (hc : c = '(' ∨ c = ')') : text.count c = Stack.tally [c] ts := by
  induction h with
  | nil => rfl
  | space _ ih =>
      rw [List.count_cons_of_ne (by rcases hc with rfl | rfl <;> decide)]
      exact ih hk
  | @token position kind body span rest lexemes hsp _ ih =>
      obtain ⟨hkt, hk⟩ := List.forall_mem_cons.1 hk
      rw [List.count_append, ih hk,
        @Spells.count_eq ⟨kind, body, position, span.length⟩ span rest c hsp hkt hc, Nat.add_comm]
      exact (List.countP_cons ..).symm

/-- A calculation has no more parentheses open than the text does somewhere. -/
theorem opensAtMost_of_nestsAtMost {n : Nat} {text : Text} (h : NestsAtMost n text) :
    OpensAtMost n text := by
  intro reader ho ts state hr
  have hf : (Stack.start .expression).feed ts = .ok state.stack := hr.feed
  have ha := (Reader.ahead_of_ofText ho).symm.trans hr.ahead
  obtain ⟨rest, hrest⟩ := state.reader.exists_ahead_eq
  rw [hrest] at ha
  obtain ⟨front, hp, hx⟩ := exists_lexes_of_scan_append ha
  obtain ⟨us, v, hd⟩ := Stack.viable_of_feed hf
  have hk : ∀ token ∈ ts, token.kind = .punctuator ∨ token.kind = .numeric :=
    fun token hm => hd.kind_of_mem token (List.mem_append_left us hm)
  have hn := h front hp
  have hl := Stack.length_outer_of_feed hf
  rw [hx.count_eq hk (Or.inl rfl), hx.count_eq hk (Or.inr rfl)] at hn
  change state.outer.length + _ = 0 + _ at hl
  omega

/-- No more parentheses are open than there are characters. -/
theorem opensAtMost_of_length_le {n : Nat} {text : Text} (h : text.length ≤ n) :
    OpensAtMost n text :=
  opensAtMost_of_nestsAtMost (nestsAtMost_of_length_le h)

theorem opensAtMost_of_not_mem {text : Text} (h : '(' ∉ text) (n : Nat) : OpensAtMost n text := by
  refine opensAtMost_of_nestsAtMost fun front hp => ?_
  rw [List.count_eq_zero.2 fun hm => h (hp.subset hm)]
  exact Nat.zero_le _

end Calculator
