import Calculator.Proofs.Balance
import Calculator.Proofs.Replacement
import Calculator.Proofs.Value
import Calculator.Proofs.Writing

/-!
# Joining expressions

Two expressions are joined by an operator between them, with parentheses where
they are needed.  The whole then comes to what the operator makes of their
values.

Behind `+` an expression needs no parentheses, whatever its operators are.  All
its sums and differences are then calculated from the value in front of it, and
not from zero.  This comes to the same, as the last operation can always be done
last (`Derives.add`).

Texts are joined as their tokens are, since no lexeme goes on with an operator or
with a parenthesis.  `Means` puts together what is to be known of a text: its
tokens are a phrase, what this means, and how many parentheses it has open.
-/

namespace Calculator

/-! ## Phrases -/

theorem Operator.join_add_join {operator : Operator} (ho : operator = .add ∨ operator = .sub)
    (plus sign : Token) (u v w : Except Token Int) :
    Operator.add.join plus u (operator.join sign v w) =
      operator.join sign (Operator.add.join plus u v) w := by
  cases u with
  | error slash => rfl
  | ok a =>
      cases v with
      | error slash => rfl
      | ok b =>
          cases w with
          | error slash => rfl
          | ok c =>
              rcases ho with rfl | rfl
              · exact congrArg Except.ok (Int.add_assoc a b c).symm
              · exact congrArg Except.ok (Int.add_sub_assoc a b c).symm

/-- A whole expression can stand behind a plus sign. -/
theorem Derives.add {us vs : List Token} {plus : Token} {u v : Except Token Int}
    (hu : Derives .expression us u) (hp : plus.isPunctuator ['+'] = true)
    (hv : Derives .expression vs v) :
    Derives .expression (us ++ plus :: vs) (Operator.add.join plus u v) := by
  generalize hphrase : Phrase.expression = p at hv
  induction hv with
  | numeral _ => cases hphrase
  | parentheses _ _ _ _ => cases hphrase
  | factor _ _ => cases hphrase
  | product _ _ _ _ _ _ => cases hphrase
  | term hv _ => exact .sum hu hp (Or.inl rfl) hv
  | @sum ts ws sign operator v w _ hs ho hw ih _ =>
      rw [Operator.join_add_join ho, ← List.cons_append, ← List.append_assoc]
      exact .sum (ih hphrase) hs ho hw

/-! ## Parentheses -/

/-- An operator is no parenthesis. -/
theorem Stack.tally_sign {sign : Token} {operator : Operator}
    (h : sign.isPunctuator operator.text = true) :
    tally ['('] [sign] = 0 ∧ tally [')'] [sign] = 0 := by
  rw [tally_singleton h, tally_singleton h]
  cases operator with
  | add => exact ⟨rfl, rfl⟩
  | sub => exact ⟨rfl, rfl⟩
  | mul => exact ⟨rfl, rfl⟩
  | div => exact ⟨rfl, rfl⟩

theorem Stack.tally_map_moved (move : Int → Int) (text : Text) (ts : List Token) :
    tally text (ts.map (.moved move)) = tally text ts := by
  rw [tally, tally, List.countP_map]
  exact List.countP_congr fun token _ => Iff.rfl

/-- Between two rows of tokens whose parentheses are closed an operator leaves them so. -/
theorem Stack.tally_join_eq {ts us : List Token} {sign : Token} {operator : Operator}
    (hl : tally ['('] ts = tally [')'] ts) (hr : tally ['('] us = tally [')'] us)
    (hs : sign.isPunctuator operator.text = true) :
    tally ['('] (ts ++ sign :: us) = tally [')'] (ts ++ sign :: us) := by
  obtain ⟨hopen, hclose⟩ := tally_sign hs
  rw [tally_append, tally_append, tally_cons ['('] sign, tally_cons [')'] sign, hl, hr, hopen,
    hclose]

/-- The parentheses of a phrase are closed at its end. -/
theorem Derives.tally_eq {p : Phrase} {ts : List Token} {v : Except Token Int}
    (h : Derives p ts v) : Stack.tally ['('] ts = Stack.tally [')'] ts := by
  induction h with
  | @numeral token hk =>
      have hp : ∀ text, token.isPunctuator text = false :=
        Token.isPunctuator_of_ne (by rw [hk]; decide)
      simp [Stack.tally, hp]
  | @parentheses left right ts v hl _ hr ih =>
      rw [Stack.tally_cons ['('] left, Stack.tally_cons [')'] left, Stack.tally_append,
        Stack.tally_append, ih, Stack.tally_singleton hl, Stack.tally_singleton hl,
        Stack.tally_singleton hr, Stack.tally_singleton hr, if_pos rfl, if_pos rfl,
        if_neg (by decide), if_neg (by decide)]
      omega
  | factor _ ih => exact ih
  | term _ ih => exact ih
  | product _ hs _ _ ihl ihr => exact Stack.tally_join_eq ihl ihr hs
  | sum _ hs _ _ ihl ihr => exact Stack.tally_join_eq ihl ihr hs

namespace NestsFrom

theorem mono {k n m : Nat} {ts : List Token} (h : NestsFrom k n ts) (hm : n ≤ m) :
    NestsFrom k m ts :=
  fun front hp => Nat.le_trans (h front hp) (Nat.add_le_add_left hm _)

/-- Behind one more open parenthesis one more is open everywhere. -/
theorem succ {k n : Nat} {ts : List Token} (h : NestsFrom k n ts) :
    NestsFrom (k + 1) (n + 1) ts := by
  intro front hp
  have hf := h front hp
  omega

theorem join {n : Nat} {ts us : List Token} {sign : Token} {operator : Operator}
    {p : Phrase} {v : Except Token Int} (h : NestsFrom 0 n ts) (hd : Derives p ts v)
    (hs : sign.isPunctuator operator.text = true) (h' : NestsFrom 0 n us) :
    NestsFrom 0 n (ts ++ sign :: us) := by
  obtain ⟨hopen, hclose⟩ := Stack.tally_sign hs
  have he : 0 + Stack.tally [')'] [sign] = 0 + Stack.tally ['('] [sign] := by rw [hopen, hclose]
  have hsign := (singleton (Nat.zero_le n) he (Nat.zero_le n)).append he h'
  exact h.append (congrArg (0 + ·) hd.tally_eq.symm) hsign

theorem parentheses {n : Nat} {ts : List Token} {left right : Token} {p : Phrase}
    {v : Except Token Int} (h : NestsFrom 0 n ts) (hd : Derives p ts v)
    (hl : left.isPunctuator ['('] = true) (hr : right.isPunctuator [')'] = true) :
    NestsFrom 0 (n + 1) (left :: (ts ++ [right])) := by
  have hle : 1 ≤ n + 1 := Nat.le_add_left 1 n
  have hopen : 1 + Stack.tally [')'] [left] = 0 + Stack.tally ['('] [left] := by
    rw [Stack.tally_singleton hl, Stack.tally_singleton hl]
    rfl
  have hclose : 0 + Stack.tally [')'] [right] = 1 + Stack.tally ['('] [right] := by
    rw [Stack.tally_singleton hr, Stack.tally_singleton hr]
    rfl
  have hinner := h.succ.append (congrArg (1 + ·) hd.tally_eq.symm)
    (singleton hle hclose (Nat.zero_le _))
  exact (singleton (Nat.zero_le _) hopen hle).append hopen hinner

/-- Where tokens stand in a text makes no difference. -/
theorem moved {k n : Nat} {ts : List Token} (h : NestsFrom k n ts) (move : Int → Int) :
    NestsFrom k n (ts.map (.moved move)) := by
  intro front hp
  obtain ⟨front, hf, rfl⟩ := List.prefix_map_iff.1 hp
  rw [Stack.tally_map_moved, Stack.tally_map_moved]
  exact h front hf

end NestsFrom

/-! ## Lexemes -/

theorem Lexes.append {position : Nat} {front rest : Text} {us vs : List Token}
    (h : Lexes position front us) (hd : Detached rest)
    (h' : Lexes (position + front.length) rest vs) : Lexes position (front ++ rest) (us ++ vs) := by
  induction h with
  | nil => exact h'
  | @space position front lexemes _ ih =>
      rw [List.length_cons, Nat.add_comm front.length, ← Nat.add_assoc] at h'
      exact .space (ih h')
  | @token position _ _ span front lexemes hsp _ ih =>
      rw [List.length_append, ← Nat.add_assoc] at h'
      rw [List.append_assoc]
      exact .token (hsp.append_detached hd) (ih h')

/-- A text has the same lexemes at a later offset. -/
theorem Lexes.later {position : Nat} {text : Text} {ts : List Token} (h : Lexes position text ts)
    (d : Nat) : Lexes (position + d) text (ts.map (.moved (· + d))) := by
  induction h with
  | nil => exact .nil
  | space _ ih =>
      rw [Nat.add_right_comm] at ih
      exact .space ih
  | @token position kind body span rest lexemes hsp _ ih =>
      rw [Nat.add_right_comm] at ih
      exact .token hsp ih

/-! ## Texts -/

/-- `Means p n position text v`: at an offset, a text is a phrase of sort `p` that means `v`, with
at most `n` parentheses open. -/
def Means (p : Phrase) (n position : Nat) (text : Text) (v : Except Token Int) : Prop :=
  ∃ ts, Lexes position text ts ∧ Derives p ts v ∧ NestsFrom 0 n ts

/-- A text in parentheses. -/
def enclosed (text : Text) : Text := '(' :: (text ++ [')'])

namespace Means

variable {p q r : Phrase} {n position : Nat} {a b text : Text} {v w : Except Token Int} {x : Int}

theorem of_evaluate (h : evaluate text = .ok x) (hn : OpensAtMost n text) :
    Means .expression n 0 text (.ok x) := by
  obtain ⟨ts, hl, hd⟩ := exists_derives_of_evaluate h
  obtain ⟨level, hf, -⟩ := Stack.feed_of_derives hd
  have hs := Lexer.scan_of_lexes hl false
  exact ⟨ts, hl, hd, hn.nestsFrom hs hf⟩

theorem evaluate_eq (h : Means .expression 200 0 text v) :
    evaluate text = v.mapError .divisionByZero := by
  obtain ⟨ts, hl, hd, hn⟩ := h
  have ht := tokens_eq_ok_iff_lexes.2 ⟨ts, rfl, hl⟩
  exact evaluate_of_derives (opensAtMost_of_nestsFrom (tokens_eq_ok_iff.1 ht) hn) ht hd

theorem mono {m : Nat} (h : Means p n position text v) (hm : n ≤ m) : Means p m position text v := by
  obtain ⟨ts, hl, hd, hn⟩ := h
  exact ⟨ts, hl, hd, hn.mono hm⟩

theorem later (h : Means p n 0 text (.ok x)) (d : Nat) : Means p n d text (.ok x) := by
  obtain ⟨ts, hl, hd, hn⟩ := h
  have hl := hl.later d
  rw [Nat.zero_add] at hl
  exact ⟨_, hl, hd.moved _, hn.moved _⟩

theorem factor (h : Means .factor n position text v) : Means .term n position text v := by
  obtain ⟨ts, hl, hd, hn⟩ := h
  exact ⟨ts, hl, .factor hd, hn⟩

theorem term (h : Means .term n position text v) : Means .expression n position text v := by
  obtain ⟨ts, hl, hd, hn⟩ := h
  exact ⟨ts, hl, .term hd, hn⟩

theorem parentheses (h : Means .expression n (position + 1) text v) :
    Means .factor (n + 1) position (enclosed text) v := by
  obtain ⟨ts, hl, hd, hn⟩ := h
  have hright : Lexes (position + 1 + text.length) [')'] [_] :=
    .token (spells_parenthesis (Or.inr rfl) []) .nil
  have hinner := hl.append (detached_cons (by decide) []) hright
  exact ⟨_, .token (spells_parenthesis (Or.inl rfl) _) hinner, .parentheses rfl hd rfl,
    hn.parentheses hd rfl rfl⟩

/-- Two phrases are joined by an operator as the grammar joins their tokens. -/
theorem join (operator : Operator)
    (hgrammar : ∀ {ts us sign}, Derives p ts v → sign.isPunctuator operator.text = true →
      Derives q us w → Derives r (ts ++ sign :: us) (operator.join sign v w))
    (ha : Means p n position a v) (hb : Means q n (position + a.length + 1) b w) :
    Means r n position (a ++ (operator.text ++ b))
      (operator.join (.lexeme .punctuator operator.text (position + a.length)) v w) := by
  obtain ⟨ts, hl, hd, hn⟩ := ha
  obtain ⟨us, hl', hd', hn'⟩ := hb
  have hsign : (Token.lexeme .punctuator operator.text (position + a.length)).isPunctuator
      operator.text = true :=
    Token.is_iff.2 ⟨rfl, rfl⟩
  have hlength : operator.text.length = 1 := by cases operator <;> rfl
  have hdetached : Detached (operator.text ++ b) := by
    cases operator <;> exact detached_cons (by decide) b
  rw [← hlength] at hl'
  have hspells := @Symbol.spells (.sign operator) b nofun 0
  refine ⟨_, hl.append hdetached (.token hspells hl'), hgrammar hd hsign hd', ?_⟩
  exact hn.join hd hsign hn'

/-- Two expressions in parentheses are factors. -/
theorem join_enclosed {operator : Operator} (ho : operator = .mul ∨ operator = .div) {y : Int}
    (ha : Means .expression n 0 a (.ok x)) (hb : Means .expression n 0 b (.ok y)) :
    Means .expression (n + 1) 0 (enclosed a ++ (operator.text ++ enclosed b))
      (operator.apply (.lexeme .punctuator operator.text (a.length + 2)) x y) := by
  have hlength : (enclosed a).length = a.length + 2 := by simp [enclosed]
  have hleft : Means .term (n + 1) 0 (enclosed a) (.ok x) := (ha.later 1).parentheses.factor
  have hright := (hb.later (0 + (enclosed a).length + 1 + 1)).parentheses
  have hj := (join operator (fun hd hs hd' => Derives.product hd hs ho hd') hleft hright).term
  rwa [hlength, Nat.zero_add] at hj

end Means

/-- Expressions are joined as their values are.  There may be one parenthesis more. -/
theorem evaluate_joined {a b : Text} {x y : Int} (ha : evaluate a = .ok x)
    (hb : evaluate b = .ok y) (hna : OpensAtMost 199 a) (hnb : OpensAtMost 199 b) :
    evaluate (a ++ '+' :: b) = .ok (x + y) ∧
    evaluate (a ++ '-' :: enclosed b) = .ok (x - y) ∧
    evaluate (enclosed a ++ '*' :: enclosed b) = .ok (x * y) ∧
    (y ≠ 0 → evaluate (enclosed a ++ '/' :: enclosed b) = .ok (x.tdiv y)) ∧
    (y = 0 → evaluate (enclosed a ++ '/' :: enclosed b) =
      .error (.divisionByZero (.lexeme .punctuator ['/'] (a.length + 2)))) := by
  have ha := Means.of_evaluate ha hna
  have hb := Means.of_evaluate hb hnb
  have hle : 199 ≤ 200 := by omega
  have hquotient := (Means.join_enclosed (Or.inr rfl) ha hb).evaluate_eq
  refine ⟨?_, ?_, ?_, ?_, ?_⟩
  · have hsum := Means.join .add (fun hd hs hd' => hd.add hs hd') (ha.mono hle)
      ((hb.mono hle).later (0 + a.length + 1))
    exact hsum.evaluate_eq
  · have hinner := (hb.later (0 + a.length + 1 + 1)).parentheses.factor
    have hdifference := Means.join .sub
      (fun hd hs hd' => .sum hd hs (Or.inr rfl) hd') (ha.mono hle) hinner
    exact hdifference.evaluate_eq
  · exact (Means.join_enclosed (Or.inl rfl) ha hb).evaluate_eq
  · intro hy
    rw [Operator.apply, if_neg hy] at hquotient
    exact hquotient
  · intro hy
    rw [Operator.apply, if_pos hy] at hquotient
    exact hquotient

/-- The divisor has a sum of its own, and comes to zero. -/
theorem evaluate_joined_zero :
    evaluate "7-2*3".toList = .ok 1 ∧ evaluate "4-(3+1)".toList = .ok 0 ∧
    OpensAtMost 199 "7-2*3".toList ∧ OpensAtMost 199 "4-(3+1)".toList ∧
    evaluate "7-2*3+4-(3+1)".toList = .ok 1 ∧
    evaluate "(7-2*3)/(4-(3+1))".toList =
      .error (.divisionByZero (.lexeme .punctuator ['/'] 7)) := by
  have ha : evaluate "7-2*3".toList = .ok 1 := by with_unfolding_all rfl
  have hb : evaluate "4-(3+1)".toList = .ok 0 := by with_unfolding_all rfl
  have hna : OpensAtMost 199 "7-2*3".toList := opensAtMost_of_length_le (by decide)
  have hnb : OpensAtMost 199 "4-(3+1)".toList := opensAtMost_of_length_le (by decide)
  have h := evaluate_joined ha hb hna hnb
  exact ⟨ha, hb, hna, hnb, h.1, h.2.2.2.2 rfl⟩

end Calculator
