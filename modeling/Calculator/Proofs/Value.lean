import Calculator.Proofs.Nesting

/-!
# The value of an expression

The calculation gives an expression the value that the grammar gives it, or the
division sign of its first division by zero.  It gives nothing a value that is
not an expression.

Both directions go through the stack of the machine.  A derivation says what
becomes of a stack fed with its tokens, so no other verdict is possible, and a
stack at rest outside all parentheses has read what its level has as value.
-/

namespace Calculator

/-- An expression without a fault in its tokens has the value of any of its derivations. -/
theorem evaluate_of_derives {text : Text} {ts : List Token} {last : Token}
    {v : Except Token Int} (h : OpensAtMost 200 text) (ht : tokens text = .ok (ts ++ [last]))
    (hd : Derives .expression ts v) : evaluate text = v.mapError .divisionByZero := by
  have hscan := tokens_eq_ok_iff.1 ht
  have hv := h.verdict (by decide)
  generalize evaluate text = answer at hv ⊢
  cases hv with
  | value hs hf =>
      have he := congrArg Prod.fst (hscan.symm.trans hs)
      obtain ⟨rfl, -⟩ := List.append_inj' he rfl
      rw [hd.unique (Stack.derives_of_feed hf)]
      rfl
  | @refused us rest token stop stack fault hs hf hsh hr hk =>
      exfalso
      have hnv := Stack.not_viable_of_shift hf hsh hr.ne_divisionByZero
      rcases concat_split (congrArg Prod.fst (hscan.symm.trans hs)) with ⟨rfl, rfl⟩ | ⟨between, rfl⟩
      · have hc := (Stack.sentence_iff_of_feed hf).1 ⟨v, hd⟩
        exact hk (scan_end hscan).1 ((Stack.eq_trailingInput_iff hsh hr).2 hc)
      · have hv : Viable (us ++ token :: between) := Sentence.viable ⟨v, hd⟩
        rw [List.append_cons] at hv
        exact hnv hv.of_append
  | divided hs hf hsh =>
      rcases concat_split (congrArg Prod.fst (hscan.symm.trans hs)) with ⟨-, rfl⟩ | ⟨between, rfl⟩
      · exact absurd (scan_end hscan).1 (Stack.accepts_of_shift_error hsh).kind_ne
      · exact (Stack.mapError_eq_of_feed hd (Stack.feed_error_of_shift hf hsh between)).symm
  | unreadFirst hs => cases congrArg Prod.snd (hscan.symm.trans hs)
  | unread hs _ _ => cases congrArg Prod.snd (hscan.symm.trans hs)
  | tooDeep _ _ hm _ => cases hm

/-- Expressions are calculated as the grammar says, and nothing else has a value. -/
theorem evaluate_meets_grammar {text : Text} (h : OpensAtMost 200 text) :
    (∀ ts last v, tokens text = .ok (ts ++ [last]) → Derives .expression ts v →
      evaluate text = v.mapError .divisionByZero) ∧
    (∀ x, evaluate text = .ok x → ∃ ts last, tokens text = .ok (ts ++ [last]) ∧
      last.kind = .endOfText ∧ Derives .expression ts (.ok x)) ∧
    ∀ ts v w, Derives .expression ts v → Derives .expression ts w → v = w := by
  refine ⟨?_, ?_, fun ts v w hv hw => hv.unique hw⟩
  · intro ts last v ht hd
    exact evaluate_of_derives h ht hd
  · intro x hx
    have hv := h.verdict (by decide)
    rw [hx] at hv
    cases hv with
    | @value ts last level hs hf =>
        exact ⟨ts, last, tokens_eq_ok_iff.2 hs, (scan_end hs).1, Stack.derives_of_feed hf⟩

/-- A divisor that is zero only once it is calculated. -/
theorem evaluate_zero_difference :
    OpensAtMost 200 "8-7/(2-2)".toList ∧ evaluate "8-7/(2-2)".toList =
      .error (.divisionByZero (.lexeme .punctuator ['/'] 3)) := by
  have h : OpensAtMost 200 "8-7/(2-2)".toList := opensAtMost_of_length_le (by decide)
  have hzero : Derives .expression
      [.lexeme .numeric ['2'] 5, .lexeme .punctuator ['-'] 6, .lexeme .numeric ['2'] 7] (.ok 0) :=
    @Derives.sum [_] [_] _ .sub _ _ (.term (.factor (.numeral rfl))) rfl (Or.inr rfl)
      (.factor (.numeral rfl))
  have hquotient := @Derives.product [.lexeme .numeric ['7'] 2] _ (.lexeme .punctuator ['/'] 3) .div
    _ _ (.factor (.numeral rfl)) rfl (Or.inr rfl)
    (@Derives.parentheses (.lexeme .punctuator ['('] 4) (.lexeme .punctuator [')'] 8) _ _
      rfl hzero rfl)
  have hd := @Derives.sum [.lexeme .numeric ['8'] 0] _ (.lexeme .punctuator ['-'] 1) .sub _ _
    (.term (.factor (.numeral rfl))) rfl (Or.inr rfl) hquotient
  exact ⟨h, (evaluate_meets_grammar h).1 _ (.endOfText 9) _
    (tokens_eq_ok_iff.2 (by decide +kernel)) hd⟩

end Calculator
