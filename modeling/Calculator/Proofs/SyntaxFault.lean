import Calculator.Proofs.Prefix
import Calculator.Proofs.Run

/-!
# Faults of the phrase

A token is refused as soon as no sentence goes on with it.  Whatever stands in
front of a refused token begins a sentence, so the blame is never laid too
late, and with the token it begins none, so it is never laid too early.  The
end of the text is refused where what stands in front is no sentence yet.

What was expected is known from the last token in front.

* Behind a numeral or a closing parenthesis stands a complete operand.  If no
  parenthesis is open a sentence is complete, and the token is trailing.
  Otherwise a closing parenthesis is expected.
* Behind an opening parenthesis or an operator, and in front of everything, an
  operand comes next.  A numeral is expected.

None of this depends on how many parentheses may be open.
-/

namespace Calculator

/-! ## Tokens out of place -/

/-- A token is out of place behind other tokens: a sentence can begin with those, but none does
with the token as well, and the end of the text does not complete one. -/
structure Misplaced (before : List Token) (token : Token) : Prop where
  viable : Viable before
  not_viable : ¬ Viable (before ++ [token])
  not_sentence : token.kind = .endOfText → ¬ Sentence before

/-- A token that is refused is out of place.  At the end of the text nothing is trailing. -/
theorem misplaced_of_shift {stack : Stack} {ts : List Token} {token : Token} {fault : Fault}
    (hf : (Stack.start .expression).feed ts = .ok stack)
    (hs : stack.shift token = .error fault) (hr : fault.Refuses token)
    (hk : token.kind = .endOfText → fault ≠ .trailingInput token) : Misplaced ts token where
  viable := Stack.viable_of_feed hf
  not_viable := Stack.not_viable_of_shift hf hs hr.ne_divisionByZero
  not_sentence he hsent :=
    hk he ((Stack.eq_trailingInput_iff hs hr).2 ((Stack.sentence_iff_of_feed hf).1 hsent))

/-- A token that is out of place is refused. -/
theorem Misplaced.exists_shift {stack : Stack} {ts : List Token} {token : Token}
    (h : Misplaced ts token) (hf : (Stack.start .expression).feed ts = .ok stack) :
    ∃ fault, stack.shift token = .error fault ∧ fault.Refuses token := by
  cases hs : stack.shift token with
  | ok next =>
      have hn := (Stack.feed_concat hf token).trans hs
      exact absurd (Stack.viable_of_feed hn) h.not_viable
  | error fault =>
      rcases Stack.shift_error hs with ⟨slash, rfl⟩ | hr
      · exact absurd (Stack.completesZeroDivision_of_shift hf hs).1 h.not_viable
      · exact ⟨fault, rfl, hr⟩

/-! ## Expectations -/

namespace Token

/-- Whether a token is the last one of an operand. -/
def EndsOperand (token : Token) : Prop :=
  token.kind = .numeric ∨ token.isPunctuator [')'] = true

/-- Whether an operand comes behind a token. -/
def AwaitsOperand (token : Token) : Prop :=
  token.isPunctuator ['('] = true ∨ ∃ operator : Operator, token.isPunctuator operator.text = true

theorem EndsOperand.not_awaits {token : Token} (h : token.EndsOperand) :
    ¬ token.AwaitsOperand := by
  have hother : ∀ {text}, token.isPunctuator text = true → text ≠ [')'] → False := by
    intro text hp hne
    obtain ⟨hk, ht⟩ := is_iff.1 hp
    rcases h with hn | hc
    · cases hk.symm.trans hn
    · exact hne (ht.symm.trans (is_iff.1 hc).2)
  rintro (hp | ⟨operator, hp⟩)
  · exact hother hp (by decide)
  · exact hother hp (by cases operator <;> decide)

end Token

/-- The last token that a stack was fed with decides what comes next. -/
theorem Stack.phase_of_feed {stack : Stack} {ts : List Token}
    (h : (start .expression).feed ts = .ok stack) :
    (stack.phase = .operator ∧ ∃ last ∈ ts.getLast?, last.EndsOperand) ∨
      (stack.phase = .operand ∧ ∀ last ∈ ts.getLast?, last.AwaitsOperand) := by
  rcases ts.eq_nil_or_concat with rfl | ⟨us, last, rfl⟩
  · cases h
    exact Or.inr ⟨rfl, nofun⟩
  · rw [List.concat_eq_append] at h ⊢
    rw [List.getLast?_concat]
    obtain ⟨before, -, hs⟩ := feed_ok_of_append h
    rw [feed_singleton] at hs
    have hc := shifts before last
    rw [hs] at hc
    cases hc with
    | opens hp =>
        refine Or.inr ⟨rfl, ?_⟩
        rintro _ ⟨⟩
        exact Or.inl hp
    | operator hp _ =>
        refine Or.inr ⟨rfl, ?_⟩
        rintro _ ⟨⟩
        exact Or.inr ⟨_, hp⟩
    | numeral hk ho => exact Or.inl ⟨(eq_of_operand ho).1, last, rfl, Or.inl hk⟩
    | closes hp ho => exact Or.inl ⟨(eq_of_operand ho).1, last, rfl, Or.inr hp⟩

theorem Stack.phase_operator_iff {stack : Stack} {ts : List Token}
    (h : (start .expression).feed ts = .ok stack) :
    stack.phase = .operator ↔ ∃ last ∈ ts.getLast?, last.EndsOperand := by
  rcases phase_of_feed h with ⟨hp, he⟩ | ⟨hp, ha⟩
  · exact ⟨fun _ => he, fun _ => hp⟩
  · refine ⟨fun hp' => (nomatch hp.symm.trans hp'), ?_⟩
    rintro ⟨last, hl, he⟩
    exact absurd (ha last hl) he.not_awaits

theorem Stack.phase_operand_iff {stack : Stack} {ts : List Token}
    (h : (start .expression).feed ts = .ok stack) :
    stack.phase = .operand ↔ ∀ last ∈ ts.getLast?, last.AwaitsOperand := by
  rcases phase_of_feed h with ⟨hp, last, hl, he⟩ | ⟨hp, ha⟩
  · refine ⟨fun hp' => (nomatch hp.symm.trans hp'), ?_⟩
    intro ha
    exact absurd (ha last hl) he.not_awaits
  · exact ⟨fun _ => ha, fun _ => hp⟩

/-- What a fault says about a token that is out of place. -/
structure Fault.Explains (fault : Fault) (before : List Token) (token : Token) : Prop where
  misplaced : Misplaced before token
  /-- The token is trailing where a sentence is complete. -/
  trailing : fault = .trailingInput token ↔ Sentence before
  /-- A closing parenthesis is expected behind an operand otherwise. -/
  no_close : fault = .unexpectedToken token .punctuator (some [')']) ↔
    ¬ Sentence before ∧ ∃ last ∈ before.getLast?, last.EndsOperand
  /-- An operand is expected everywhere else. -/
  no_operand : fault = .unexpectedToken token .numeric none ↔
    ∀ last ∈ before.getLast?, last.AwaitsOperand

theorem explains_of_shift {stack : Stack} {ts : List Token} {token : Token} {fault : Fault}
    (hf : (Stack.start .expression).feed ts = .ok stack)
    (hs : stack.shift token = .error fault) (hr : fault.Refuses token)
    (hk : token.kind = .endOfText → fault ≠ .trailingInput token) : fault.Explains ts token where
  misplaced := misplaced_of_shift hf hs hr hk
  trailing := by
    rw [Stack.sentence_iff_of_feed hf]
    exact Stack.eq_trailingInput_iff hs hr
  no_close := by
    rw [Stack.sentence_iff_of_feed hf, ← Stack.phase_operator_iff hf]
    rcases Stack.refusal_cases hs hr with ⟨hp, rfl⟩ | ⟨hp, ho, rfl⟩ | ⟨hp, ho, rfl⟩
    · simp [hp]
    · simp [hp, ho]
    · simp [hp, ho]
  no_operand := by
    rw [← Stack.phase_operand_iff hf]
    rcases Stack.refusal_cases hs hr with ⟨hp, rfl⟩ | ⟨hp, -, rfl⟩ | ⟨hp, -, rfl⟩
    · simp [hp]
    · simp [hp]
    · simp [hp]

/-! ## Correct prefixes -/

/-- A token is refused behind a correct prefix, and the fault says what could have followed. -/
theorem evaluate_correct_prefix {text : Text} {token : Token} {fault : Fault}
    (h : evaluate text = .error fault) (hr : fault.Refuses token) :
    ∃ before after, (scan text).1 = before ++ token :: after ∧ fault.Explains before token := by
  have hv : Verdict (some openLimit) text (evaluate text) := verdict (some openLimit) text
  rw [h] at hv
  obtain ⟨before, after, stack, ht, hf, hsh, hk⟩ := hv.exists_shift hr
  exact ⟨before, after, ht, explains_of_shift hf hsh hr hk⟩

/-- The second of two signs is refused, whatever is wrong behind it. -/
theorem evaluate_two_signs :
    ∃ before after, (scan "(1+*2".toList).1 =
        before ++ .lexeme .punctuator ['*'] 3 :: after ∧
      (Fault.unexpectedToken (.lexeme .punctuator ['*'] 3) .numeric none).Explains before
        (.lexeme .punctuator ['*'] 3) :=
  evaluate_correct_prefix (by with_unfolding_all rfl) (Or.inl ⟨_, _, rfl⟩)

end Calculator
