import Calculator.Proofs.Nesting
import Calculator.Proofs.SyntaxFault

/-!
# Which fault comes first

The tokens of a text are taken from left to right, each with one token of
lookahead.  So where several things are wrong the first one wins, and it is
known from the tokens alone which one that is.

* A division by zero is found when the token behind its divisor has been read.
  It wins over everything that is wrong from that token on.
* A token that cannot be read is found when the token in front of it is
  accepted.  It wins over a division by zero that is complete just there, and
  over nothing in front.
* A token that is refused is found once it is the current one.  A division by
  zero complete in front of it wins over it.

Each of the three is said below without the machine, in terms of what can begin
a sentence.  That they exclude each other is not needed: the tokens are fed to
a stack, and what becomes of that is only one thing.
-/

namespace Calculator

theorem take_length_succ (us rest : List Token) (token : Token) :
    (us ++ token :: rest).take (us.length + 1) = us ++ [token] := by
  rw [List.take_length_add_append]
  rfl

/-- No division by zero is complete behind fewer than `m` of some tokens. -/
def NoZeroDivision (ts : List Token) (m : Nat) : Prop :=
  ∀ k < m, ∀ slash, ¬ CompletesZeroDivision (ts.take k) slash

theorem noZeroDivision_of_feed {stack : Stack} {ts : List Token}
    (h : (Stack.start .expression).feed ts = .ok stack) (rest : List Token) :
    NoZeroDivision (ts ++ rest) (ts.length + 1) := by
  intro k hk slash
  rw [List.take_append_of_le_length (Nat.le_of_lt_succ hk)]
  exact Stack.not_completesZeroDivision_take h k slash

/-- What begins a sentence is accepted in front of the first division by zero. -/
theorem feed_of_noZeroDivision {ts rest : List Token} (hv : Viable ts)
    (hn : NoZeroDivision (ts ++ rest) (ts.length + 1)) :
    ∃ stack, (Stack.start .expression).feed ts = .ok stack := by
  apply Stack.feed_of_viable_of_not_completes hv
  intro k hk slash hc
  refine hn k (Nat.lt_succ_of_le hk) slash ?_
  rwa [List.take_append_of_le_length hk]

/-- An accepted token goes on with what can begin a sentence. -/
theorem viable_of_accepts {stack : Stack} {ts : List Token} {token : Token}
    (h : (Stack.start .expression).feed ts = .ok stack) (ha : stack.Accepts token) :
    Viable (ts ++ [token]) := by
  cases hs : stack.shift token with
  | ok next => exact Stack.viable_of_feed ((Stack.feed_concat h token).trans hs)
  | error fault =>
      obtain ⟨slash, rfl⟩ := ha fault hs
      exact (Stack.completesZeroDivision_of_shift h hs).1

/-! ## Division by zero -/

theorem zeroDivision_of_verdict {limit : Option Nat} {text : Text} {slash : Token}
    (h : Verdict limit text (.error (.divisionByZero slash))) :
    ∃ n < (scan text).1.length, CompletesZeroDivision ((scan text).1.take n) slash ∧
      NoZeroDivision (scan text).1 n := by
  cases h with
  | @divided us rest token next _ stop stack hs hf hsh =>
      rw [hs]
      refine ⟨us.length + 1, by simp, ?_, noZeroDivision_of_feed hf _⟩
      rw [take_length_succ]
      exact Stack.completesZeroDivision_of_shift hf hsh
  | refused _ _ _ hr _ => exact absurd rfl (hr.ne_divisionByZero slash)
  | unreadFirst hs => cases Lexer.scan_fault (congrArg Prod.snd hs)
  | unread hs _ _ => cases Lexer.scan_fault (congrArg Prod.snd hs)

theorem eq_of_zeroDivision {text : Text} {answer : Except Fault Int} {slash : Token} {n : Nat}
    (h : Verdict none text answer) (hlt : n < (scan text).1.length)
    (hc : CompletesZeroDivision ((scan text).1.take n) slash)
    (hn : NoZeroDivision (scan text).1 n) : answer = .error (.divisionByZero slash) := by
  have hf : (Stack.start .expression).feed (scan text).1 = .error (.divisionByZero slash) := by
    have htake : (Stack.start .expression).feed ((scan text).1.take n) =
        .error (.divisionByZero slash) := by
      apply Stack.feed_of_completesZeroDivision hc
      intro k hk s hs
      rw [List.length_take_of_le (Nat.le_of_lt hlt)] at hk
      rw [List.take_take, Nat.min_eq_left (Nat.le_of_lt hk)] at hs
      exact hn k hk s hs
    rw [← List.take_append_drop n (scan text).1, Stack.feed_append, htake]
    rfl
  cases h with
  | value hs hf' =>
      rw [hs] at hlt hc
      exact absurd hc (noZeroDivision_of_feed hf' _ n (by simpa using hlt) slash)
  | @refused us rest token stop stack fault hs hf' hsh hr _ =>
      rw [hs] at hf
      cases hf.symm.trans (Stack.feed_error_of_shift hf' hsh rest)
      exact absurd rfl (hr.ne_divisionByZero slash)
  | @divided us rest token next slash' stop stack hs hf' hsh =>
      rw [hs] at hf
      cases hf.symm.trans (Stack.feed_error_of_shift hf' hsh (next :: rest))
      rfl
  | unreadFirst hs =>
      rw [hs] at hlt
      cases hlt
  | unread hs hf' _ =>
      rw [hs] at hlt hc
      exact absurd hc (noZeroDivision_of_feed hf' _ n (by simpa using hlt) slash)
  | tooDeep _ _ hm _ => cases hm

/-! ## Tokens that cannot be read -/

theorem unread_of_verdict {limit : Option Nat} {text : Text} {fault : Fault}
    (h : Verdict limit text (.error fault)) (hl : fault.isLexical = true) :
    (scan text).2 = some fault ∧ Viable (scan text).1 ∧
      NoZeroDivision (scan text).1 (scan text).1.length := by
  cases h with
  | refused _ _ _ hr _ => cases hl.symm.trans hr.isLexical_eq
  | divided _ _ _ => cases hl
  | unreadFirst hs =>
      rw [hs]
      exact ⟨rfl, Stack.viable_of_feed (Stack.feed_nil _), nofun⟩
  | unread hs hf ha =>
      rw [hs]
      refine ⟨rfl, viable_of_accepts hf ha, ?_⟩
      rw [List.length_append]
      exact noZeroDivision_of_feed hf _
  | tooDeep _ _ _ _ => cases hl

theorem eq_of_unread {text : Text} {answer : Except Fault Int} {fault : Fault}
    (h : Verdict none text answer) (hs : (scan text).2 = some fault)
    (hv : Viable (scan text).1) (hn : NoZeroDivision (scan text).1 (scan text).1.length) :
    answer = .error fault := by
  cases h with
  | value hs' _ =>
      rw [hs'] at hs
      cases hs
  | @refused us rest token stop stack fault' hs' hf hsh hr _ =>
      rw [hs', List.append_cons] at hv
      exact absurd hv.of_append (Stack.not_viable_of_shift hf hsh hr.ne_divisionByZero)
  | @divided us rest token next slash stop stack hs' hf hsh =>
      rw [hs'] at hn
      refine absurd (Stack.completesZeroDivision_of_shift hf hsh) ?_
      have hc := hn (us.length + 1) (by simp) slash
      rwa [take_length_succ] at hc
  | unreadFirst hs' =>
      rw [hs'] at hs
      cases hs
      rfl
  | unread hs' _ _ =>
      rw [hs'] at hs
      cases hs
      rfl
  | tooDeep _ _ hm _ => cases hm

/-! ## Tokens that are refused -/

theorem misplaced_of_verdict {limit : Option Nat} {text : Text} {token : Token} {fault : Fault}
    (h : Verdict limit text (.error fault)) (hr : fault.Refuses token) :
    ∃ before after, (scan text).1 = before ++ token :: after ∧ Misplaced before token ∧
      NoZeroDivision (scan text).1 (before.length + 1) := by
  obtain ⟨before, after, stack, ht, hf, hsh, hk⟩ := h.exists_shift hr
  rw [ht]
  exact ⟨before, after, rfl, misplaced_of_shift hf hsh hr hk, noZeroDivision_of_feed hf _⟩

theorem refused_of_misplaced {text : Text} {answer : Except Fault Int} {before after : List Token}
    {token : Token} (h : Verdict none text answer)
    (ht : (scan text).1 = before ++ token :: after) (hm : Misplaced before token)
    (hn : NoZeroDivision (scan text).1 (before.length + 1)) :
    ∃ fault, fault.Refuses token ∧ answer = .error fault := by
  rw [ht] at hn
  obtain ⟨stack, hf⟩ := feed_of_noZeroDivision hm.viable hn
  obtain ⟨fault, hsh, hr⟩ := hm.exists_shift hf
  have hall := Stack.feed_error_of_shift hf hsh after
  rw [← ht] at hall
  cases h with
  | @value us last level hs hf' =>
      rw [hs] at ht
      rcases concat_split ht with ⟨rfl, rfl⟩ | ⟨between, rfl⟩
      · exact absurd ⟨_, Stack.derives_of_feed hf'⟩ (hm.not_sentence (scan_end hs).1)
      · cases hf'.symm.trans (Stack.feed_error_of_shift hf hsh between)
  | @refused us rest token' stop stack' fault' hs hf' hsh' hr' _ =>
      rw [hs] at hall
      cases hall.symm.trans (Stack.feed_error_of_shift hf' hsh' rest)
      exact ⟨fault, hr, rfl⟩
  | @divided us rest token' next slash stop stack' hs hf' hsh' =>
      rw [hs] at hall
      cases hall.symm.trans (Stack.feed_error_of_shift hf' hsh' (next :: rest))
      exact absurd rfl (hr.ne_divisionByZero slash)
  | unreadFirst hs =>
      rw [hs] at ht
      exact absurd ht.symm (List.append_ne_nil_of_right_ne_nil _ (List.cons_ne_nil _ _))
  | @unread us token' stack' fault' hs hf' ha =>
      rw [hs] at ht
      rcases concat_split ht with ⟨rfl, rfl⟩ | ⟨between, rfl⟩
      · cases hf.symm.trans hf'
        obtain ⟨slash, rfl⟩ := ha fault hsh
        exact absurd rfl (hr.ne_divisionByZero slash)
      · cases hf'.symm.trans (Stack.feed_error_of_shift hf hsh between)
  | tooDeep _ _ hm _ => cases hm

/-! ## The first fault -/

/-- Which of several faults is the answer. -/
theorem evaluate_first_fault {text : Text} (h : OpensAtMost 200 text) :
    (∀ slash, evaluate text = .error (.divisionByZero slash) ↔
      ∃ n < (scan text).1.length, CompletesZeroDivision ((scan text).1.take n) slash ∧
        NoZeroDivision (scan text).1 n) ∧
    (∀ fault, evaluate text = .error fault ∧ fault.isLexical = true ↔
      tokens text = .error fault ∧ Viable (scan text).1 ∧
        NoZeroDivision (scan text).1 (scan text).1.length) ∧
    ∀ token, (∃ fault, fault.Refuses token ∧ evaluate text = .error fault) ↔
      ∃ before after, (scan text).1 = before ++ token :: after ∧ Misplaced before token ∧
        NoZeroDivision (scan text).1 (before.length + 1) := by
  have hv := h.verdict (by decide)
  refine ⟨fun slash => ⟨?_, ?_⟩, fun fault => ⟨?_, ?_⟩, fun token => ⟨?_, ?_⟩⟩
  · intro he
    rw [he] at hv
    exact zeroDivision_of_verdict hv
  · rintro ⟨n, hlt, hc, hn⟩
    exact eq_of_zeroDivision hv hlt hc hn
  · rintro ⟨he, hl⟩
    rw [he] at hv
    rw [tokens_eq_error_iff]
    exact unread_of_verdict hv hl
  · rintro ⟨ht, hviable, hn⟩
    rw [tokens_eq_error_iff] at ht
    exact ⟨eq_of_unread hv ht hviable hn, Lexer.scan_fault ht⟩
  · rintro ⟨fault, hr, he⟩
    rw [he] at hv
    exact misplaced_of_verdict hv hr
  · rintro ⟨before, after, ht, hm, hn⟩
    exact refused_of_misplaced hv ht hm hn

/-- A token that cannot be read wins over the division by zero in front of it. -/
theorem evaluate_unread_behind_zero :
    OpensAtMost 200 "1/0?".toList ∧
      evaluate "1/0?".toList = .error (.unrecognizedCharacter 3 ['?']) := by
  have h : OpensAtMost 200 "1/0?".toList := opensAtMost_of_length_le (by decide)
  have hs : scan "1/0?".toList =
      ([.lexeme .numeric ['1'] 0, .lexeme .punctuator ['/'] 1, .lexeme .numeric ['0'] 2],
        some (.unrecognizedCharacter 3 ['?'])) := by decide +kernel
  have hd := @Derives.product [.lexeme .numeric ['1'] 0] [.lexeme .numeric ['0'] 2]
    (.lexeme .punctuator ['/'] 1) .div _ _ (.factor (.numeral rfl)) rfl (Or.inr rfl) (.numeral rfl)
  have hn := @noZeroDivision_of_feed _ [.lexeme .numeric ['1'] 0, .lexeme .punctuator ['/'] 1] rfl
    [.lexeme .numeric ['0'] 2]
  refine ⟨h, (((evaluate_first_fault h).2.1 _).2 ⟨tokens_eq_error_iff.2 ?_, ?_, ?_⟩).1⟩
  · rw [hs]
  · rw [hs]
    exact Sentence.viable ⟨_, .term hd⟩
  · rw [hs]
    exact hn

end Calculator
