import Calculator.Proofs.Stack

/-!
# What a stack has read

The levels of a stack cut what it was fed into pieces, with an opening
parenthesis between any two of them.  `Level.Holds` says what one piece is.

* In front of the term in progress stands nothing, or an expression and a sign.
  All that matters is that a term behind it makes a phrase of the level, with
  the value that the level computes from the term (`Level.Leads`).
* The term in progress is not begun, or stands before `*` or `/` with the
  product so far as its value, or is complete up to here.

`Stack.Holds` puts the pieces together, and `Holds.shift` is its preservation
by one token.  Three things follow for any list of tokens that can be fed
without a failure.

* It begins a sentence (`viable_of_feed`).  What is missing is an operand where
  one comes next, and then the closing parentheses.
* Where the stack waits for an operator outside all parentheses, it is a phrase
  with the value of the level (`derives_of_feed`).
* If one more token makes a division fail, this token ends a factor of value
  zero behind the division sign (`completesZeroDivision_of_shift`).
-/

namespace Calculator

/-! ## One level -/

/-- What the term in progress is where a level holds a phrase. -/
def Phrase.unit : Phrase → Phrase
  | expression | term => term
  | factor => factor

theorem Phrase.unit_of_ne_factor {p : Phrase} (h : p ≠ .factor) : p.unit = .term := by
  cases p with
  | expression => rfl
  | term => rfl
  | factor => exact absurd rfl h

theorem Derives.unit {us : List Token} {v : Except Token Int} (h : Derives .factor us v)
    (p : Phrase) : Derives p.unit us v := by
  cases p with
  | expression => exact .factor h
  | term => exact .factor h
  | factor => exact h

namespace Level

/-- The tokens `us` stand in front of the term in progress.  Behind them a term makes a phrase
of the level. -/
def Leads (level : Level) (us : List Token) : Prop :=
  ∀ vs w, Derives level.phrase.unit vs w →
    Derives level.phrase (us ++ vs) (w.map fun x => (level.behind x).value)

/-- What the tokens of a level are, by what comes next. -/
inductive Holds : Phase → Level → List Token → Prop where
  /-- The term in progress is not begun. -/
  | first {level : Level} {us : List Token} :
      level.Leads us →
      level.product = 1 →
      level.slash = none →
      Holds .operand level us
  /-- The term in progress goes on behind an operator. -/
  | sign {level : Level} {us vs : List Token} {token : Token} {operator : Operator} :
      level.phrase ≠ .factor →
      level.Leads us →
      Derives .term vs (.ok level.product) →
      token.isPunctuator operator.text = true →
      operator = .mul ∨ operator = .div →
      Holds .operand (level.operator token operator) (us ++ (vs ++ [token]))
  /-- The term in progress is complete up to here. -/
  | behind {level : Level} {us vs : List Token} {x : Int} :
      level.Leads us →
      Derives level.phrase.unit vs (.ok x) →
      Holds .operator (level.behind x) (us ++ vs)

theorem operator_phrase (level : Level) (token : Token) (operator : Operator) :
    (level.operator token operator).phrase = level.phrase := by
  cases operator <;> rfl

theorem operand_phrase {level next : Level} {x : Int} (h : level.operand x = .ok next) :
    next.phrase = level.phrase := by
  unfold operand at h
  split at h
  · cases h; rfl
  · split at h
    · cases h
    · cases h; rfl

theorem leads_start (phrase : Phrase) : (start phrase).Leads [] := by
  intro vs w h
  have hw : (w.map fun x => ((start phrase).behind x).value) = w := by
    cases w with
    | error slash => rfl
    | ok x => exact congrArg Except.ok (Int.zero_add x)
  rw [hw]
  cases phrase with
  | expression => exact .term h
  | term => exact h
  | factor => exact h

theorem holds_start (phrase : Phrase) : Holds .operand (start phrase) [] :=
  .first (leads_start phrase) rfl rfl

theorem Holds.derives {level : Level} {ts : List Token} (h : Holds .operator level ts) :
    Derives level.phrase ts (.ok level.value) := by
  cases h with
  | behind hl hd => exact hl _ _ hd

/-- A sign in front of the next term. -/
theorem Holds.leads_sign {level : Level} {ts : List Token} {token : Token} {operator : Operator}
    (h : Holds .operator level ts) (hp : level.phrase = .expression)
    (ht : token.isPunctuator operator.text = true) (ho : operator = .add ∨ operator = .sub) :
    (level.operator token operator).Leads (ts ++ [token]) := by
  have hd := h.derives
  rw [hp] at hd
  have hq : (level.operator token operator).phrase = .expression :=
    (operator_phrase ..).trans hp
  intro vs w hw
  rw [hq] at hw ⊢
  have hv : (w.map fun x => ((level.operator token operator).behind x).value) =
      operator.join token (.ok level.value) w := by
    rcases ho with rfl | rfl <;> cases w <;> rfl
  rw [hv, List.append_assoc]
  exact .sum hd ht ho hw

/-- A level behind an operator. -/
theorem Holds.operator {level : Level} {ts : List Token} {token : Token} {operator : Operator}
    (h : Holds .operator level ts) (ht : token.isPunctuator operator.text = true)
    (hj : level.phrase.joins operator = true) :
    Holds .operand (level.operator token operator) (ts ++ [token]) := by
  by_cases ho : operator = .add ∨ operator = .sub
  · have hp : level.phrase = .expression := by
      cases hp : level.phrase with
      | expression => rfl
      | term => rw [hp] at hj; rcases ho with rfl | rfl <;> cases hj
      | factor => rw [hp] at hj; cases hj
    have hl := h.leads_sign hp ht ho
    rcases ho with rfl | rfl
    · exact .first hl rfl rfl
    · exact .first hl rfl rfl
  · have hm : operator = .mul ∨ operator = .div := by cases operator <;> simp at ho ⊢
    cases h with
    | @behind level us vs x hl hd =>
        have hp : level.phrase ≠ .factor := by
          intro hp
          rw [show (level.behind x).phrase = .factor from hp] at hj
          cases hj
        rw [Phrase.unit_of_ne_factor hp] at hd
        rw [List.append_assoc]
        exact .sign hp hl hd ht hm

/-- A level behind an operand, unless a division fails there.  The division sign then stands
directly before the operand, which is zero. -/
theorem Holds.operand {level : Level} {ts us : List Token} {x : Int}
    (h : Holds .operand level ts) (hd : Derives .factor us (.ok x)) :
    (∃ next, level.operand x = .ok next ∧ Holds .operator next (ts ++ us)) ∨
      ∃ front slash, ts = front ++ [slash] ∧ slash.isPunctuator ['/'] = true ∧ x = 0 ∧
        level.operand x = .error (.divisionByZero slash) := by
  cases h with
  | first hl hp hs =>
      exact Or.inl ⟨level.behind x, operand_first hp hs x, .behind hl (hd.unit _)⟩
  | @sign level us' vs token operator hp hl hv ht ho =>
      rw [operand_operator level token ho]
      have hj : Derives .term (vs ++ token :: us) (operator.apply token level.product x) :=
        .product hv ht ho hd
      cases ha : operator.apply token level.product x with
      | ok y =>
          refine Or.inl ⟨level.behind y, rfl, ?_⟩
          rw [ha, ← Phrase.unit_of_ne_factor hp] at hj
          rw [List.append_assoc, List.append_assoc]
          exact .behind hl hj
      | error slash =>
          refine Or.inr ⟨us' ++ vs, token, (List.append_assoc ..).symm, ?_⟩
          rcases ho with rfl | rfl
          · cases ha
          · simp only [Operator.apply] at ha
            split at ha
            · rename_i hx
              cases ha
              exact ⟨ht, hx, rfl⟩
            · cases ha

/-- An operand completes a level that waits for one, whatever the operand means. -/
theorem Holds.exists_derives {level : Level} {ts us : List Token} {v : Except Token Int}
    (h : Holds .operand level ts) (hd : Derives .factor us v) :
    ∃ w, Derives level.phrase (ts ++ us) w := by
  cases h with
  | first hl _ _ => exact ⟨_, hl _ _ (hd.unit _)⟩
  | @sign level us' vs token operator hp hl hv ht ho =>
      have hj := Derives.product hv ht ho hd
      rw [← Phrase.unit_of_ne_factor hp] at hj
      rw [operator_phrase, List.append_assoc, List.append_assoc]
      exact ⟨_, hl _ _ hj⟩

end Level

/-! ## All levels -/

namespace Stack

/-- What the tokens are that a stack for a phrase `p` was fed with. -/
inductive Holds (p : Phrase) : Stack → List Token → Prop where
  | outermost {phase : Phase} {level : Level} {ts : List Token} :
      level.phrase = p →
      Level.Holds phase level ts →
      Holds p ⟨phase, level, []⟩ ts
  | inner {phase : Phase} {inner level : Level} {outer : List Level} {left : Token}
      {ts us : List Token} :
      Holds p ⟨.operand, level, outer⟩ ts →
      left.isPunctuator ['('] = true →
      inner.phrase = .expression →
      Level.Holds phase inner us →
      Holds p ⟨phase, inner, level :: outer⟩ (ts ++ left :: us)

theorem holds_start (p : Phrase) : Holds p (start p) [] :=
  .outermost rfl (Level.holds_start p)

/-- The tokens of the innermost level are the last ones. -/
theorem Holds.innermost {p : Phrase} {phase : Phase} {level : Level} {outer : List Level}
    {ts : List Token} (h : Holds p ⟨phase, level, outer⟩ ts) :
    ∃ front us, ts = front ++ us ∧ Level.Holds phase level us := by
  cases h with
  | outermost _ hl => exact ⟨[], ts, rfl, hl⟩
  | @inner _ _ _ _ left ts us _ _ _ hl =>
      exact ⟨ts ++ [left], us, by rw [List.append_assoc]; rfl, hl⟩

/-- The innermost level can be replaced with what follows its tokens. -/
theorem Holds.extend {p : Phrase} {phase phase' : Phase} {level level' : Level}
    {outer : List Level} {ts us : List Token} (h : Holds p ⟨phase, level, outer⟩ ts)
    (hp : level'.phrase = level.phrase)
    (hl : ∀ vs, Level.Holds phase level vs → Level.Holds phase' level' (vs ++ us)) :
    Holds p ⟨phase', level', outer⟩ (ts ++ us) := by
  cases h with
  | outermost hq h => exact .outermost (hp.trans hq) (hl _ h)
  | inner h hleft hq hi =>
      rw [List.append_assoc, List.cons_append]
      exact .inner h hleft (hp.trans hq) (hl _ hi)

/-- An expression in parentheses is a factor behind what the level around it holds. -/
theorem Holds.parentheses {p : Phrase} {inner level : Level} {outer : List Level}
    {ts : List Token} {right : Token} (h : Holds p ⟨.operator, inner, level :: outer⟩ ts)
    (hr : right.isPunctuator [')'] = true) :
    ∃ front us, ts ++ [right] = front ++ us ∧ Holds p ⟨.operand, level, outer⟩ front ∧
      Derives .factor us (.ok inner.value) := by
  cases h with
  | @inner _ _ _ _ left ts us h hl hq hi =>
      have hd := hi.derives
      rw [hq] at hd
      refine ⟨ts, left :: (us ++ [right]), ?_, h, .parentheses hl hd hr⟩
      rw [List.append_assoc, List.cons_append]

/-- A stack behind an operand, unless a division fails there. -/
theorem Holds.operand {p : Phrase} {level : Level} {outer : List Level} {ts us : List Token}
    {x : Int} (h : Holds p ⟨.operand, level, outer⟩ ts) (hd : Derives .factor us (.ok x)) :
    (∃ next, Stack.operand level outer x = .ok next ∧ Holds p next (ts ++ us)) ∨
      ∃ front slash, ts = front ++ [slash] ∧ slash.isPunctuator ['/'] = true ∧ x = 0 ∧
        Stack.operand level outer x = .error (.divisionByZero slash) := by
  obtain ⟨front, us', rfl, hi⟩ := h.innermost
  rcases hi.operand hd with ⟨next, hn, -⟩ | ⟨front', slash, rfl, hs, hx, he⟩
  · refine Or.inl ⟨⟨.operator, next, outer⟩, by rw [Stack.operand, hn]; rfl, ?_⟩
    apply h.extend (Level.operand_phrase hn)
    intro vs hl
    rcases hl.operand hd with ⟨next', hn', hl'⟩ | ⟨_, _, -, -, -, he⟩
    · cases hn.symm.trans hn'
      exact hl'
    · cases hn.symm.trans he
  · exact Or.inr ⟨front ++ front', slash, (List.append_assoc ..).symm, hs, hx,
      by rw [Stack.operand, he]; rfl⟩

/-- One more token keeps a stack true to what it was fed with. -/
theorem Holds.shift {p : Phrase} {stack next : Stack} {ts : List Token} {token : Token}
    (h : Holds p stack ts) (hs : stack.shift token = .ok next) : Holds p next (ts ++ [token]) := by
  have hc := shifts stack token
  rw [hs] at hc
  cases hc with
  | opens hp => exact .inner h hp rfl (Level.holds_start .expression)
  | numeral hk ho =>
      rw [Token.value, Numeral.read_eq_ofDigits] at ho
      rcases h.operand (.numeral hk) with ⟨next', hn, hh⟩ | ⟨_, _, -, -, -, he⟩
      · cases hn.symm.trans ho
        exact hh
      · cases he.symm.trans ho
  | operator ht hj =>
      exact h.extend (Level.operator_phrase ..) fun vs hl => hl.operator ht hj
  | closes hp ho =>
      obtain ⟨front, us, heq, hf, hd⟩ := h.parentheses hp
      rw [heq]
      rcases hf.operand hd with ⟨next', hn, hh⟩ | ⟨_, _, -, -, -, he⟩
      · cases hn.symm.trans ho
        exact hh
      · cases he.symm.trans ho

theorem Holds.feed {p : Phrase} {stack last : Stack} {ts us : List Token}
    (h : Holds p stack ts) (hf : stack.feed us = .ok last) : Holds p last (ts ++ us) := by
  induction us generalizing stack ts with
  | nil =>
      cases hf
      rwa [List.append_nil]
  | cons token us ih =>
      rw [feed_cons] at hf
      cases hs : stack.shift token with
      | error fault => rw [hs] at hf; cases hf
      | ok next =>
          rw [hs] at hf
          rw [List.append_cons]
          exact ih (h.shift hs) hf

theorem holds_of_feed {p : Phrase} {stack : Stack} {ts : List Token}
    (h : (start p).feed ts = .ok stack) : Holds p stack ts :=
  (holds_start p).feed h

/-- A stack that waits for an operator outside all parentheses has read a phrase. -/
theorem derives_of_feed {p : Phrase} {level : Level} {ts : List Token}
    (h : (start p).feed ts = .ok ⟨.operator, level, []⟩) : Derives p ts (.ok level.value) := by
  cases holds_of_feed h with
  | outermost hp hl => exact hp ▸ hl.derives

/-! ## Completion -/

/-- Behind a factor, whatever it means, a stack that waits for an operand can be completed. -/
theorem Holds.exists_completion {p : Phrase} {level : Level} {outer : List Level}
    {ts us : List Token} {v : Except Token Int} (h : Holds p ⟨.operand, level, outer⟩ ts)
    (hd : Derives .factor us v) : ∃ vs w, Derives p (ts ++ us ++ vs) w := by
  induction outer generalizing level ts us v with
  | nil =>
      cases h with
      | outermost hp hl =>
          obtain ⟨w, hw⟩ := hl.exists_derives hd
          exact ⟨[], w, by rw [List.append_nil]; exact hp ▸ hw⟩
  | cons next outer ih =>
      cases h with
      | @inner _ _ _ _ left ts us' h hl hq hi =>
          obtain ⟨w, hw⟩ := hi.exists_derives hd
          rw [hq] at hw
          have hr : (Token.lexeme .punctuator [')'] 0).isPunctuator [')'] = true := rfl
          obtain ⟨vs, w', hw'⟩ := ih h (.parentheses hl hw hr)
          refine ⟨.lexeme .punctuator [')'] 0 :: vs, w', ?_⟩
          simpa using hw'

/-- Whatever a stack was fed with without a failure begins a phrase. -/
theorem Holds.exists_derives {p : Phrase} {stack : Stack} {ts : List Token}
    (h : Holds p stack ts) : ∃ us w, Derives p (ts ++ us) w := by
  obtain ⟨phase, level, outer⟩ := stack
  cases phase with
  | operand =>
      have hk : (Token.lexeme .numeric ['0'] 0).kind = .numeric := rfl
      obtain ⟨vs, w, hw⟩ := h.exists_completion (.numeral hk)
      exact ⟨_, w, by rwa [List.append_assoc] at hw⟩
  | operator =>
      cases outer with
      | nil =>
          cases h with
          | outermost hp hl => exact ⟨[], _, by rw [List.append_nil]; exact hp ▸ hl.derives⟩
      | cons next outer =>
          have hr : (Token.lexeme .punctuator [')'] 0).isPunctuator [')'] = true := rfl
          obtain ⟨front, us, heq, hf, hd⟩ := h.parentheses hr
          obtain ⟨vs, w, hw⟩ := hf.exists_completion hd
          rw [← heq, List.append_assoc] at hw
          exact ⟨_, w, hw⟩

theorem viable_of_feed {stack : Stack} {ts : List Token}
    (h : (start .expression).feed ts = .ok stack) : Viable ts :=
  (holds_of_feed h).exists_derives

/-- Where one more token makes a division fail, it completes a division by zero. -/
theorem completesZeroDivision_of_shift {stack : Stack} {ts : List Token} {token slash : Token}
    (h : (start .expression).feed ts = .ok stack)
    (hs : stack.shift token = .error (.divisionByZero slash)) :
    CompletesZeroDivision (ts ++ [token]) slash := by
  have key : ∀ {level outer x front us}, Holds .expression ⟨.operand, level, outer⟩ front →
      Derives .factor us (.ok x) →
      Stack.operand level outer x = .error (.divisionByZero slash) →
      CompletesZeroDivision (front ++ us) slash := by
    intro level outer x front us hh hd ho
    rcases hh.operand hd with ⟨_, hn, -⟩ | ⟨front', slash', rfl, ht, rfl, he⟩
    · cases hn.symm.trans ho
    · cases he.symm.trans ho
      obtain ⟨vs, w, hw⟩ := hh.exists_completion hd
      refine ⟨⟨vs, w, hw⟩, front', us, ?_, ht, hd⟩
      rw [List.append_assoc, List.singleton_append]
  have hh := holds_of_feed h
  have hc := shifts stack token
  rw [hs] at hc
  cases hc with
  | numeral hk ho =>
      rw [Token.value, Numeral.read_eq_ofDigits] at ho
      exact key hh (.numeral hk) ho
  | closes hp ho =>
      obtain ⟨front, us, heq, hf, hd⟩ := hh.parentheses hp
      rw [heq]
      exact key hf hd ho

/-! ## Failures -/

/-- What begins a sentence is fed without a failure, up to a division by zero. -/
theorem feed_of_viable {ts : List Token} (h : Viable ts) :
    (∃ stack, (start .expression).feed ts = .ok stack) ∨
      ∃ slash, (start .expression).feed ts = .error (.divisionByZero slash) := by
  obtain ⟨us, v, hd⟩ := h
  cases v with
  | ok x =>
      obtain ⟨level, hf, -⟩ := feed_of_derives hd
      obtain ⟨stack, hs, -⟩ := feed_ok_of_append hf
      exact Or.inl ⟨stack, hs⟩
  | error slash =>
      have hf := feed_of_derives_error hd
      rw [feed_append] at hf
      cases hs : (start .expression).feed ts with
      | ok stack => exact Or.inl ⟨stack, rfl⟩
      | error fault =>
          rw [hs] at hf
          cases hf
          exact Or.inr ⟨slash, rfl⟩

/-- A token that is refused continues no sentence. -/
theorem not_viable_of_shift {stack : Stack} {ts : List Token} {token : Token} {fault : Fault}
    (h : (start .expression).feed ts = .ok stack) (hs : stack.shift token = .error fault)
    (hf : ∀ slash, fault ≠ .divisionByZero slash) : ¬ Viable (ts ++ [token]) := by
  intro hv
  rcases feed_of_viable hv with ⟨next, hn⟩ | ⟨slash, he⟩
  · rw [feed_concat h, hs] at hn
    cases hn
  · rw [feed_concat h, hs] at he
    cases he
    exact hf slash rfl

/-- What was read is a sentence where an operator comes next outside all parentheses. -/
theorem sentence_iff_of_feed {stack : Stack} {ts : List Token}
    (h : (start .expression).feed ts = .ok stack) :
    Sentence ts ↔ stack.phase = .operator ∧ stack.outer = [] := by
  constructor
  · rintro ⟨v, hd⟩
    cases v with
    | ok x =>
        obtain ⟨level, hf, -⟩ := feed_of_derives hd
        rw [h] at hf
        cases hf
        exact ⟨rfl, rfl⟩
    | error slash =>
        rw [feed_of_derives_error hd] at h
        cases h
  · obtain ⟨phase, level, outer⟩ := stack
    rintro ⟨hp, ho⟩
    cases hp
    cases ho
    exact ⟨_, derives_of_feed h⟩

/-- Behind a division sign a stack fails at a factor of value zero. -/
theorem feed_zero_of_shift {stack next : Stack} {us : List Token} {slash : Token}
    (hs : stack.shift slash = .ok next) (ht : slash.isPunctuator ['/'] = true)
    (hd : Derives .factor us (.ok 0)) : next.feed us = .error (.divisionByZero slash) := by
  obtain ⟨hk, htext⟩ := Token.is_iff.1 ht
  have hc := shifts stack slash
  rw [hs] at hc
  cases hc with
  | opens hp =>
      rw [Token.isPunctuator, Token.is_iff, htext] at hp
      cases hp.2
  | numeral hk' _ =>
      rw [hk] at hk'
      cases hk'
  | @operator level outer _ operator ho _ =>
      rw [Token.isPunctuator, Token.is_iff, htext] at ho
      have hdiv : operator = .div := by
        have := Operator.ofText?_text operator
        rw [← ho.2] at this
        cases this
        rfl
      subst hdiv
      exact reads_of_derives hd (level.operator slash .div) outer
  | closes hp _ =>
      rw [Token.isPunctuator, Token.is_iff, htext] at hp
      cases hp.2

/-- What is fed without a failure completes no division by zero. -/
theorem not_completesZeroDivision_of_feed {stack : Stack} {ts : List Token}
    (h : (start .expression).feed ts = .ok stack) (slash : Token) :
    ¬ CompletesZeroDivision ts slash := by
  rintro ⟨-, front, us, rfl, ht, hd⟩
  obtain ⟨before, -, hb⟩ := feed_ok_of_append h
  rw [feed_cons] at hb
  cases hs : before.shift slash with
  | error fault => rw [hs] at hb; cases hb
  | ok next =>
      rw [hs] at hb
      cases hb.symm.trans (feed_zero_of_shift hs ht hd)

theorem not_completesZeroDivision_take {stack : Stack} {ts : List Token}
    (h : (start .expression).feed ts = .ok stack) (k : Nat) (slash : Token) :
    ¬ CompletesZeroDivision (ts.take k) slash := by
  rw [← List.take_append_drop k ts] at h
  obtain ⟨before, hb, -⟩ := feed_ok_of_append h
  exact not_completesZeroDivision_of_feed hb slash

/-- Feeding fails at a division only where one is complete. -/
theorem exists_completesZeroDivision_of_feed {ts : List Token} {slash : Token}
    (h : (start .expression).feed ts = .error (.divisionByZero slash)) :
    ∃ k ≤ ts.length, CompletesZeroDivision (ts.take k) slash := by
  obtain ⟨us, token, rest, stack, rfl, hf, hs⟩ := exists_shift_of_feed_error h
  refine ⟨(us ++ [token]).length, ?_, ?_⟩
  · simp
  · rw [List.append_cons us token rest, List.take_left]
    exact completesZeroDivision_of_shift hf hs

/-- What begins a sentence and completes no division by zero is fed without a failure. -/
theorem feed_of_viable_of_not_completes {ts : List Token} (h : Viable ts)
    (hn : ∀ k ≤ ts.length, ∀ slash, ¬ CompletesZeroDivision (ts.take k) slash) :
    ∃ stack, (start .expression).feed ts = .ok stack := by
  rcases feed_of_viable h with hf | ⟨slash, hf⟩
  · exact hf
  · obtain ⟨k, hk, hc⟩ := exists_completesZeroDivision_of_feed hf
    exact absurd hc (hn k hk slash)

/-- Feeding fails at the first division by zero that is complete. -/
theorem feed_of_completesZeroDivision {ts : List Token} {slash : Token}
    (h : CompletesZeroDivision ts slash)
    (hn : ∀ k < ts.length, ∀ s, ¬ CompletesZeroDivision (ts.take k) s) :
    (start .expression).feed ts = .error (.divisionByZero slash) := by
  obtain ⟨hv, front, us, rfl, ht, hd⟩ := h
  have hus : us ≠ [] := hd.ne_nil
  have hlen : (front ++ [slash]).length < (front ++ slash :: us).length := by
    have := List.length_pos_iff.2 hus
    simp
    omega
  have hn' : ∀ k ≤ (front ++ [slash]).length, ∀ s,
      ¬ CompletesZeroDivision ((front ++ [slash]).take k) s := by
    intro k hk s hc
    refine hn k (Nat.lt_of_le_of_lt hk hlen) s ?_
    rwa [List.append_cons, List.take_append_of_le_length hk]
  rw [List.append_cons] at hv ⊢
  obtain ⟨next, hf⟩ := feed_of_viable_of_not_completes hv.of_append hn'
  obtain ⟨stack, hs, hl⟩ := feed_ok_of_append hf
  rw [feed_singleton] at hl
  rw [feed_append, hf]
  exact feed_zero_of_shift hl ht hd

end Stack
end Calculator
