import Calculator.Evaluation.Machine
import Calculator.Proofs.Digits
import Calculator.Proofs.Grammar

/-!
# Stacks

A state of the machine without its reader is a stack: what was made of the
tokens accepted so far.  `Stack.shift` is the effect of one more token and
`Stack.feed` that of a list of tokens, whether or not some text has them.  So
what the machine would do with tokens that never come can be spoken of too.

A stack refuses a token in two ways.  A token that is not the expected one is
refused as such.  Behind a phrase that is complete and outside all parentheses,
a token that does not continue the phrase is refused as trailing.  The stack
then holds a complete phrase, and the end of the text is refused like this.

The main law is `feed_of_derives`.  Fed with a phrase, a stack that waits for
one ends behind it with what it means, and fails at a division by zero exactly
if that is what it means.  It is stated for the innermost level of any stack,
since the expression in parentheses is read with the levels around it waiting.
As feeding is a function, a phrase has one meaning (`Derives.unique`).
-/

namespace Calculator

/-- Whether a fault refuses a token, where another one or nothing at all was expected. -/
def Fault.Refuses (fault : Fault) (token : Token) : Prop :=
  (∃ kind text, fault = .unexpectedToken token kind text) ∨ fault = .trailingInput token

theorem Fault.Refuses.ne_divisionByZero {fault : Fault} {token : Token}
    (h : fault.Refuses token) (slash : Token) : fault ≠ .divisionByZero slash := by
  rcases h with ⟨_, _, rfl⟩ | rfl
  · exact nofun
  · exact nofun

/-- A fault refuses one token. -/
theorem Fault.Refuses.token_eq {fault : Fault} {token token' : Token} (h : fault.Refuses token)
    (h' : fault.Refuses token') : token = token' := by
  rcases h with ⟨_, _, rfl⟩ | rfl
  · rcases h' with ⟨_, _, h'⟩ | h' <;> cases h'
    rfl
  · rcases h' with ⟨_, _, h'⟩ | h' <;> cases h'
    rfl

/-- A calculation in progress, without its reader. -/
structure Stack where
  /-- What comes next. -/
  phase : Phase
  /-- The level in progress. -/
  level : Level
  /-- The levels around it, the innermost first. -/
  outer : List Level

/-- The stack of a state. -/
def State.stack (state : State) : Stack := ⟨state.phase, state.level, state.outer⟩

namespace Stack

/-- The stack at the start of a phrase. -/
def start (phrase : Phrase) : Stack := ⟨.operand, .start phrase, []⟩

/-- The stack behind an operand of its innermost level. -/
def operand (level : Level) (outer : List Level) (value : Int) : Except Fault Stack :=
  (level.operand value).map fun level => ⟨.operator, level, outer⟩

/-- The operator that continues the innermost level, if a token is one. -/
def operator? (stack : Stack) (token : Token) : Option Operator :=
  (Operator.ofToken? token).filter stack.level.phrase.joins

/-- The stack behind one more token. -/
def shift (stack : Stack) (token : Token) : Except Fault Stack :=
  match stack.phase with
  | .operand =>
      if token.isPunctuator ['('] then
        .ok ⟨.operand, .start .expression, stack.level :: stack.outer⟩
      else if token.kind = .numeric then operand stack.level stack.outer token.value
      else .error (.unexpectedToken token .numeric none)
  | .operator =>
      match stack.operator? token with
      | some operator => .ok ⟨.operand, stack.level.operator token operator, stack.outer⟩
      | none =>
          match stack.outer with
          | [] => .error (.trailingInput token)
          | level :: outer =>
              if token.isPunctuator [')'] then operand level outer stack.level.value
              else .error (.unexpectedToken token .punctuator (some [')']))

/-- The stack behind more tokens, up to the first that fails. -/
def feed (stack : Stack) : List Token → Except Fault Stack
  | [] => .ok stack
  | token :: tokens => (stack.shift token).bind fun stack => feed stack tokens

/-! ## One token -/

theorem operator?_of_joins {stack : Stack} {token : Token} {operator : Operator}
    (ht : token.isPunctuator operator.text = true)
    (hj : stack.level.phrase.joins operator = true) :
    stack.operator? token = some operator := by
  rw [operator?, Operator.ofToken?_eq_some_iff.2 ht, Option.filter_some_pos hj]

theorem operator?_eq_some {stack : Stack} {token : Token} {operator : Operator}
    (h : stack.operator? token = some operator) :
    token.isPunctuator operator.text = true ∧ stack.level.phrase.joins operator = true := by
  rw [operator?, Option.filter_eq_some_iff] at h
  exact ⟨Operator.ofToken?_eq_some_iff.1 h.1, h.2⟩

/-- A parenthesis is no operator. -/
theorem operator?_close {stack : Stack} {token : Token} (h : token.isPunctuator [')'] = true) :
    stack.operator? token = none := by
  obtain ⟨hk, ht⟩ := Token.is_iff.1 h
  rw [operator?, Operator.ofToken?, if_pos hk, ht]
  rfl

theorem shift_open {token : Token} (h : token.isPunctuator ['('] = true) (level : Level)
    (outer : List Level) :
    shift ⟨.operand, level, outer⟩ token = .ok ⟨.operand, .start .expression, level :: outer⟩ :=
  if_pos h

theorem shift_numeral {token : Token} (h : token.kind = .numeric) (level : Level)
    (outer : List Level) :
    shift ⟨.operand, level, outer⟩ token = operand level outer token.value := by
  have hp : ¬ token.isPunctuator ['('] = true := by
    intro hp
    rw [(Token.is_iff.1 hp).1] at h
    cases h
  exact (if_neg hp).trans (if_pos h)

theorem shift_operator {token : Token} {operator : Operator} {level : Level}
    (ht : token.isPunctuator operator.text = true) (hj : level.phrase.joins operator = true)
    (outer : List Level) :
    shift ⟨.operator, level, outer⟩ token =
      .ok ⟨.operand, level.operator token operator, outer⟩ := by
  have ho : operator? ⟨.operator, level, outer⟩ token = some operator := operator?_of_joins ht hj
  simp only [shift, ho]

theorem shift_close {token : Token} (h : token.isPunctuator [')'] = true) (inner level : Level)
    (outer : List Level) :
    shift ⟨.operator, inner, level :: outer⟩ token = operand level outer inner.value := by
  have ho : operator? ⟨.operator, inner, level :: outer⟩ token = none := operator?_close h
  simp only [shift, ho, h, if_true]

/-- The ways in which a stack answers a token. -/
inductive Shifts : Stack → Token → Except Fault Stack → Prop where
  | opens {level : Level} {outer : List Level} {token : Token} :
      token.isPunctuator ['('] = true →
      Shifts ⟨.operand, level, outer⟩ token
        (.ok ⟨.operand, .start .expression, level :: outer⟩)
  | numeral {level : Level} {outer : List Level} {token : Token} {result : Except Fault Stack} :
      token.kind = .numeric →
      operand level outer token.value = result →
      Shifts ⟨.operand, level, outer⟩ token result
  | noOperand {level : Level} {outer : List Level} {token : Token} :
      token.isPunctuator ['('] = false →
      token.kind ≠ .numeric →
      Shifts ⟨.operand, level, outer⟩ token (.error (.unexpectedToken token .numeric none))
  | operator {level : Level} {outer : List Level} {token : Token} {operator : Operator} :
      token.isPunctuator operator.text = true →
      level.phrase.joins operator = true →
      Shifts ⟨.operator, level, outer⟩ token
        (.ok ⟨.operand, level.operator token operator, outer⟩)
  | closes {inner level : Level} {outer : List Level} {token : Token}
      {result : Except Fault Stack} :
      token.isPunctuator [')'] = true →
      operand level outer inner.value = result →
      Shifts ⟨.operator, inner, level :: outer⟩ token result
  | noClose {inner level : Level} {outer : List Level} {token : Token} :
      operator? ⟨.operator, inner, level :: outer⟩ token = none →
      token.isPunctuator [')'] = false →
      Shifts ⟨.operator, inner, level :: outer⟩ token
        (.error (.unexpectedToken token .punctuator (some [')'])))
  | trailing {level : Level} {token : Token} :
      operator? ⟨.operator, level, []⟩ token = none →
      Shifts ⟨.operator, level, []⟩ token (.error (.trailingInput token))

theorem shifts (stack : Stack) (token : Token) : Shifts stack token (stack.shift token) := by
  obtain ⟨phase, level, outer⟩ := stack
  cases phase with
  | operand =>
      by_cases hp : token.isPunctuator ['('] = true
      · rw [shift_open hp]
        exact .opens hp
      · by_cases hk : token.kind = .numeric
        · exact .numeral hk (shift_numeral hk level outer).symm
        · have he : shift ⟨.operand, level, outer⟩ token =
              .error (.unexpectedToken token .numeric none) := (if_neg hp).trans (if_neg hk)
          rw [he]
          exact .noOperand (Bool.eq_false_iff.2 hp) hk
  | operator =>
      cases ho : operator? ⟨.operator, level, outer⟩ token with
      | some operator =>
          obtain ⟨ht, hj⟩ := operator?_eq_some ho
          rw [shift_operator ht hj]
          exact .operator ht hj
      | none =>
          cases outer with
          | nil =>
              simp only [shift, ho]
              exact .trailing ho
          | cons next outer =>
              by_cases hp : token.isPunctuator [')'] = true
              · exact .closes hp (shift_close hp level next outer).symm
              · simp only [shift, ho, hp]
                exact .noClose ho (Bool.eq_false_iff.2 hp)

/-- Behind an operand an operator comes next, on the same level. -/
theorem eq_of_operand {level : Level} {outer : List Level} {value : Int} {next : Stack}
    (h : operand level outer value = .ok next) : next.phase = .operator ∧ next.outer = outer := by
  unfold operand at h
  cases hl : level.operand value with
  | error fault => rw [hl] at h; cases h
  | ok level' => rw [hl] at h; cases h; exact ⟨rfl, rfl⟩

/-- An operand fails only as a divisor of zero. -/
theorem operand_error {level : Level} {outer : List Level} {value : Int} {fault : Fault}
    (h : operand level outer value = .error fault) : ∃ slash, fault = .divisionByZero slash := by
  unfold operand Level.operand at h
  split at h
  · cases h
  · rename_i slash _
    split at h
    · cases h
      exact ⟨slash, rfl⟩
    · cases h

/-- A stack fails at a token that it refuses, and at a division by zero. -/
theorem shift_error {stack : Stack} {token : Token} {fault : Fault}
    (h : stack.shift token = .error fault) :
    (∃ slash, fault = .divisionByZero slash) ∨ fault.Refuses token := by
  have hc := shifts stack token
  rw [h] at hc
  cases hc with
  | numeral _ ho => exact Or.inl (operand_error ho)
  | closes _ ho => exact Or.inl (operand_error ho)
  | noOperand _ _ => exact Or.inr (Or.inl ⟨_, _, rfl⟩)
  | noClose _ _ => exact Or.inr (Or.inl ⟨_, _, rfl⟩)
  | trailing _ => exact Or.inr (Or.inr rfl)

/-- The three ways of refusing a token, by what comes next and whether a parenthesis is open. -/
theorem refusal_cases {stack : Stack} {token : Token} {fault : Fault}
    (h : stack.shift token = .error fault) (hr : fault.Refuses token) :
    (stack.phase = .operand ∧ fault = .unexpectedToken token .numeric none) ∨
    (stack.phase = .operator ∧ stack.outer ≠ [] ∧
      fault = .unexpectedToken token .punctuator (some [')'])) ∨
    stack.phase = .operator ∧ stack.outer = [] ∧ fault = .trailingInput token := by
  have hc := shifts stack token
  rw [h] at hc
  cases hc with
  | numeral _ ho =>
      obtain ⟨slash, rfl⟩ := operand_error ho
      exact absurd rfl (hr.ne_divisionByZero slash)
  | closes _ ho =>
      obtain ⟨slash, rfl⟩ := operand_error ho
      exact absurd rfl (hr.ne_divisionByZero slash)
  | noOperand _ _ => exact Or.inl ⟨rfl, rfl⟩
  | noClose _ _ => exact Or.inr (Or.inl ⟨rfl, List.cons_ne_nil _ _, rfl⟩)
  | trailing _ => exact Or.inr (Or.inr ⟨rfl, rfl, rfl⟩)

/-- A token is refused as trailing where the phrase is complete outside all parentheses. -/
theorem eq_trailingInput_iff {stack : Stack} {token : Token} {fault : Fault}
    (h : stack.shift token = .error fault) (hr : fault.Refuses token) :
    fault = .trailingInput token ↔ stack.phase = .operator ∧ stack.outer = [] := by
  rcases refusal_cases h hr with ⟨hp, rfl⟩ | ⟨hp, ho, rfl⟩ | ⟨hp, ho, rfl⟩
  · simp [hp]
  · simp [ho]
  · simp [hp, ho]

/-! ## Feeding -/

@[simp] theorem feed_nil (stack : Stack) : stack.feed [] = .ok stack := rfl

theorem feed_cons (stack : Stack) (token : Token) (tokens : List Token) :
    stack.feed (token :: tokens) = (stack.shift token).bind fun stack => stack.feed tokens := rfl

theorem feed_append (stack : Stack) (ts us : List Token) :
    stack.feed (ts ++ us) = (stack.feed ts).bind fun stack => stack.feed us := by
  induction ts generalizing stack with
  | nil => rfl
  | cons token ts ih =>
      rw [List.cons_append, feed_cons, feed_cons]
      cases stack.shift token with
      | error fault => rfl
      | ok next => exact ih next

theorem feed_singleton (stack : Stack) (token : Token) : stack.feed [token] = stack.shift token := by
  rw [feed_cons]
  cases stack.shift token <;> rfl

theorem feed_concat {start stack : Stack} {ts : List Token} (h : start.feed ts = .ok stack)
    (token : Token) : start.feed (ts ++ [token]) = stack.shift token := by
  rw [feed_append, h]
  exact stack.feed_singleton token

/-- What is fed without a failure is fed without one up to any place. -/
theorem feed_ok_of_append {start last : Stack} {ts us : List Token}
    (h : start.feed (ts ++ us) = .ok last) :
    ∃ stack, start.feed ts = .ok stack ∧ stack.feed us = .ok last := by
  rw [feed_append] at h
  cases hs : start.feed ts with
  | error fault => rw [hs] at h; cases h
  | ok stack => rw [hs] at h; exact ⟨stack, rfl, h⟩

/-- Feeding fails where one of the tokens does. -/
theorem feed_error_of_shift {start stack : Stack} {ts : List Token} {token : Token}
    {fault : Fault} (h : start.feed ts = .ok stack) (hs : stack.shift token = .error fault)
    (rest : List Token) : start.feed (ts ++ token :: rest) = .error fault := by
  rw [feed_append, h]
  show (stack.shift token).bind _ = _
  rw [hs]
  rfl

/-- Where feeding fails, one of the tokens does. -/
theorem exists_shift_of_feed_error {start : Stack} {ts : List Token} {fault : Fault}
    (h : start.feed ts = .error fault) :
    ∃ us token rest stack, ts = us ++ token :: rest ∧ start.feed us = .ok stack ∧
      stack.shift token = .error fault := by
  induction ts generalizing start with
  | nil => cases h
  | cons token ts ih =>
      cases hs : start.shift token with
      | error fault' =>
          rw [feed_cons, hs] at h
          cases h
          exact ⟨[], token, ts, start, rfl, rfl, hs⟩
      | ok next =>
          rw [feed_cons, hs] at h
          obtain ⟨us, token', rest, stack, rfl, hf, hsh⟩ := ih h
          refine ⟨token :: us, token', rest, stack, rfl, ?_, hsh⟩
          rw [feed_cons, hs]
          exact hf

end Stack

/-! ## Levels behind a term -/

namespace Level

/-- A level whose term in progress has come to a product. -/
def behind (level : Level) (product : Int) : Level := { level with product, slash := none }

theorem operand_first {level : Level} (hp : level.product = 1) (hs : level.slash = none)
    (x : Int) : level.operand x = .ok (level.behind x) := by
  obtain ⟨phrase, total, negative, product, slash⟩ := level
  cases hp
  cases hs
  simp [operand, behind]

/-- Behind `*` or `/` an operand joins the product as the operator says. -/
theorem operand_operator (level : Level) {operator : Operator} (sign : Token)
    (h : operator = .mul ∨ operator = .div) (x : Int) :
    (level.operator sign operator).operand x =
      ((operator.apply sign level.product x).mapError Fault.divisionByZero).map level.behind := by
  rcases h with rfl | rfl
  · rfl
  · by_cases hx : x = 0
    · have hq : quotient? level.product x = none := if_pos hx
      rw [show Operator.div.apply sign level.product x = .error sign from if_pos hx]
      simp only [Level.operator, operand, hq]
      rfl
    · have hq : quotient? level.product x = some (level.product.tdiv x) := if_neg hx
      rw [show Operator.div.apply sign level.product x = .ok (level.product.tdiv x) from if_neg hx]
      simp only [Level.operator, operand, hq]
      rfl

end Level

/-! ## Phrases -/

namespace Stack

/-- What an expression at the start of a level does to a stack, whatever the levels around. -/
def ReadsExpression (ts : List Token) : Except Token Int → Prop
  | .ok x => ∃ level : Level, level.phrase = .expression ∧ level.value = x ∧
      ∀ outer, feed ⟨.operand, .start .expression, outer⟩ ts = .ok ⟨.operator, level, outer⟩
  | .error slash => ∀ outer,
      feed ⟨.operand, .start .expression, outer⟩ ts = .error (.divisionByZero slash)

/-- What a phrase does to a stack that waits for it. -/
def Reads : Phrase → List Token → Except Token Int → Prop
  | .factor, ts, v => ∀ level outer,
      feed ⟨.operand, level, outer⟩ ts = (v.mapError .divisionByZero).bind (operand level outer)
  | .term, ts, v => ∀ (level : Level) outer,
      level.phrase ≠ .factor → level.product = 1 → level.slash = none →
      feed ⟨.operand, level, outer⟩ ts =
        (v.mapError .divisionByZero).map fun x => ⟨.operator, level.behind x, outer⟩
  | .expression, ts, v => ReadsExpression ts v

theorem reads_numeral {token : Token} (h : token.kind = .numeric) :
    Reads .factor [token] (.ok (Numeral.ofDigits token.text)) := by
  intro level outer
  rw [feed_singleton, shift_numeral h, Token.value, Numeral.read_eq_ofDigits]
  rfl

theorem reads_parentheses {left right : Token} {ts : List Token} {v : Except Token Int}
    (hl : left.isPunctuator ['('] = true) (h : ReadsExpression ts v)
    (hr : right.isPunctuator [')'] = true) : Reads .factor (left :: (ts ++ [right])) v := by
  intro level outer
  rw [feed_cons, shift_open hl]
  show feed _ (ts ++ [right]) = _
  rw [feed_append]
  cases v with
  | error slash =>
      rw [h (level :: outer)]
      rfl
  | ok x =>
      obtain ⟨inner, -, hv, hf⟩ := h
      rw [hf (level :: outer)]
      show feed _ [right] = operand level outer x
      rw [feed_singleton, shift_close hr, hv]

theorem reads_factor {ts : List Token} {v : Except Token Int} (h : Reads .factor ts v) :
    Reads .term ts v := by
  intro level outer _ hp hs
  rw [h level outer]
  cases v with
  | error slash => rfl
  | ok x =>
      show operand level outer x = _
      rw [operand, Level.operand_first hp hs]
      rfl

theorem reads_product {ts us : List Token} {sign : Token} {operator : Operator}
    {v w : Except Token Int} (hv : Reads .term ts v)
    (hs : sign.isPunctuator operator.text = true) (ho : operator = .mul ∨ operator = .div)
    (hw : Reads .factor us w) : Reads .term (ts ++ sign :: us) (operator.join sign v w) := by
  intro level outer hq hp hn
  rw [feed_append, hv level outer hq hp hn]
  cases v with
  | error slash => rfl
  | ok a =>
      have hj : (level.behind a).phrase.joins operator = true := by
        show level.phrase.joins operator = true
        cases hph : level.phrase with
        | expression => rfl
        | term => rcases ho with rfl | rfl <;> rfl
        | factor => exact absurd hph hq
      show feed ⟨.operator, level.behind a, outer⟩ (sign :: us) = _
      rw [feed_cons, shift_operator hs hj]
      show feed _ us = _
      rw [hw _ outer]
      cases w with
      | error slash => rfl
      | ok b =>
          show operand ((level.behind a).operator sign operator) outer b =
            ((operator.apply sign a b).mapError _).map _
          rw [operand, Level.operand_operator _ _ ho, show (level.behind a).product = a from rfl]
          cases operator.apply sign a b <;> rfl

theorem reads_term {ts : List Token} {v : Except Token Int} (h : Reads .term ts v) :
    ReadsExpression ts v := by
  have hf : ∀ outer, _ := fun outer =>
    h (.start .expression) outer (by decide) rfl rfl
  cases v with
  | error slash => exact hf
  | ok x => exact ⟨(Level.start .expression).behind x, rfl, Int.zero_add x, hf⟩

theorem reads_sum {ts us : List Token} {sign : Token} {operator : Operator}
    {v w : Except Token Int} (hv : ReadsExpression ts v)
    (hs : sign.isPunctuator operator.text = true) (ho : operator = .add ∨ operator = .sub)
    (hw : Reads .term us w) : ReadsExpression (ts ++ sign :: us) (operator.join sign v w) := by
  cases v with
  | error slash =>
      intro outer
      rw [feed_append, hv outer]
      rfl
  | ok a =>
      obtain ⟨level, hq, rfl, hf⟩ := hv
      have hj : level.phrase.joins operator = true := by rw [hq]; rfl
      have hn : (level.operator sign operator).phrase = .expression ∧
          (level.operator sign operator).product = 1 ∧
          (level.operator sign operator).slash = none := by
        rcases ho with rfl | rfl <;> exact ⟨hq, rfl, rfl⟩
      have hr : ∀ outer, feed ⟨.operand, .start .expression, outer⟩ (ts ++ sign :: us) =
          (w.mapError .divisionByZero).map
            fun x => ⟨.operator, (level.operator sign operator).behind x, outer⟩ := by
        intro outer
        rw [feed_append, hf outer]
        show feed ⟨.operator, level, outer⟩ (sign :: us) = _
        rw [feed_cons, shift_operator hs hj]
        exact hw _ outer (by rw [hn.1]; decide) hn.2.1 hn.2.2
      cases w with
      | error slash => exact hr
      | ok b =>
          rcases ho with rfl | rfl
          · exact ⟨(level.operator sign .add).behind b, hn.1, rfl, hr⟩
          · exact ⟨(level.operator sign .sub).behind b, hn.1, rfl, hr⟩

/-- A phrase takes a stack that waits for it to the stack behind it, or to its
first division by zero. -/
theorem reads_of_derives {p : Phrase} {ts : List Token} {v : Except Token Int}
    (h : Derives p ts v) : Reads p ts v := by
  induction h with
  | numeral hk => exact reads_numeral hk
  | parentheses hl _ hr ih => exact reads_parentheses hl ih hr
  | factor _ ih => exact reads_factor ih
  | product _ hs ho _ ihl ihr => exact reads_product ihl hs ho ihr
  | term _ ih => exact reads_term ih
  | sum _ hs ho _ ihl ihr => exact reads_sum ihl hs ho ihr

/-- Fed with a phrase that means a number, a stack ends behind it with that number. -/
theorem feed_of_derives {p : Phrase} {ts : List Token} {x : Int} (h : Derives p ts (.ok x)) :
    ∃ level : Level, (start p).feed ts = .ok ⟨.operator, level, []⟩ ∧ level.value = x := by
  have hr := reads_of_derives h
  cases p with
  | expression =>
      obtain ⟨level, -, hv, hf⟩ := hr
      exact ⟨level, hf [], hv⟩
  | term => exact ⟨_, hr _ [] (by decide) rfl rfl, Int.zero_add x⟩
  | factor =>
      refine ⟨(Level.start .factor).behind x, ?_, Int.zero_add x⟩
      rw [start, hr]
      show operand _ _ x = _
      rw [operand, Level.operand_first rfl rfl]
      rfl

/-- Fed with a phrase that means a division by zero, a stack fails at it. -/
theorem feed_of_derives_error {p : Phrase} {ts : List Token} {slash : Token}
    (h : Derives p ts (.error slash)) : (start p).feed ts = .error (.divisionByZero slash) := by
  have hr := reads_of_derives h
  cases p with
  | expression => exact hr []
  | term => exact hr _ [] (by decide) rfl rfl
  | factor => exact hr _ []

/-- Where a stack fails at a phrase, this is what the phrase means. -/
theorem mapError_eq_of_feed {p : Phrase} {ts : List Token} {v : Except Token Int} {fault : Fault}
    (h : Derives p ts v) (hf : (start p).feed ts = .error fault) :
    v.mapError .divisionByZero = .error fault := by
  cases v with
  | ok x =>
      obtain ⟨level, hl, -⟩ := feed_of_derives h
      cases hl.symm.trans hf
  | error slash =>
      cases (feed_of_derives_error h).symm.trans hf
      rfl

end Stack

/-- A phrase has one meaning, however it is derived. -/
theorem Derives.unique {p : Phrase} {ts : List Token} {v w : Except Token Int}
    (hv : Derives p ts v) (hw : Derives p ts w) : v = w := by
  cases v with
  | error slash =>
      have hf := Stack.feed_of_derives_error hv
      cases w with
      | error slash' =>
          rw [Stack.feed_of_derives_error hw] at hf
          cases hf
          rfl
      | ok y =>
          obtain ⟨level, hl, -⟩ := Stack.feed_of_derives hw
          rw [hl] at hf
          cases hf
  | ok x =>
      obtain ⟨level, hf, rfl⟩ := Stack.feed_of_derives hv
      cases w with
      | error slash =>
          rw [Stack.feed_of_derives_error hw] at hf
          cases hf
      | ok y =>
          obtain ⟨level', hf', rfl⟩ := Stack.feed_of_derives hw
          rw [hf] at hf'
          cases hf'
          rfl

end Calculator
