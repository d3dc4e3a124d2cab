import Calculator.Proofs.Run

/-!
# The answer to a scan

What an expression comes to depends on nothing but its tokens and the fault that
stops them.  `Stack.answer` says how: the tokens are fed to a stack one by one,
and the first that cannot be fed decides.

* A parenthesis too many is a fault of its own.
* A token that is refused is the fault, unless it is the end of the text behind
  a complete expression.
* A division by zero is the fault, unless the token directly behind it cannot be
  read.  Then that is the fault.

If all tokens are fed, what stops them is the fault.

The law is `evaluateWithin_eq_answer`.  It holds for any limit on the
parentheses open at one time, so that two calculations can be compared by their
scans, token by token.
-/

namespace Calculator

namespace Stack

/-- Whether a token opens a level. -/
def opens (stack : Stack) (token : Token) : Bool :=
  stack.phase == .operand && token.isPunctuator ['(']

/-- Whether a token opens a level that is one too many. -/
def exceeds : Option Nat → Stack → Token → Bool
  | none, _, _ => false
  | some n, stack, token => stack.opens token && n.ble stack.outer.length

/-- What becomes of a fault at a token, where `behind` is the fault directly behind the token. -/
def conclude (stack : Stack) (behind : Option Fault) : Fault → Except Fault Int
  | .divisionByZero slash => .error (behind.getD (.divisionByZero slash))
  | .trailingInput token =>
      if token.kind = .endOfText then .ok stack.level.value else .error (.trailingInput token)
  | fault => .error fault

/-- The answer to tokens and to the fault that stops them.  A scan without a fault ends in the
token at the end, which is never fed. -/
def answer (limit : Option Nat) (stack : Stack) : List Token → Option Fault → Except Fault Int
  | [], none => .ok stack.level.value
  | [], some fault => .error fault
  | token :: rest, stop =>
      if stack.exceeds limit token then .error (.nestingTooDeep token)
      else
        match stack.shift token with
        | .ok next => next.answer limit rest stop
        | .error fault => stack.conclude (if rest.isEmpty then stop else none) fault

@[simp] theorem exceeds_none (stack : Stack) (token : Token) :
    stack.exceeds none token = false := rfl

@[simp] theorem exceeds_some_iff {n : Nat} {stack : Stack} {token : Token} :
    stack.exceeds (some n) token = true ↔ stack.opens token = true ∧ n ≤ stack.outer.length := by
  simp [exceeds]

theorem opens_iff {stack : Stack} {token : Token} :
    stack.opens token = true ↔ stack.phase = .operand ∧ token.isPunctuator ['('] = true := by
  simp [opens]

theorem answer_of_exceeds {limit : Option Nat} {stack : Stack} {token : Token}
    (h : stack.exceeds limit token = true) (rest : List Token) (stop : Option Fault) :
    stack.answer limit (token :: rest) stop = .error (.nestingTooDeep token) := by
  rw [answer, if_pos h]

theorem answer_of_shift {limit : Option Nat} {stack next : Stack} {token : Token}
    (he : stack.exceeds limit token = false) (h : stack.shift token = .ok next)
    (rest : List Token) (stop : Option Fault) :
    stack.answer limit (token :: rest) stop = next.answer limit rest stop := by
  simp only [answer, he, h, Bool.false_eq_true, if_false]

theorem answer_of_shift_error {limit : Option Nat} {stack : Stack} {token : Token} {fault : Fault}
    (he : stack.exceeds limit token = false) (h : stack.shift token = .error fault)
    (rest : List Token) (stop : Option Fault) :
    stack.answer limit (token :: rest) stop =
      stack.conclude (if rest.isEmpty then stop else none) fault := by
  simp only [answer, he, h, Bool.false_eq_true, if_false]

/-- A token that is refused is the fault, unless it is the end of the text. -/
theorem conclude_of_refuses {stack : Stack} {token : Token} {fault : Fault}
    (hr : fault.Refuses token) (hk : token.kind ≠ .endOfText) (behind : Option Fault) :
    stack.conclude behind fault = .error fault := by
  rcases hr with ⟨_, _, rfl⟩ | rfl
  · rfl
  · exact if_neg hk

/-! ## Without a limit -/

/-- Tokens that are fed are passed over. -/
theorem answer_append {stack next : Stack} {ts : List Token} (h : stack.feed ts = .ok next)
    (us : List Token) (stop : Option Fault) :
    stack.answer none (ts ++ us) stop = next.answer none us stop := by
  induction ts generalizing stack with
  | nil =>
      cases h
      rfl
  | cons token ts ih =>
      rw [feed_cons] at h
      cases hs : stack.shift token with
      | error fault => rw [hs] at h; cases h
      | ok middle =>
          rw [hs] at h
          rw [List.cons_append, answer_of_shift (exceeds_none ..) hs, ih h]

/-- Where tokens of the text cannot be fed, it does not matter what stands behind them and behind
one token more. -/
theorem answer_of_feed_error {stack : Stack} {ts : List Token} {fault : Fault}
    (h : stack.feed ts = .error fault) (hk : ∀ token ∈ ts, token.kind ≠ .endOfText)
    (next : Token) (rest : List Token) (stop : Option Fault) :
    stack.answer none (ts ++ next :: rest) stop = .error fault := by
  obtain ⟨us, token, vs, last, rfl, hf, hs⟩ := exists_shift_of_feed_error h
  have hbehind : (vs ++ next :: rest).isEmpty = false := by simp
  rw [List.append_assoc, answer_append hf, List.cons_append,
    answer_of_shift_error (exceeds_none ..) hs, hbehind]
  rcases shift_error hs with ⟨slash, rfl⟩ | hr
  · rfl
  · exact conclude_of_refuses hr (hk token (by simp)) none

/-- Two stacks answer alike where they make the same of a token each. -/
theorem answer_cons_congr {stack stack' : Stack} {token token' : Token}
    (h : stack.shift token = stack'.shift token') (ha : stack.Accepts token)
    (rest : List Token) (stop : Option Fault) :
    stack.answer none (token :: rest) stop = stack'.answer none (token' :: rest) stop := by
  cases hs : stack.shift token with
  | ok next =>
      rw [answer_of_shift (exceeds_none ..) hs, answer_of_shift (exceeds_none ..) (h ▸ hs)]
  | error fault =>
      obtain ⟨slash, rfl⟩ := ha fault hs
      rw [answer_of_shift_error (exceeds_none ..) hs,
        answer_of_shift_error (exceeds_none ..) (h ▸ hs)]
      rfl

end Stack

/-! ## The machine -/

namespace State

theorem step_of_exceeds {limit : Option Nat} {state : State}
    (h : state.stack.exceeds limit state.reader.token = true) :
    state.step limit = .done (.error (.nestingTooDeep state.reader.token)) state.reader := by
  obtain ⟨phase, level, outer, reader⟩ := state
  cases limit with
  | none => cases h
  | some n =>
      obtain ⟨ho, hn⟩ := Stack.exceeds_some_iff.1 h
      obtain ⟨hphase, hp⟩ := Stack.opens_iff.1 ho
      cases hphase
      have hs : step (some n) ⟨.operand, level, outer, reader⟩ =
          openLevel (some n) ⟨.operand, level, outer, reader⟩ := if_pos hp
      rw [hs, openLevel]
      exact if_pos (decide_eq_true hn)

/-- The limit makes no other difference. -/
theorem step_of_not_exceeds {limit : Option Nat} {state : State}
    (h : state.stack.exceeds limit state.reader.token = false) :
    state.step limit = state.step none := by
  obtain ⟨phase, level, outer, reader⟩ := state
  cases phase with
  | operator => rfl
  | operand =>
      by_cases hp : reader.token.isPunctuator ['('] = true
      · have hs : ∀ limit, step limit ⟨.operand, level, outer, reader⟩ =
            openLevel limit ⟨.operand, level, outer, reader⟩ := fun _ => if_pos hp
        rw [hs, hs]
        cases limit with
        | none => rfl
        | some n =>
            refine if_neg fun hn => Bool.eq_false_iff.1 h (Stack.exceeds_some_iff.2 ?_)
            exact ⟨Stack.opens_iff.2 ⟨rfl, hp⟩, of_decide_eq_true hn⟩
      · exact (if_neg hp).trans (if_neg hp).symm

/-- The answer where a calculation has to reach to the end. -/
def settle : Except Fault Int × Reader → Except Fault Int
  | (.ok value, reader) =>
      if reader.token.kind = .endOfText then .ok value else .error (.trailingInput reader.token)
  | (.error fault, _) => .error fault

/-- The last step of a calculation that does not run into the limit. -/
theorem settle_of_step_done {limit : Option Nat} {state : State} {result : Except Fault Int}
    {reader : Reader} (h : state.step limit = .done result reader)
    (he : state.stack.exceeds limit state.reader.token = false) :
    settle (result, reader) =
      state.stack.answer limit state.reader.ahead.1 state.reader.ahead.2 := by
  have hc := steps none state
  rw [← step_of_not_exceeds he, h] at hc
  obtain ⟨rest, hrest⟩ := state.reader.exists_ahead_eq
  cases hc with
  | @unread fault _ ha hadv =>
      rw [Reader.ahead_of_advance_error ha.kind_ne hadv]
      cases hs : state.stack.shift state.reader.token with
      | ok next => rw [Stack.answer_of_shift he hs]; rfl
      | error fault' =>
          obtain ⟨slash, rfl⟩ := ha fault' hs
          rw [Stack.answer_of_shift_error he hs]
          rfl
  | divided hs hadv =>
      obtain ⟨behind, hbehind⟩ := reader.exists_ahead_eq
      rw [Reader.ahead_of_advance (Stack.accepts_of_shift_error hs).kind_ne hadv, hbehind,
        Stack.answer_of_shift_error he hs]
      rfl
  | refused hs =>
      rw [hrest, Stack.answer_of_shift_error he hs]
      rfl
  | complete hp ho hs =>
      rw [hrest, Stack.answer_of_shift_error he hs]
      rfl
  | tooDeep hn _ => cases hn

/-- A run comes to what its stack answers to the tokens ahead. -/
theorem settle_run (limit : Option Nat) (state : State) :
    settle (state.run limit) =
      state.stack.answer limit state.reader.ahead.1 state.reader.ahead.2 := by
  fun_induction run limit state with
  | case1 state next h ih =>
      have he : state.stack.exceeds limit state.reader.token = false := by
        rw [← Bool.not_eq_true]
        intro he
        cases (step_of_exceeds he).symm.trans h
      obtain ⟨hs, ha⟩ := step_next h
      rw [ih, Reader.ahead_of_advance (Stack.accepts_of_shift hs).kind_ne ha,
        Stack.answer_of_shift he hs]
  | case2 state result reader h =>
      cases he : state.stack.exceeds limit state.reader.token with
      | true =>
          cases (step_of_exceeds he).symm.trans h
          obtain ⟨rest, hrest⟩ := state.reader.exists_ahead_eq
          rw [hrest, Stack.answer_of_exceeds he]
          rfl
      | false => exact settle_of_step_done h he

end State

/-- The value of an expression, or its fault, is the answer to its scan. -/
theorem evaluateWithin_eq_answer (limit : Option Nat) (text : Text) :
    evaluateWithin limit text =
      (Stack.start .expression).answer limit (scan text).1 (scan text).2 := by
  rw [evaluateWithin]
  cases ho : Reader.ofText text with
  | error fault => rw [Reader.scan_of_ofText_error ho]; rfl
  | ok reader =>
      have hr := State.settle_run limit (.start .expression reader)
      rw [← Reader.ahead_of_ofText ho]
      refine Eq.trans ?_ hr
      show (reader.wholeWithin limit).1 = State.settle (reader.phraseWithin limit .expression)
      rw [Reader.wholeWithin]
      generalize reader.phraseWithin limit .expression = result
      obtain ⟨fault | value, last⟩ := result
      · rfl
      · exact apply_ite Prod.fst _ _ _

end Calculator
