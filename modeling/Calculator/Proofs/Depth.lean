import Calculator.Proofs.Answer
import Calculator.Proofs.Cutting
import Calculator.Proofs.Openings

/-!
# The limit on open parentheses

A calculation may have no more than some number of parentheses open at one time.
The limit depends on nothing else: not on the length of a text, nor on how many
parentheses it opens and closes again.

How deep a calculation is at a state is said of the calculation without a limit.
A parenthesis counts from where it is the current token, since this is where the
limit forbids it (`State.depth`).

* A calculation that never gets deeper than the limit does not fail because of
  it (`not_tooDeep_of_depthAtMost`).
* One that does get deeper fails, whatever stands behind the parenthesis, which
  is not even read (`exists_tooDeep_of_reaches`).
* Any other answer is the one without a limit (`Stack.answer_limit`).  So a fault
  in front of the parenthesis is not hidden by the limit.
-/

namespace Calculator

namespace Stack

/-! ## Depth -/

/-- The number of parentheses open at a token, the one that it opens included. -/
def depth (stack : Stack) (token : Token) : Nat :=
  stack.outer.length + (stack.opens token).toNat

theorem lt_depth_of_exceeds {n : Nat} {stack : Stack} {token : Token}
    (h : stack.exceeds (some n) token = true) : n < stack.depth token := by
  obtain ⟨ho, hn⟩ := exceeds_some_iff.1 h
  rw [depth, ho]
  exact Nat.lt_succ_of_le hn

theorem exceeds_of_lt_depth {n : Nat} {stack : Stack} {token : Token}
    (ho : stack.outer.length ≤ n) (h : n < stack.depth token) :
    stack.exceeds (some n) token = true := by
  rw [depth] at h
  cases hopens : stack.opens token with
  | false =>
      rw [hopens] at h
      exact absurd ho (Nat.not_le.2 h)
  | true =>
      rw [hopens] at h
      exact exceeds_some_iff.2 ⟨hopens, Nat.le_of_lt_succ h⟩

/-- A token opens no more than it is counted for. -/
theorem length_outer_le_depth {stack next : Stack} {token : Token}
    (h : stack.shift token = .ok next) : next.outer.length ≤ stack.depth token := by
  have hc := shifts stack token
  rw [h] at hc
  rw [depth]
  cases hc with
  | opens hp => rw [opens_iff.2 ⟨rfl, hp⟩]; exact Nat.le_refl _
  | numeral _ ho => rw [(eq_of_operand ho).2]; exact Nat.le_add_right _ _
  | operator _ _ => exact Nat.le_add_right _ _
  | closes _ ho =>
      rw [(eq_of_operand ho).2]
      exact Nat.le_trans (Nat.le_succ _) (Nat.le_add_right _ _)

/-- Where a stack gets deeper than it was, one token opens the first level too many. -/
theorem exists_exceeds {n : Nat} {stack last : Stack} {ts : List Token} {token : Token}
    (ho : stack.outer.length ≤ n) (h : stack.feed ts = .ok last) (hn : n < last.depth token) :
    ∃ us opening vs next, ts ++ [token] = us ++ opening :: vs ∧ stack.feed us = .ok next ∧
      next.exceeds (some n) opening = true := by
  induction ts generalizing stack with
  | nil =>
      cases h
      exact ⟨[], token, [], _, rfl, rfl, exceeds_of_lt_depth ho hn⟩
  | cons first ts ih =>
      cases hs : stack.shift first with
      | error fault => rw [feed_cons, hs] at h; cases h
      | ok middle =>
          rw [feed_cons, hs] at h
          by_cases hm : middle.outer.length ≤ n
          · obtain ⟨us, opening, vs, next, he, hf, hx⟩ := ih hm h
            refine ⟨first :: us, opening, vs, next, congrArg (first :: ·) he, ?_, hx⟩
            rw [feed_cons, hs]
            exact hf
          · -- The stack is too deep behind this token, so the token has opened the level.
            have hd := Nat.lt_of_lt_of_le (Nat.not_le.1 hm) (length_outer_le_depth hs)
            exact ⟨[], first, ts ++ [token], stack, rfl, rfl, exceeds_of_lt_depth ho hd⟩

/-! ## Answers with and without a limit -/

/-- A limit changes no answer but to its own fault. -/
theorem answer_limit (limit : Option Nat) (stack : Stack) (ts : List Token) (stop : Option Fault) :
    stack.answer limit ts stop = stack.answer none ts stop ∨
      ∃ token, stack.answer limit ts stop = .error (.nestingTooDeep token) := by
  induction ts generalizing stack with
  | nil => exact Or.inl (by cases stop <;> rfl)
  | cons token ts ih =>
      cases he : stack.exceeds limit token with
      | true => exact Or.inr ⟨token, answer_of_exceeds he ts stop⟩
      | false =>
          cases hs : stack.shift token with
          | ok next =>
              rw [answer_of_shift he hs, answer_of_shift (exceeds_none ..) hs]
              exact ih next
          | error fault =>
              rw [answer_of_shift_error he hs, answer_of_shift_error (exceeds_none ..) hs]
              exact Or.inl rfl

/-- The first level too many is the answer, whatever stands behind. -/
theorem exists_tooDeep_of_exceeds {limit : Option Nat} {stack next : Stack} {us : List Token}
    {token : Token} (h : stack.feed us = .ok next) (he : next.exceeds limit token = true)
    (rest : List Token) (stop : Option Fault) :
    ∃ opening,
      stack.answer limit (us ++ token :: rest) stop = .error (.nestingTooDeep opening) := by
  induction us generalizing stack with
  | nil =>
      cases h
      exact ⟨token, answer_of_exceeds he rest stop⟩
  | cons first us ih =>
      cases hs : stack.shift first with
      | error fault => rw [feed_cons, hs] at h; cases h
      | ok middle =>
          rw [feed_cons, hs] at h
          cases hx : stack.exceeds limit first with
          | true => exact ⟨first, answer_of_exceeds hx _ stop⟩
          | false =>
              rw [List.cons_append, answer_of_shift hx hs]
              exact ih h

/-- A token that cannot be fed is no level too many. -/
theorem conclude_ne_tooDeep {stack : Stack} {token token' : Token} {fault : Fault}
    {behind : Option Fault} (h : stack.shift token = .error fault)
    (hl : ∀ fault ∈ behind, fault.isLexical = true) :
    stack.conclude behind fault ≠ .error (.nestingTooDeep token') := by
  rcases shift_error h with ⟨slash, rfl⟩ | ⟨_, _, rfl⟩ | rfl
  · cases behind with
    | none => exact nofun
    | some fault =>
        rintro ⟨⟩
        cases hl _ rfl
  · exact nofun
  · rw [conclude]
    split
    · exact nofun
    · exact nofun

/-- Nothing else has this answer. -/
theorem exists_exceeds_of_answer {limit : Option Nat} {stack : Stack} {ts : List Token}
    {stop : Option Fault} {token : Token} (hl : ∀ fault ∈ stop, fault.isLexical = true)
    (h : stack.answer limit ts stop = .error (.nestingTooDeep token)) :
    ∃ us rest next, ts = us ++ token :: rest ∧ stack.feed us = .ok next ∧
      next.exceeds limit token = true := by
  induction ts generalizing stack with
  | nil =>
      cases stop with
      | none => cases h
      | some fault =>
          cases h
          cases hl _ rfl
  | cons first ts ih =>
      cases he : stack.exceeds limit first with
      | true =>
          rw [answer_of_exceeds he] at h
          cases h
          exact ⟨[], ts, stack, rfl, rfl, he⟩
      | false =>
          cases hs : stack.shift first with
          | ok next =>
              rw [answer_of_shift he hs] at h
              obtain ⟨us, rest, last, rfl, hf, hx⟩ := ih h
              refine ⟨first :: us, rest, last, rfl, ?_, hx⟩
              rw [feed_cons, hs]
              exact hf
          | error fault =>
              rw [answer_of_shift_error he hs] at h
              refine absurd h (conclude_ne_tooDeep hs ?_)
              split
              · exact hl
              · exact nofun

end Stack

/-! ## States -/

namespace State

/-- The number of parentheses open at a state, the one that comes next included. -/
def depth (state : State) : Nat := state.stack.depth state.reader.token

theorem depth_opened (k n : Nat) : (opened k n).depth = k + 1 :=
  congrArg (· + 1) List.length_replicate

/-- What a stack can be fed with, the machine accepts. -/
theorem exists_reaches_of_feed {state : State} {stack : Stack} {ts rest : List Token}
    {token : Token} {stop : Option Fault} (ha : state.reader.ahead = (ts ++ token :: rest, stop))
    (hf : state.stack.feed ts = .ok stack) :
    ∃ last, Reaches none state ts last ∧ last.stack = stack ∧ last.reader.token = token := by
  obtain ⟨behind, hbehind⟩ := state.reader.exists_ahead_eq
  have hahead := hbehind.symm.trans (congrArg Prod.fst ha)
  induction ts generalizing state behind with
  | nil =>
      cases hf
      cases hahead
      exact ⟨state, .refl state, rfl, rfl⟩
  | cons first ts ih =>
      cases hahead
      cases hs : state.stack.shift state.reader.token with
      | error fault => rw [Stack.feed_cons, hs] at hf; cases hf
      | ok next =>
          rw [Stack.feed_cons, hs] at hf
          have hk := (Stack.accepts_of_shift hs).kind_ne
          have hc := steps none state
          generalize hturn : state.step none = turn at hc
          cases hc with
          | @moved _ reader hs' hadv =>
              cases hs.symm.trans hs'
              rw [Reader.ahead_of_advance hk hadv, Prod.mk.injEq, List.cons_append,
                List.cons.injEq] at ha
              obtain ⟨⟨-, hrest⟩, hstop⟩ := ha
              obtain ⟨behind, hbehind⟩ := reader.exists_ahead_eq
              obtain ⟨last, hr, hl, ht⟩ := @ih (ofStack next reader) (Prod.ext hrest hstop) hf
                behind hbehind (hbehind.symm.trans hrest)
              exact ⟨last, .head hturn hr, hl, ht⟩
          | unread _ hadv =>
              rw [Reader.ahead_of_advance_error hk hadv] at ha
              cases ts <;> cases ha
          | divided hs' _ => cases hs.symm.trans hs'
          | refused hs' => cases hs.symm.trans hs'
          | complete _ _ hs' => cases hs.symm.trans hs'
          | tooDeep hn _ => cases hn

end State

/-! ## Texts -/

/-- `DepthAtMost n text`: without a limit, the calculation of a text never comes to a parenthesis
with which more than `n` are open at one time. -/
def DepthAtMost (n : Nat) (text : Text) : Prop :=
  ∀ reader, Reader.ofText text = .ok reader →
    ∀ ts state, State.Reaches none (.start .expression reader) ts state → state.depth ≤ n

theorem depthAtMost_of_opensAtMost {n : Nat} {text : Text} (h : OpensAtMost n text) :
    DepthAtMost (n + 1) text := by
  intro reader ho ts state hr
  have hb := Bool.toNat_le (state.stack.opens state.reader.token)
  exact Nat.add_le_add (h reader ho ts state hr) hb

/-- A calculation fails because of the limit only where it gets deeper. -/
theorem exists_reaches_of_tooDeep {n : Nat} {text : Text} {token : Token}
    (h : evaluateWithin (some n) text = .error (.nestingTooDeep token)) :
    ∃ reader ts state, Reader.ofText text = .ok reader ∧
      State.Reaches none (.start .expression reader) ts state ∧
      state.stack.exceeds (some n) state.reader.token = true := by
  rw [evaluateWithin_eq_answer] at h
  obtain ⟨us, rest, next, hs, hf, hx⟩ :=
    Stack.exists_exceeds_of_answer (fun _ hm => Lexer.scan_fault hm) h
  cases ho : Reader.ofText text with
  | error fault =>
      rw [Reader.scan_of_ofText_error ho] at hs
      cases us <;> cases hs
  | ok reader =>
      rw [← Reader.ahead_of_ofText ho] at hs
      obtain ⟨last, hr, rfl, rfl⟩ := @State.exists_reaches_of_feed (.start .expression reader) _ _
        _ _ _ (Prod.ext hs rfl) hf
      exact ⟨reader, us, last, rfl, hr, hx⟩

theorem not_tooDeep_of_depthAtMost {m n : Nat} {text : Text} (h : DepthAtMost m text)
    (hmn : m ≤ n) (token : Token) :
    evaluateWithin (some n) text ≠ .error (.nestingTooDeep token) := by
  intro he
  obtain ⟨reader, ts, state, ho, hr, hx⟩ := exists_reaches_of_tooDeep he
  have hd := h reader ho ts state hr
  have hlt : n < state.depth := Stack.lt_depth_of_exceeds hx
  omega

theorem not_tooDeep_of_opensAtMost {m n : Nat} {text : Text} (h : OpensAtMost m text)
    (hmn : m < n) (token : Token) :
    evaluateWithin (some n) text ≠ .error (.nestingTooDeep token) := by
  intro he
  obtain ⟨reader, ts, state, ho, hr, hx⟩ := exists_reaches_of_tooDeep he
  have hd := h reader ho ts state hr
  have hle : n ≤ state.outer.length := (Stack.exceeds_some_iff.1 hx).2
  omega

/-- A limit that is not the answer changes nothing. -/
theorem evaluateWithin_eq_none {limit : Option Nat} {text : Text}
    (h : ∀ token, evaluateWithin limit text ≠ .error (.nestingTooDeep token)) :
    evaluateWithin limit text = evaluateWithin none text := by
  rw [evaluateWithin_eq_answer] at h
  rw [evaluateWithin_eq_answer, evaluateWithin_eq_answer]
  rcases Stack.answer_limit limit (Stack.start .expression) (scan text).1 (scan text).2 with
    he | ⟨token, he⟩
  · exact he
  · exact absurd he (h token)

/-- A calculation that gets deeper than the limit fails because of it, and no text behind the token
where it is deeper makes a difference. -/
theorem exists_tooDeep_of_reaches {n : Nat} {text : Text} {reader : Reader} {ts : List Token}
    {state : State} (ho : Reader.ofText text = .ok reader)
    (hr : State.Reaches none (.start .expression reader) ts state) (hn : n < state.depth)
    (rest : Text) :
    ∃ token, evaluateWithin (some n) (text.take state.reader.token.stop.toNat ++ rest) =
      .error (.nestingTooDeep token) := by
  obtain ⟨behind, hbehind⟩ := state.reader.exists_ahead_eq
  have hscan := (Reader.ahead_of_ofText ho).symm.trans hr.ahead
  rw [hbehind] at hscan
  obtain ⟨us, opening, vs, next, hsplit, hf, hx⟩ :=
    Stack.exists_exceeds (Nat.zero_le n) hr.feed hn
  obtain ⟨front, tail, lexemes, rfl, hl, hstop, hlexemes⟩ := exists_lexes_to_token hscan
  have hp := (Stack.opens_iff.1 (Stack.exceeds_some_iff.1 hx).1).2
  -- The limit may be met in front of the last token, so the parenthesis is one of the lexemes.
  have hus : ∃ ws, lexemes = us ++ opening :: ws := by
    rcases hlexemes with rfl | ⟨rfl, hk⟩
    · exact ⟨vs, hsplit⟩
    · rcases concat_split hsplit with ⟨-, rfl⟩ | ⟨between, hb⟩
      · exact absurd hk (Token.kind_ne_of_isPunctuator hp)
      · exact ⟨between, hb⟩
  obtain ⟨ws, rfl⟩ := hus
  obtain ⟨first, span, last, rfl, hfirst, -, hsp, -⟩ := hl.exists_span
  have hspan : span = ['('] := by
    obtain ⟨hkind, htext⟩ := Token.is_iff.1 hp
    rw [hkind, htext] at hsp
    cases hsp
    rfl
  subst hspan
  have htake : (first ++ (['('] ++ last) ++ tail).take state.reader.token.stop.toNat ++ rest =
      first ++ (['('] ++ (last ++ rest)) := by
    rw [hstop, Int.toNat_natCast, List.take_left, List.append_assoc, List.append_assoc]
  have hd : Detached (['('] ++ (last ++ rest)) := detached_cons (by decide) _
  rw [htake, evaluateWithin_eq_answer, scan_append_lexes hfirst hd,
    Lexer.scan_append (spells_parenthesis (Or.inl rfl) _)]
  refine Stack.exists_tooDeep_of_exceeds hf ?_ _ _
  rw [Stack.exceeds_some_iff, Stack.opens_iff] at hx ⊢
  exact ⟨⟨hx.1.1, rfl⟩, hx.2⟩

/-- A limit that stops a calculation at more than 200 and at most 1000 open parentheses, where up to
`n` are allowed, is seen in no other calculation, however long the text. -/
theorem nesting_limit_transparent {n : Nat} (h : 200 < n + 1) (h' : n + 1 ≤ 1000) (text : Text) :
    (DepthAtMost 200 text →
      ∀ token, evaluateWithin (some n) text ≠ .error (.nestingTooDeep token)) ∧
    (OpensAtMost 200 text → 200 < n →
      ∀ token, evaluateWithin (some n) text ≠ .error (.nestingTooDeep token)) ∧
    (∀ reader ts state, Reader.ofText text = .ok reader →
      State.Reaches none (.start .expression reader) ts state → 1000 ≤ state.depth →
      ∀ rest, ∃ token, evaluateWithin (some n) (text.take state.reader.token.stop.toNat ++ rest) =
        .error (.nestingTooDeep token)) ∧
    ((∀ token, evaluateWithin (some n) text ≠ .error (.nestingTooDeep token)) →
      evaluateWithin (some n) text = evaluateWithin none text) := by
  refine ⟨?_, not_tooDeep_of_opensAtMost, ?_, evaluateWithin_eq_none⟩
  · intro hd
    exact not_tooDeep_of_depthAtMost hd (Nat.le_of_lt_succ h)
  · intro reader ts state ho hr hn
    exact exists_tooDeep_of_reaches ho hr (Nat.lt_of_lt_of_le h' hn)

/-- The usual limit is such a limit.  It is not seen where two parentheses are open, and 1000 of
them are too many, whatever stands behind them. -/
theorem nesting_limit_transparent_usual :
    200 < openLimit + 1 ∧ openLimit + 1 ≤ 1000 ∧
      DepthAtMost 200 "((1)+2)/(3-3)".toList ∧
      (∀ token, evaluate "((1)+2)/(3-3)".toList ≠ .error (.nestingTooDeep token)) ∧
      evaluate "((1)+2)/(3-3)".toList = evaluateWithin none "((1)+2)/(3-3)".toList ∧
      (∃ reader ts state, Reader.ofText (openings 1000) = .ok reader ∧
        State.Reaches none (.start .expression reader) ts state ∧ 1000 ≤ state.depth) ∧
      ∀ rest, ∃ token, evaluate (openings 1000 ++ rest) = .error (.nestingTooDeep token) := by
  have hd : DepthAtMost 200 "((1)+2)/(3-3)".toList :=
    depthAtMost_of_opensAtMost (opensAtMost_of_length_le (by decide : _ ≤ 199))
  have h := @nesting_limit_transparent openLimit (by decide) (by decide) "((1)+2)/(3-3)".toList
  have ho := Reader.ofText_openings 999
  obtain ⟨ts, hr⟩ := State.reaches_opened 0 999 0
  have hdepth : 1000 ≤ (State.opened 999 0).depth := Nat.le_of_eq (State.depth_opened 999 0).symm
  have htake : (openings 1000).take (State.opened 999 0).reader.token.stop.toNat = openings 1000 :=
    List.take_of_length_le (Nat.le_of_eq List.length_replicate)
  have h' := (@nesting_limit_transparent openLimit (by decide) (by decide) (openings 1000)).2.2.1
    _ ts _ ho hr hdepth
  rw [htake] at h'
  exact ⟨by decide, by decide, hd, h.1 hd, h.2.2.2 (h.1 hd), ⟨_, ts, _, ho, hr, hdepth⟩, h'⟩

end Calculator
