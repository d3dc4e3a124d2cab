import Calculator.Proofs.Cutting
import Calculator.Proofs.Depth
import Calculator.Proofs.Relocation

/-!
# Replacing an expression in parentheses

An expression in parentheses can be replaced by any other of the same value.
The two expressions may have different lengths, so all that stands behind them
is at other offsets.  Offsets are part of faults, but not of their sorts.  So
the two texts are compared without offsets, by their `outline`, on which the
value and the sort of the fault depend (`evaluateWithin_cause`).

There are no conditions on the text around.  If it can be read up to the
parenthesis, its tokens lead to a place where an operand can stand, and there
the value is all that is left behind the closing parenthesis
(`Stack.answer_replace`), or they lead to a fault in front of it or at it.  If
it cannot be read, nothing behind the fault matters.  And if the parenthesis
stands inside of a string literal, the literal is refused, whatever it says
(`Stack.answer_literal`).  Neither expression can end the literal, since it has
no quotes (`Lexes.not_mem_quote`).
-/

namespace Calculator

/-- A text in parentheses, with other texts around. -/
def parenthesised (front inner back : Text) : Text := front ++ '(' :: (inner ++ ')' :: back)

/-! ## Without offsets -/

/-- What a scan finds in a text, without offsets. -/
def outline (text : Text) : List Token × Option Fault :=
  ((scan text).1.map (.moved fun _ => 0), (scan text).2.map (.moved fun _ => 0))

/-- The offset from which a text is scanned is not part of its outline. -/
theorem outline_eq_scan (position : Nat) (text : Text) :
    outline text = ((Lexer.scan ⟨position, text, false⟩).1.map (.moved fun _ => 0),
      (Lexer.scan ⟨position, text, false⟩).2.map (.moved fun _ => 0)) := by
  have hlater := Lexer.scan_later position ⟨0, text, false⟩
  rw [Lexer.later, Nat.zero_add] at hlater
  rw [hlater, List.map_map, Option.map_map]
  exact Prod.ext (List.map_congr_left fun _ _ => rfl)
    (Option.map_congr fun fault _ => (fault.moved_moved (· + position) fun _ => 0).symm)

theorem outline_append {front rest : Text} {lexemes : List Token} (h : Lexes 0 front lexemes)
    (hd : Detached rest) :
    outline (front ++ rest) =
      (lexemes.map (.moved fun _ => 0) ++ (outline rest).1, (outline rest).2) := by
  rw [outline, scan_append_lexes h hd, List.map_append, outline_eq_scan front.length rest]

theorem outline_cons {kind : Kind} {text span rest : Text} (h : Spells kind text span rest) :
    outline (span ++ rest) =
      (⟨kind, text, 0, span.length⟩ :: (outline rest).1, (outline rest).2) := by
  have hs : scan (span ++ rest) = _ := Lexer.scan_append h false
  rw [outline, hs, outline_eq_scan (0 + span.length) rest]
  rfl

theorem outline_of_stops {location : Nat} {rest : Text} {fault : Fault}
    (h : Stops location rest (some fault)) :
    outline rest = ([], some (fault.moved fun _ => 0)) := by
  rw [outline_eq_scan location, h.scan_eq]
  rfl

/-- The value of an expression, and the sort of its fault, do not depend on offsets. -/
theorem evaluateWithin_cause (limit : Option Nat) (text : Text) :
    (evaluateWithin limit text).mapError Fault.cause =
      ((Stack.start .expression).answer limit (outline text).1 (outline text).2).mapError
        Fault.cause := by
  have hm := Stack.answer_moved limit (fun _ => 0) (Stack.start .expression) (scan text).1
    (scan text).2
  rw [← evaluateWithin_eq_answer] at hm
  have ho : (Stack.start .expression).answer limit (outline text).1 (outline text).2 =
      (evaluateWithin limit text).mapError (.moved fun _ => 0) := hm
  rw [ho]
  cases evaluateWithin limit text with
  | ok value => rfl
  | error fault => exact congrArg Except.error (fault.moved_cause _).symm

namespace Stack

/-! ## Inside of a calculation -/

/-- A parenthesis opens a level where an operand can stand, and nowhere else. -/
theorem phase_of_shift_open {stack next : Stack} {left : Token}
    (hl : left.isPunctuator ['('] = true) (h : stack.shift left = .ok next) :
    stack.phase = .operand := by
  have hc := shifts stack left
  rw [h] at hc
  cases hc with
  | opens _ => rfl
  | numeral _ _ => rfl
  | @operator _ _ _ operator ht _ =>
      rw [Token.isPunctuator_eq hl] at ht
      cases operator <;> cases of_decide_eq_true ht
  | closes hp _ =>
      rw [Token.isPunctuator_eq hl] at hp
      cases of_decide_eq_true hp

/-- Behind its closing parenthesis nothing is left of an expression but its value. -/
theorem answer_expression {ts ts' : List Token} {right : Token} {x : Int}
    (h : Derives .expression ts (.ok x)) (h' : Derives .expression ts' (.ok x))
    (hr : right.isPunctuator [')'] = true) (level : Level) (outer : List Level)
    (rest : List Token) (stop : Option Fault) :
    answer none ⟨.operand, .start .expression, level :: outer⟩ (ts ++ right :: rest) stop =
      answer none ⟨.operand, .start .expression, level :: outer⟩ (ts' ++ right :: rest) stop := by
  obtain ⟨inner, -, hv, hf⟩ := reads_of_derives h
  obtain ⟨inner', -, hv', hf'⟩ := reads_of_derives h'
  rw [answer_append (hf _), answer_append (hf' _)]
  refine answer_cons_congr ?_ (fun fault hs => ?_) rest stop
  · rw [shift_close hr, shift_close hr, hv, hv']
  · rw [shift_close hr] at hs
    exact operand_error hs

/-- Two expressions of the same value in parentheses make no difference, whatever is fed in front of
them. -/
theorem answer_replace {stack : Stack} {us ts ts' : List Token} {left right : Token} {x : Int}
    (h : Derives .expression ts (.ok x)) (h' : Derives .expression ts' (.ok x))
    (hk : ∀ token ∈ us, token.kind ≠ .endOfText) (hl : left.isPunctuator ['('] = true)
    (hr : right.isPunctuator [')'] = true) (rest : List Token) (stop : Option Fault) :
    stack.answer none (us ++ left :: (ts ++ right :: rest)) stop =
      stack.answer none (us ++ left :: (ts' ++ right :: rest)) stop := by
  cases hf : stack.feed us with
  | error fault => rw [answer_of_feed_error hf hk, answer_of_feed_error hf hk]
  | ok next =>
      rw [answer_append hf, answer_append hf]
      cases hs : next.shift left with
      | error fault =>
          -- What is directly behind is a token in both cases, so it changes no fault.
          have hrest : ∀ ts, (ts ++ right :: rest).isEmpty = false := by simp
          rw [answer_of_shift_error (exceeds_none ..) hs,
            answer_of_shift_error (exceeds_none ..) hs, hrest, hrest]
      | ok inside =>
          obtain ⟨phase, level, outer⟩ := next
          cases phase_of_shift_open hl hs
          cases (shift_open hl level outer).symm.trans hs
          rw [answer_of_shift (exceeds_none ..) hs, answer_of_shift (exceeds_none ..) hs]
          exact answer_expression h h' hr level outer rest stop

theorem exists_refuses_of_literal (stack : Stack) {token : Token}
    (h : token.kind = .stringLiteral) :
    ∃ fault, stack.shift token = .error fault ∧ fault.Refuses token := by
  have hp : ∀ text, token.isPunctuator text = false :=
    Token.isPunctuator_of_ne (by rw [h]; decide)
  have hc := shifts stack token
  generalize stack.shift token = result at hc
  cases hc with
  | opens ht => cases (hp _).symm.trans ht
  | numeral hk _ => cases h.symm.trans hk
  | noOperand _ _ => exact ⟨_, rfl, Or.inl ⟨_, _, rfl⟩⟩
  | operator ht _ => cases (hp _).symm.trans ht
  | closes ht _ => cases (hp _).symm.trans ht
  | noClose _ _ => exact ⟨_, rfl, Or.inl ⟨_, _, rfl⟩⟩
  | trailing _ => exact ⟨_, rfl, Or.inr rfl⟩

/-- Of what sort a refusal is depends on the stack only. -/
theorem cause_of_refuses {stack : Stack} {token : Token} {fault : Fault}
    (h : stack.shift token = .error fault) (hr : fault.Refuses token) :
    fault.cause = if stack.phase == .operator && stack.outer.isEmpty then .trailingInput
      else .unexpectedToken := by
  obtain ⟨phase, level, outer⟩ := stack
  rcases refusal_cases h hr with ⟨hp, rfl⟩ | ⟨hp, ho, rfl⟩ | ⟨hp, ho, rfl⟩
  · cases hp
    rfl
  · cases hp
    cases outer with
    | nil => exact absurd rfl ho
    | cons next outer => rfl
  · cases hp
    cases ho
    rfl

/-- A string literal is never part of a calculation.  So it does not matter what it says, nor what
stands behind it. -/
theorem answer_literal {stack : Stack} {us rest rest' : List Token} {token token' : Token}
    {stop stop' : Option Fault} (hk : ∀ token ∈ us, token.kind ≠ .endOfText)
    (h : token.kind = .stringLiteral) (h' : token'.kind = .stringLiteral) :
    (stack.answer none (us ++ token :: rest) stop).mapError Fault.cause =
      (stack.answer none (us ++ token' :: rest') stop').mapError Fault.cause := by
  cases hf : stack.feed us with
  | error fault => rw [answer_of_feed_error hf hk, answer_of_feed_error hf hk]
  | ok next =>
      obtain ⟨fault, hs, hr⟩ := next.exists_refuses_of_literal h
      obtain ⟨fault', hs', hr'⟩ := next.exists_refuses_of_literal h'
      rw [answer_append hf, answer_append hf, answer_of_shift_error (exceeds_none ..) hs,
        answer_of_shift_error (exceeds_none ..) hs',
        conclude_of_refuses hr (by rw [h]; decide), conclude_of_refuses hr' (by rw [h']; decide)]
      refine congrArg Except.error ?_
      rw [cause_of_refuses hs hr, cause_of_refuses hs' hr']

end Stack

/-! ## Around an expression -/

/-- An expression that has a value is made of the tokens of a phrase. -/
theorem exists_derives_of_evaluate {text : Text} {x : Int} (h : evaluate text = .ok x) :
    ∃ ts, Lexes 0 text ts ∧ Derives .expression ts (.ok x) := by
  have hv : Verdict (some openLimit) text (evaluate text) := verdict (some openLimit) text
  rw [h] at hv
  cases hv with
  | @value ts last level hs hf =>
      obtain ⟨lexemes, he, hl⟩ := tokens_eq_ok_iff_lexes.1 (tokens_eq_ok_iff.2 hs)
      obtain ⟨rfl, -⟩ := List.append_inj' he rfl
      exact ⟨ts, hl, Stack.derives_of_feed hf⟩

theorem Spells.not_mem_quote {kind : Kind} {text span rest : Text} {quote : Char}
    (h : Spells kind text span rest) (hk : kind = .punctuator ∨ kind = .numeric)
    (hq : quote = '\'' ∨ quote = '"') : quote ∉ span := by
  intro hm
  cases h with
  | numeral _ hd _ => rcases hq with rfl | rfl <;> cases hd _ hm
  | @pair c _ hc =>
      have hm : quote = c := by simpa using hm
      rcases hq with rfl | rfl <;> rcases hc with rfl | rfl <;> cases hm
  | @single c _ hc _ =>
      cases List.mem_singleton.1 hm
      rcases hq with rfl | rfl <;> exact absurd hc (by decide)
  | literal _ _ => rcases hk with hk | hk <;> cases hk

/-- Where all tokens are punctuators and numerals, no quote is in a text. -/
theorem Lexes.not_mem_quote {position : Nat} {text : Text} {ts : List Token} {quote : Char}
    (h : Lexes position text ts)
    (hk : ∀ token ∈ ts, token.kind = .punctuator ∨ token.kind = .numeric)
    (hq : quote = '\'' ∨ quote = '"') : quote ∉ text := by
  induction h with
  | nil => exact List.not_mem_nil
  | space _ ih =>
      refine List.not_mem_cons_of_ne_of_not_mem ?_ (ih hk)
      rintro rfl
      rcases hq with hq | hq <;> cases hq
  | token hsp _ ih =>
      obtain ⟨hkt, hk⟩ := List.forall_mem_cons.1 hk
      exact List.not_mem_append (hsp.not_mem_quote hkt hq) (ih hk)

/-- Parentheses behind a text that can be read are read as what they are. -/
theorem outline_parenthesised {front inner back : Text} {us ts : List Token}
    (hx : Lexes 0 front us) (h : Lexes 0 inner ts) :
    outline (parenthesised front inner back) =
      (us.map (.moved fun _ => 0) ++ .lexeme .punctuator ['('] 0 ::
        (ts.map (.moved fun _ => 0) ++ .lexeme .punctuator [')'] 0 :: (outline back).1),
        (outline back).2) := by
  have hopen : outline ('(' :: (inner ++ ')' :: back)) = _ :=
    outline_cons (spells_parenthesis (Or.inl rfl) (inner ++ ')' :: back))
  have hclose : outline (')' :: back) = _ := outline_cons (spells_parenthesis (Or.inr rfl) back)
  rw [parenthesised, outline_append hx (detached_cons (by decide) _), hopen,
    outline_append h (detached_cons (by decide) _), hclose]
  rfl

/-- Parentheses behind a fault are not read. -/
theorem outline_parenthesised_of_stops {front rest inner back : Text} {us : List Token}
    {fault : Fault} (hx : Lexes 0 front us)
    (hs : Stops front.length (parenthesised rest inner back) (some fault)) :
    outline (parenthesised (front ++ rest) inner back) =
      (us.map (.moved fun _ => 0), some (fault.moved fun _ => 0)) := by
  have ho : parenthesised (front ++ rest) inner back = front ++ parenthesised rest inner back :=
    List.append_assoc ..
  rw [ho, outline_append hx hs.detached, outline_of_stops hs, List.append_nil]

/-- Parentheses inside of a string literal are part of it. -/
theorem exists_outline_parenthesised_of_literal {front body inner between back : Text}
    {us : List Token} {quote : Char} (hx : Lexes 0 front us) (hq : quote = '\'' ∨ quote = '"')
    (hn : quote ∉ parenthesised body inner between) :
    ∃ token : Token, token.kind = .stringLiteral ∧
      outline (parenthesised (front ++ quote :: body) inner (between ++ quote :: back)) =
        (us.map (.moved fun _ => 0) ++ token :: (outline back).1, (outline back).2) := by
  have ho : parenthesised (front ++ quote :: body) inner (between ++ quote :: back) =
      front ++ (quote :: (parenthesised body inner between ++ [quote]) ++ back) := by
    simp [parenthesised]
  have hsp := @Spells.literal quote (parenthesised body inner between) back hq hn
  have hd : Detached (quote :: (parenthesised body inner between ++ [quote]) ++ back) :=
    detached_cons (by rcases hq with rfl | rfl <;> decide) _
  rw [ho, outline_append hx hd, outline_cons hsp]
  exact ⟨_, rfl, rfl⟩

/-! ## Equal values -/

/-- No quote of either sort is added to a text by an expression in parentheses. -/
theorem not_mem_parenthesised {front inner back : Text} {ts : List Token} {quote : Char}
    {v : Except Token Int} (h : Lexes 0 inner ts) (hd : Derives .expression ts v)
    (hq : quote = '\'' ∨ quote = '"') (hf : quote ∉ front) (hb : quote ∉ back) :
    quote ∉ parenthesised front inner back := by
  have hi := h.not_mem_quote hd.kind_of_mem hq
  have hl : quote ≠ '(' := by rcases hq with rfl | rfl <;> decide
  have hr : quote ≠ ')' := by rcases hq with rfl | rfl <;> decide
  simp [parenthesised, hf, hb, hi, hl, hr]

theorem evaluateWithin_parenthesised {front back a b : Text} {ts us : List Token} {x : Int}
    (ha : Lexes 0 a ts) (hda : Derives .expression ts (.ok x))
    (hb : Lexes 0 b us) (hdb : Derives .expression us (.ok x)) :
    (evaluateWithin none (parenthesised front a back)).mapError Fault.cause =
      (evaluateWithin none (parenthesised front b back)).mapError Fault.cause := by
  rw [evaluateWithin_cause, evaluateWithin_cause]
  obtain ⟨front, rest, lexemes, rfl, hx, hs⟩ := exists_lexes_stops front
  have hk : ∀ token ∈ lexemes.map (Token.moved fun _ => 0), token.kind ≠ .endOfText := by
    intro token hm
    obtain ⟨lexeme, hl, rfl⟩ := List.mem_map.1 hm
    exact hx.kind_ne lexeme hl
  generalize (scan (front ++ rest)).2 = stop at hs
  cases hs with
  | endOfText =>
      rw [List.append_nil, outline_parenthesised hx ha, outline_parenthesised hx hb]
      exact congrArg _ (Stack.answer_replace (hda.moved _) (hdb.moved _) hk rfl rfl _ _)
  | stray hc =>
      rw [outline_parenthesised_of_stops hx (.stray hc),
        outline_parenthesised_of_stops hx (.stray hc)]
  | @unclosed quote rest hq hn =>
      -- The literal ends at the next quote of its sort, and none is between it and `back`.
      by_cases hback : quote ∈ back
      · obtain ⟨between, back, rfl, hbetween⟩ := List.eq_append_cons_of_mem hback
        have hna := not_mem_parenthesised ha hda hq hn hbetween
        have hnb := not_mem_parenthesised hb hdb hq hn hbetween
        obtain ⟨literal, hl, ho⟩ := exists_outline_parenthesised_of_literal hx hq hna
        obtain ⟨literal', hl', ho'⟩ := exists_outline_parenthesised_of_literal hx hq hnb
        rw [ho, ho']
        exact Stack.answer_literal hk hl hl'
      · have hna := not_mem_parenthesised ha hda hq hn hback
        have hnb := not_mem_parenthesised hb hdb hq hn hback
        rw [outline_parenthesised_of_stops hx (.unclosed hq hna),
          outline_parenthesised_of_stops hx (.unclosed hq hnb)]

/-- An expression in parentheses can be replaced by any other of the same value, whatever stands
around them.  The whole text keeps its value, or the sort of its fault. -/
theorem parenthesised_congr {front back a b : Text} {x : Int} (ha : evaluate a = .ok x)
    (hb : evaluate b = .ok x) (hna : OpensAtMost 200 (parenthesised front a back))
    (hnb : OpensAtMost 200 (parenthesised front b back)) :
    (evaluate (parenthesised front a back)).mapError Fault.cause =
      (evaluate (parenthesised front b back)).mapError Fault.cause := by
  obtain ⟨ts, hta, hda⟩ := exists_derives_of_evaluate ha
  obtain ⟨us, htb, hdb⟩ := exists_derives_of_evaluate hb
  have hlimit : ∀ text, OpensAtMost 200 text → evaluate text = evaluateWithin none text :=
    fun text h => evaluateWithin_eq_none (not_tooDeep_of_opensAtMost h (by decide))
  rw [hlimit _ hna, hlimit _ hnb]
  exact evaluateWithin_parenthesised hta hda htb hdb

/-- A divisor of value zero is replaced by another one, and the calculation fails alike. -/
theorem parenthesised_congr_divisor :
    evaluate "2-2".toList = .ok 0 ∧ evaluate "0".toList = .ok 0 ∧
    parenthesised "7/".toList "2-2".toList "+1".toList = "7/(2-2)+1".toList ∧
    parenthesised "7/".toList "0".toList "+1".toList = "7/(0)+1".toList ∧
    OpensAtMost 200 "7/(2-2)+1".toList ∧ OpensAtMost 200 "7/(0)+1".toList ∧
    (evaluate "7/(2-2)+1".toList).mapError Fault.cause =
      (evaluate "7/(0)+1".toList).mapError Fault.cause := by
  have ha : evaluate "2-2".toList = .ok 0 := by with_unfolding_all rfl
  have hb : evaluate "0".toList = .ok 0 := by with_unfolding_all rfl
  have hna : OpensAtMost 200 "7/(2-2)+1".toList := opensAtMost_of_length_le (by decide)
  have hnb : OpensAtMost 200 "7/(0)+1".toList := opensAtMost_of_length_le (by decide)
  have h := @parenthesised_congr "7/".toList "+1".toList _ _ _ ha hb hna hnb
  exact ⟨ha, hb, rfl, rfl, hna, hnb, h⟩

end Calculator
