import Calculator.Evaluation.Basic
import Calculator.Proofs.Scan
import Calculator.Proofs.Stack

/-!
# Runs of the machine

A step of the machine asks the stack what it makes of the current token, and
the reader for the token behind it.  The order of the two decides which fault
wins, and `State.Steps` is all there is to say about it.

* A token that the stack refuses is refused before anything behind it is read.
* Where the stack accepts the current token, the token behind it is read.  A
  fault in it comes before a division by zero.

A run is steps, each of which takes one token off the front of the reader and
feeds it to the stack (`Reaches.feed`, `Reaches.ahead`), and one last step with
the answer.  For a whole text this is `Verdict`: why an expression has the value
or the fault that it has, in terms of the tokens of a scan.
-/

namespace Calculator

/-! ## Steps -/

/-- Whether a token is not refused, though a division may fail at it. -/
def Stack.Accepts (stack : Stack) (token : Token) : Prop :=
  ∀ fault, stack.shift token = .error fault → ∃ slash, fault = .divisionByZero slash

theorem Stack.accepts_of_shift {stack next : Stack} {token : Token}
    (h : stack.shift token = .ok next) : stack.Accepts token := by
  intro fault hf
  rw [h] at hf
  cases hf

theorem Stack.accepts_of_shift_error {stack : Stack} {token slash : Token}
    (h : stack.shift token = .error (.divisionByZero slash)) : stack.Accepts token := by
  intro fault hf
  rw [h] at hf
  cases hf
  exact ⟨slash, rfl⟩

/-- The end of the text is never accepted. -/
theorem Stack.Accepts.kind_ne {stack : Stack} {token : Token} (h : stack.Accepts token) :
    token.kind ≠ .endOfText := by
  intro hk
  have hp : ∀ text, ¬ token.isPunctuator text = true := by
    intro text hp
    rw [(Token.is_iff.1 hp).1] at hk
    cases hk
  have hc := shifts stack token
  generalize hr : stack.shift token = result at hc
  cases hc with
  | opens hp' => exact hp _ hp'
  | numeral hn _ => rw [hn] at hk; cases hk
  | noOperand _ _ => obtain ⟨slash, he⟩ := h _ hr; cases he
  | operator hp' _ => exact hp _ hp'
  | closes hp' _ => exact hp _ hp'
  | noClose _ _ => obtain ⟨slash, he⟩ := h _ hr; cases he
  | trailing _ => obtain ⟨slash, he⟩ := h _ hr; cases he

namespace State

/-- The state with a stack and a reader. -/
def ofStack (stack : Stack) (reader : Reader) : State :=
  ⟨stack.phase, stack.level, stack.outer, reader⟩

/-- What a step can do. -/
inductive Steps (limit : Option Nat) (state : State) : Turn → Prop where
  | moved {stack : Stack} {reader : Reader} :
      state.stack.shift state.reader.token = .ok stack →
      state.reader.advance = (.ok state.reader.token, reader) →
      Steps limit state (.next (ofStack stack reader))
  | unread {fault : Fault} {reader : Reader} :
      state.stack.Accepts state.reader.token →
      state.reader.advance = (.error fault, reader) →
      Steps limit state (.done (.error fault) reader)
  | divided {slash : Token} {reader : Reader} :
      state.stack.shift state.reader.token = .error (.divisionByZero slash) →
      state.reader.advance = (.ok state.reader.token, reader) →
      Steps limit state (.done (.error (.divisionByZero slash)) reader)
  | refused {kind : Kind} {text : Option Text} :
      state.stack.shift state.reader.token =
        .error (.unexpectedToken state.reader.token kind text) →
      Steps limit state
        (.done (.error (.unexpectedToken state.reader.token kind text)) state.reader)
  | complete :
      state.phase = .operator →
      state.outer = [] →
      state.stack.shift state.reader.token = .error (.trailingInput state.reader.token) →
      Steps limit state (.done (.ok state.level.value) state.reader)
  | tooDeep {n : Nat} :
      limit = some n →
      n ≤ state.outer.length →
      Steps limit state (.done (.error (.nestingTooDeep state.reader.token)) state.reader)

end State

/-- What becomes of a stack behind an accepted token, once the token behind it is read. -/
def Turn.ofResult (result : Except Fault Stack) (reader : Reader) : Turn :=
  match result with
  | .ok stack => .next (.ofStack stack reader)
  | .error fault => .done (.error fault) reader

theorem Turn.operand_eq (level : Level) (outer : List Level) (value : Int) (reader : Reader) :
    Turn.operand level outer value reader = .ofResult (Stack.operand level outer value) reader := by
  rw [Turn.operand, Stack.operand]
  cases level.operand value <;> rfl

namespace Reader

theorem advance_cases (reader : Reader) :
    (∃ next, reader.advance = (.ok reader.token, next)) ∨
      ∃ fault next, reader.advance = (.error fault, next) := by
  rcases h : reader.lexer.next with ⟨fault | token, lexer⟩
  · exact Or.inr ⟨fault, ⟨reader.token, lexer⟩, by rw [advance, h]⟩
  · exact Or.inl ⟨⟨token, lexer⟩, by rw [advance, h]⟩

end Reader

namespace State

/-- A step at a token that the stack accepts. -/
theorem steps_of_accepts {limit : Option Nat} {state : State}
    (h : state.stack.Accepts state.reader.token) :
    Steps limit state (.andThen state.reader.advance fun _ reader =>
      .ofResult (state.stack.shift state.reader.token) reader) := by
  rcases state.reader.advance_cases with ⟨next, ha⟩ | ⟨fault, next, ha⟩
  · rw [ha]
    cases hs : state.stack.shift state.reader.token with
    | ok stack => exact .moved hs ha
    | error fault =>
        obtain ⟨slash, rfl⟩ := h fault hs
        exact .divided hs ha
  · rw [ha]
    exact .unread h ha

/-- A step that accepts a token and goes on as the stack does. -/
theorem steps_of_andThen {limit : Option Nat} {state : State} {result : Except Fault Stack}
    {proceed : Token → Reader → Turn} (hs : state.stack.shift state.reader.token = result)
    (ha : ∀ fault, result = .error fault → ∃ slash, fault = .divisionByZero slash)
    (hp : ∀ reader, proceed state.reader.token reader = .ofResult result reader) :
    Steps limit state (.andThen state.reader.advance proceed) := by
  have he : Turn.andThen state.reader.advance proceed =
      .andThen state.reader.advance fun _ reader => .ofResult result reader := by
    rcases state.reader.advance_cases with ⟨next, hn⟩ | ⟨fault, next, hn⟩
    · rw [hn]
      exact hp next
    · rw [hn]
      rfl
  rw [he, ← hs]
  exact steps_of_accepts fun fault hf => ha fault (hs ▸ hf)

theorem steps_operand (limit : Option Nat) (level : Level) (outer : List Level) (reader : Reader) :
    Steps limit ⟨.operand, level, outer, reader⟩ (step limit ⟨.operand, level, outer, reader⟩) := by
  by_cases hp : reader.token.isPunctuator ['('] = true
  · have hs : step limit ⟨.operand, level, outer, reader⟩ =
        openLevel limit ⟨.operand, level, outer, reader⟩ := if_pos hp
    rw [hs]
    by_cases hd : limit.any (· ≤ outer.length) = true
    · rw [openLevel, if_pos hd]
      obtain ⟨n, hn, hle⟩ := (Option.any_eq_true _ _).1 hd
      exact .tooDeep hn (of_decide_eq_true hle)
    · rw [openLevel, if_neg hd]
      exact steps_of_andThen (Stack.shift_open hp level outer) nofun fun _ => rfl
  · have hs : step limit ⟨.operand, level, outer, reader⟩ =
        numeral ⟨.operand, level, outer, reader⟩ := if_neg hp
    rw [hs]
    by_cases hk : reader.token.kind = .numeric
    · have ha : reader.accept .numeric none = reader.advance :=
        if_pos (Token.fits_iff.2 ⟨hk, by intro _ ht; cases ht⟩)
      rw [numeral, ha]
      exact steps_of_andThen (Stack.shift_numeral hk level outer) (fun _ => Stack.operand_error)
        fun reader => Turn.operand_eq ..
    · have ha : reader.accept .numeric none =
          (.error (.unexpectedToken reader.token .numeric none), reader) :=
        if_neg fun hf => hk (Token.fits_iff.1 hf).1
      rw [numeral, ha]
      exact .refused ((if_neg hp).trans (if_neg hk))

theorem steps_operator (limit : Option Nat) (level : Level) (outer : List Level) (reader : Reader) :
    Steps limit ⟨.operator, level, outer, reader⟩
      (step limit ⟨.operator, level, outer, reader⟩) := by
  have hc := Stack.shifts ⟨.operator, level, outer⟩ reader.token
  generalize hr : Stack.shift ⟨.operator, level, outer⟩ reader.token = result at hc
  cases hc with
  | @operator _ _ _ operator ht hj =>
      have ho : operator? ⟨.operator, level, outer, reader⟩ = some operator :=
        @Stack.operator?_of_joins ⟨.operator, level, outer⟩ _ _ ht hj
      simp only [step, ho]
      exact steps_of_andThen hr nofun fun _ => rfl
  | @closes _ next outer _ _ hp h =>
      have ho : operator? ⟨.operator, level, next :: outer, reader⟩ = none :=
        @Stack.operator?_close ⟨.operator, level, next :: outer⟩ _ hp
      have ha : reader.accept .punctuator (some [')']) = reader.advance :=
        if_pos ((Token.fits_some ..).trans hp)
      simp only [step, ho, closeLevel, ha]
      exact steps_of_andThen hr (fun fault hf => Stack.operand_error (h.trans hf))
        fun reader => by rw [Turn.operand_eq, h]
  | @noClose _ next outer _ ho hp =>
      have ho : operator? ⟨.operator, level, next :: outer, reader⟩ = none := ho
      have ha : reader.accept .punctuator (some [')']) =
          (.error (.unexpectedToken reader.token .punctuator (some [')'])), reader) :=
        if_neg (by rw [Token.fits_some]; exact Bool.eq_false_iff.1 hp)
      simp only [step, ho, closeLevel, ha]
      exact .refused hr
  | trailing ho =>
      have ho : operator? ⟨.operator, level, [], reader⟩ = none := ho
      simp only [step, ho, closeLevel]
      exact .complete rfl rfl hr

theorem steps (limit : Option Nat) (state : State) : Steps limit state (state.step limit) := by
  obtain ⟨phase, level, outer, reader⟩ := state
  cases phase with
  | operand => exact steps_operand limit level outer reader
  | operator => exact steps_operator limit level outer reader

/-! ## Runs -/

/-- `Reaches limit state ts last`: steps lead from one state to another, and accept `ts`. -/
inductive Reaches (limit : Option Nat) : State → List Token → State → Prop where
  | refl (state : State) : Reaches limit state [] state
  | head {state next last : State} {ts : List Token} :
      state.step limit = .next next →
      Reaches limit next ts last →
      Reaches limit state (state.reader.token :: ts) last

/-- A run ends, with the answer of its last step. -/
theorem exists_reaches_run (limit : Option Nat) (state : State) :
    ∃ ts last, Reaches limit state ts last ∧
      last.step limit = .done (state.run limit).1 (state.run limit).2 := by
  fun_induction run limit state with
  | case1 state next h ih =>
      obtain ⟨ts, last, hr, hs⟩ := ih
      exact ⟨_, last, .head h hr, hs⟩
  | case2 state answer reader h => exact ⟨[], state, .refl state, h⟩

/-- A step that leads to a state accepts the current token. -/
theorem step_next {limit : Option Nat} {state next : State} (h : state.step limit = .next next) :
    state.stack.shift state.reader.token = .ok next.stack ∧
      state.reader.advance = (.ok state.reader.token, next.reader) := by
  have hc := steps limit state
  rw [h] at hc
  cases hc with
  | moved hs ha => exact ⟨hs, ha⟩

/-- The stack of a run is fed with the tokens accepted. -/
theorem Reaches.feed {limit : Option Nat} {state last : State} {ts : List Token}
    (h : Reaches limit state ts last) : state.stack.feed ts = .ok last.stack := by
  induction h with
  | refl state => rfl
  | head hs _ ih =>
      rw [Stack.feed_cons, (step_next hs).1]
      exact ih

/-- The tokens accepted are taken off the front of the reader. -/
theorem Reaches.ahead {limit : Option Nat} {state last : State} {ts : List Token}
    (h : Reaches limit state ts last) :
    state.reader.ahead = (ts ++ last.reader.ahead.1, last.reader.ahead.2) := by
  induction h with
  | refl state => rfl
  | head hs _ ih =>
      obtain ⟨hsh, ha⟩ := step_next hs
      rw [Reader.ahead_of_advance (Stack.accepts_of_shift hsh).kind_ne ha, ih]
      rfl

/-- The limit forbids steps, but changes none. -/
theorem step_none_of_next {limit : Option Nat} {state next : State}
    (h : state.step limit = .next next) : state.step none = .next next := by
  unfold step at h ⊢
  split at h
  · split at h
    · rename_i hp
      rw [if_pos hp]
      unfold openLevel at h ⊢
      split at h
      · cases h
      · exact h
    · rename_i hp
      rw [if_neg hp]
      exact h
  · exact h

theorem Reaches.none {limit : Option Nat} {state last : State} {ts : List Token}
    (h : Reaches limit state ts last) : Reaches none state ts last := by
  induction h with
  | refl state => exact .refl state
  | head hs _ ih => exact .head (step_none_of_next hs) ih

end State
/-! ## Texts -/

/-- `OpensAtMost n text`: without a limit, the calculation of a text never has more than `n`
parentheses open at one time. -/
def OpensAtMost (n : Nat) (text : Text) : Prop :=
  ∀ reader, Reader.ofText text = .ok reader →
    ∀ ts state, State.Reaches none (.start .expression reader) ts state → state.outer.length ≤ n

/-- Why an expression has its value or its fault. -/
inductive Verdict (limit : Option Nat) (text : Text) : Except Fault Int → Prop where
  /-- All tokens but the one at the end are accepted, and are complete. -/
  | value {ts : List Token} {last : Token} {level : Level} :
      scan text = (ts ++ [last], none) →
      (Stack.start .expression).feed ts = .ok ⟨.operator, level, []⟩ →
      Verdict limit text (.ok level.value)
  /-- A token is refused behind tokens that are accepted. -/
  | refused {ts rest : List Token} {token : Token} {stop : Option Fault} {stack : Stack}
      {fault : Fault} :
      scan text = (ts ++ token :: rest, stop) →
      (Stack.start .expression).feed ts = .ok stack →
      stack.shift token = .error fault →
      fault.Refuses token →
      (token.kind = .endOfText → fault ≠ .trailingInput token) →
      Verdict limit text (.error fault)
  /-- A division fails, and the token behind it can be read. -/
  | divided {ts rest : List Token} {token next slash : Token} {stop : Option Fault}
      {stack : Stack} :
      scan text = (ts ++ token :: next :: rest, stop) →
      (Stack.start .expression).feed ts = .ok stack →
      stack.shift token = .error (.divisionByZero slash) →
      Verdict limit text (.error (.divisionByZero slash))
  /-- The first token cannot be read. -/
  | unreadFirst {fault : Fault} :
      scan text = ([], some fault) →
      Verdict limit text (.error fault)
  /-- The token behind an accepted one cannot be read. -/
  | unread {ts : List Token} {token : Token} {stack : Stack} {fault : Fault} :
      scan text = (ts ++ [token], some fault) →
      (Stack.start .expression).feed ts = .ok stack →
      stack.Accepts token →
      Verdict limit text (.error fault)
  /-- A parenthesis is one too many. -/
  | tooDeep {reader : Reader} {ts : List Token} {state : State} {n : Nat} :
      Reader.ofText text = .ok reader →
      State.Reaches none (.start .expression reader) ts state →
      limit = some n →
      n ≤ state.outer.length →
      Verdict limit text (.error (.nestingTooDeep state.reader.token))

theorem verdict (limit : Option Nat) (text : Text) :
    Verdict limit text (evaluateWithin limit text) := by
  rw [evaluateWithin]
  cases ho : Reader.ofText text with
  | error fault => exact .unreadFirst (Reader.scan_of_ofText_error ho)
  | ok reader =>
      obtain ⟨ts, last, hr, hs⟩ := State.exists_reaches_run limit (.start .expression reader)
      have hf : (Stack.start .expression).feed ts = .ok last.stack := hr.feed
      have ha := (Reader.ahead_of_ofText ho).symm.trans hr.ahead
      obtain ⟨rest, hrest⟩ := last.reader.exists_ahead_eq
      show Verdict limit text (reader.wholeWithin limit).1
      rw [Reader.wholeWithin, Reader.phraseWithin]
      generalize State.run limit (.start .expression reader) = result at hs
      obtain ⟨answer, left⟩ := result
      have hc := State.steps limit last
      rw [hs] at hc
      cases hc with
      | unread hacc hadv =>
          rw [Reader.ahead_of_advance_error hacc.kind_ne hadv] at ha
          exact .unread ha hf hacc
      | divided hsh hadv =>
          have hk := (Stack.accepts_of_shift_error hsh).kind_ne
          rw [Reader.ahead_of_advance hk hadv] at ha
          obtain ⟨rest', hrest'⟩ := left.exists_ahead_eq
          rw [hrest'] at ha
          exact .divided ha hf hsh
      | refused hsh =>
          rw [hrest] at ha
          exact .refused ha hf hsh (Or.inl ⟨_, _, rfl⟩) nofun
      | complete hp ho' hsh =>
          by_cases hk : last.reader.token.kind = .endOfText
          · rw [Reader.ahead_of_end hk] at ha
            simp only [hk, if_true]
            have hst : last.stack = ⟨.operator, last.level, []⟩ := by
              rw [State.stack, hp, ho']
            exact .value ha (hst ▸ hf)
          · rw [hrest] at ha
            simp only [hk, if_false]
            exact .refused ha hf hsh (Or.inr rfl) fun h => absurd h hk
      | tooDeep hn hle => exact .tooDeep ho hr.none hn hle

theorem Fault.Refuses.isLexical_eq {fault : Fault} {token : Token} (h : fault.Refuses token) :
    fault.isLexical = false := by
  rcases h with ⟨_, _, rfl⟩ | rfl
  · rfl
  · rfl

/-- A token is refused by the stack behind the tokens in front of it. -/
theorem Verdict.exists_shift {limit : Option Nat} {text : Text} {token : Token} {fault : Fault}
    (h : Verdict limit text (.error fault)) (hr : fault.Refuses token) :
    ∃ before after stack, (scan text).1 = before ++ token :: after ∧
      (Stack.start .expression).feed before = .ok stack ∧ stack.shift token = .error fault ∧
      (token.kind = .endOfText → fault ≠ .trailingInput token) := by
  cases h with
  | @refused us rest token' stop stack fault hs hf hsh hr' hk =>
      cases hr.token_eq hr'
      exact ⟨us, rest, stack, congrArg Prod.fst hs, hf, hsh, hk⟩
  | divided _ _ _ => exact absurd rfl (hr.ne_divisionByZero _)
  | unreadFirst hs =>
      cases (Lexer.scan_fault (congrArg Prod.snd hs)).symm.trans hr.isLexical_eq
  | unread hs _ _ =>
      cases (Lexer.scan_fault (congrArg Prod.snd hs)).symm.trans hr.isLexical_eq
  | tooDeep _ _ _ _ => rcases hr with ⟨_, _, hr⟩ | hr <;> cases hr

/-! ## Open parentheses -/

/-- A calculation that stays below the limit does not run into it. -/
theorem OpensAtMost.verdict {n : Nat} {text : Text} (h : OpensAtMost n text) (hn : n < openLimit) :
    Verdict none text (evaluate text) := by
  have hv := Calculator.verdict (some openLimit) text
  change Verdict (some openLimit) text (evaluate text) at hv
  generalize evaluate text = answer at hv
  cases hv with
  | value hs hf => exact .value hs hf
  | refused hs hf hsh hr hk => exact .refused hs hf hsh hr hk
  | divided hs hf hsh => exact .divided hs hf hsh
  | unreadFirst hs => exact .unreadFirst hs
  | unread hs hf ha => exact .unread hs hf ha
  | tooDeep ho hr hm hle =>
      cases hm
      exact absurd (Nat.le_trans hle (h _ ho _ _ hr)) (Nat.not_le.2 hn)

end Calculator
