import Calculator.Proofs.Depth
import Calculator.Proofs.Division
import Calculator.Proofs.Slicing

/-!
# Safety

Three operations of a calculation have no result for some arguments.

* A block that is not digits, or is empty, has no value.
* A quotient of magnitudes needs a divisor other than zero.
* A slice that reaches behind the end of its text is cut short.

No calculation ever comes to such arguments.  For the slices this is a fact about
the tokens of a text (`Taken.cutFrom`).  For the other two the machine is given
operations that stop it where they have no result.  One step of the two machines
is the same at a current token that is digits if it is numeric (`State.step?_eq`).
All tokens that a reader ever has are like this, since they were taken off a text.
So every run of the two machines is the same (`State.run?_eq`), wherever earlier
requests have left the reader.

What remains are the faults of the calculator itself.  Each request has some that
are declared for it (`Reader.Request.Declares`).  It fails with no others, as long
as no more parentheses are open than its limit allows.
-/

namespace Calculator

/-! ## Values -/

namespace Numeral

/-- The value of a block, if it is digits. -/
def convert? (block : Text) : Option Nat :=
  if block ≠ [] ∧ block.all Char.isDigit then some (ofDigits block) else none

/-- The value of digits behind a number already read, if each block has one. -/
def readFrom? (value : Nat) (digits : Text) : Option Nat :=
  if digits = [] then some value
  else
    (convert? (digits.take blockSize)).bind fun block =>
      readFrom? (value * placeValue (digits.take blockSize).length + block)
        (digits.drop blockSize)
termination_by digits.length
decreasing_by
  rename_i h
  have := List.length_pos_iff.2 h
  have := blockSize_pos
  rw [List.length_drop]
  omega

/-- A block of something is not empty. -/
theorem take_ne_nil {digits : Text} (h : digits ≠ []) : digits.take blockSize ≠ [] := by
  intro he
  rcases List.take_eq_nil_iff.1 he with hs | hd
  · exact Nat.ne_of_gt blockSize_pos hs
  · exact h hd

theorem readFrom?_eq (value : Nat) (digits : Text) :
    readFrom? value digits =
      if digits.all Char.isDigit then some (readFrom value digits) else none := by
  fun_induction readFrom value digits with
  | case1 value => simp [readFrom?]
  | case2 value digits hne ih =>
      have hall : digits.all Char.isDigit =
          ((digits.take blockSize).all Char.isDigit &&
            (digits.drop blockSize).all Char.isDigit) := by
        rw [← List.all_append, List.take_append_drop]
      rw [readFrom?, if_neg hne, convert?, hall]
      cases (digits.take blockSize).all Char.isDigit with
      | false => simp
      | true => simpa [take_ne_nil hne] using ih

end Numeral

/-- The value of a token, if its text is a numeral. -/
def Token.value? (token : Token) : Option Nat :=
  if token.text = [] then none else Numeral.readFrom? 0 token.text

theorem Token.value?_eq_some_iff {token : Token} {value : Nat} :
    token.value? = some value ↔ token.IsNumeral ∧ token.value = value := by
  rw [value?, Numeral.readFrom?_eq]
  constructor
  · intro h
    split at h
    · cases h
    · rename_i hne
      split at h
      · rename_i hall
        cases h
        exact ⟨⟨hne, List.all_eq_true.1 hall⟩, rfl⟩
      · cases h
  · rintro ⟨⟨hne, hd⟩, rfl⟩
    rw [if_neg hne, if_pos (List.all_eq_true.2 hd)]
    rfl

/-! ## Quotients -/

/-- A level behind one more operand, which is looked at before it divides. -/
def Level.operand? (level : Level) (value : Int) : Option (Except Fault Level) :=
  match level.slash with
  | none => some (.ok { level with product := level.product * value })
  | some slash =>
      if value = 0 then some (.error (.divisionByZero slash))
      else
        (truncateDivide? level.product value).map fun product =>
          .ok { level with product, slash := none }

theorem Level.operand?_eq (level : Level) (value : Int) :
    level.operand? value = some (level.operand value) := by
  rw [operand?, operand]
  cases level.slash with
  | none => rfl
  | some slash =>
      by_cases hv : value = 0
      · rw [hv]
        rfl
      · simp only [if_neg hv, truncateDivide?_eq, quotient?_of_ne_zero _ hv]
        rfl

/-! ## The machine -/

namespace Turn

/-- Goes on behind an operand of a level. -/
def operand? (level : Level) (outer : List Level) (value : Int) (reader : Reader) : Option Turn :=
  (level.operand? value).map fun
    | .ok level => .next ⟨.operator, level, outer, reader⟩
    | .error fault => .done (.error fault) reader

/-- Goes on with an accepted token, and ends with the fault where there is none. -/
def andThen? (accepted : Except Fault Token × Reader) (proceed : Token → Reader → Option Turn) :
    Option Turn :=
  match accepted with
  | (.ok token, reader) => proceed token reader
  | (.error fault, reader) => some (.done (.error fault) reader)

theorem operand?_eq (level : Level) (outer : List Level) (value : Int) (reader : Reader) :
    operand? level outer value reader = some (operand level outer value reader) := by
  rw [operand?, Level.operand?_eq, operand]
  cases level.operand value with
  | ok level => rfl
  | error fault => rfl

end Turn

namespace State

/-- Takes a numeral as an operand. -/
def numeral? (state : State) : Option Turn :=
  Turn.andThen? (state.reader.accept .numeric none) fun token reader =>
    token.value?.bind fun value => Turn.operand? state.level state.outer value reader

/-- Ends the level. -/
def closeLevel? (state : State) : Option Turn :=
  match state.outer with
  | [] => some (.done (.ok state.level.value) state.reader)
  | level :: outer =>
      Turn.andThen? (state.reader.accept .punctuator (some [')'])) fun _ reader =>
        Turn.operand? level outer state.level.value reader

/-- One step of the machine. -/
def step? (limit : Option Nat) (state : State) : Option Turn :=
  match state.phase with
  | .operand =>
      if state.reader.token.isPunctuator ['('] then some (state.openLevel limit)
      else state.numeral?
  | .operator =>
      match state.operator? with
      | some operator => some (state.operator operator)
      | none => state.closeLevel?

theorem closeLevel?_eq (state : State) : state.closeLevel? = some state.closeLevel := by
  rw [closeLevel?, closeLevel]
  cases state.outer with
  | nil => rfl
  | cons level outer =>
      rcases state.reader.accept .punctuator (some [')']) with ⟨fault | token, reader⟩
      · rfl
      · exact Turn.operand?_eq ..

/-- A numeral is taken as before, if its token has a value. -/
theorem numeral_of_numeral? {state : State} {turn : Turn} (h : state.numeral? = some turn) :
    state.numeral = turn := by
  rw [numeral?] at h
  rw [numeral]
  generalize state.reader.accept .numeric none = accepted at h ⊢
  obtain ⟨fault | token, reader⟩ := accepted
  · exact Option.some.inj h
  · obtain ⟨value, hv, ho⟩ := Option.bind_eq_some_iff.1 h
    obtain ⟨-, rfl⟩ := Token.value?_eq_some_iff.1 hv
    exact Option.some.inj ((Turn.operand?_eq ..).symm.trans ho)

/-- The current token has one if it is digits wherever it is numeric. -/
theorem numeral?_eq {state : State}
    (h : state.reader.token.kind = .numeric → state.reader.token.IsNumeral) :
    state.numeral? = some state.numeral := by
  have hm := state.reader.meets ⟨.numeric, none⟩
  rw [numeral?, numeral]
  change Turn.andThen? (state.reader.meet ⟨.numeric, none⟩) _ =
    some (Turn.andThen (state.reader.meet ⟨.numeric, none⟩) _)
  generalize state.reader.scans _ = scans, state.reader.meet _ = reply at hm
  cases hm with
  | unmet _ => rfl
  | unread _ _ => rfl
  | met hf _ =>
      have hv := Token.value?_eq_some_iff.2 ⟨h (Token.fits_iff.1 hf).1, rfl⟩
      show Option.bind _ _ = _
      rw [hv]
      exact Turn.operand?_eq ..

/-- Only where a step takes a numeral does it depend on what has a value. -/
theorem step?_cases (limit : Option Nat) (state : State) :
    state.step? limit = some (state.step limit) ∨
      state.step? limit = state.numeral? ∧ state.step limit = state.numeral := by
  obtain ⟨phase, level, outer, reader⟩ := state
  cases phase with
  | operand =>
      rw [step?, step]
      by_cases hp : reader.token.isPunctuator ['('] = true
      · exact Or.inl ((if_pos hp).trans (congrArg some (if_pos hp).symm))
      · exact Or.inr ⟨if_neg hp, if_neg hp⟩
  | operator =>
      rw [step?, step]
      cases operator? ⟨.operator, level, outer, reader⟩ with
      | some operator => exact Or.inl rfl
      | none => exact Or.inl (closeLevel?_eq _)

theorem step_of_step? {limit : Option Nat} {state : State} {turn : Turn}
    (h : state.step? limit = some turn) : state.step limit = turn := by
  rcases state.step?_cases limit with hs | ⟨hs, hn⟩
  · exact Option.some.inj (hs.symm.trans h)
  · exact hn.trans (numeral_of_numeral? (hs.symm.trans h))

theorem step?_eq (limit : Option Nat) {state : State}
    (h : state.reader.token.kind = .numeric → state.reader.token.IsNumeral) :
    state.step? limit = some (state.step limit) := by
  rcases state.step?_cases limit with hs | ⟨hs, hn⟩
  · exact hs
  · rw [hs, hn, numeral?_eq h]

/-- Runs the machine to its answer, or to an operation without a result. -/
def run? (limit : Option Nat) (state : State) : Option (Except Fault Int × Reader) :=
  match _h : state.step? limit with
  | none => none
  | some (.next state) => run? limit state
  | some (.done answer reader) => some (answer, reader)
termination_by state.reader.weight
decreasing_by exact step_weight_lt (step_of_step? _h)

theorem run?_of_next {limit : Option Nat} {state next : State}
    (h : state.step? limit = some (.next next)) : state.run? limit = next.run? limit := by
  rw [run?]
  split <;> simp_all

theorem run?_of_done {limit : Option Nat} {state : State} {answer : Except Fault Int}
    {reader : Reader} (h : state.step? limit = some (.done answer reader)) :
    state.run? limit = some (answer, reader) := by
  rw [run?]
  split <;> simp_all

/-- On the tokens of a text the machine never comes to an operation without a result. -/
theorem run?_eq {text : Text} {limit : Option Nat} {state : State} {faults : List Fault}
    (h : state.reader.Poised text faults) : state.run? limit = some (state.run limit) := by
  fun_induction run limit state generalizing faults with
  | case1 state next hs ih =>
      rw [run?_of_next ((step?_eq limit h.taken.isNumeral).trans (congrArg some hs))]
      exact ih (h.advance (step_next hs).2)
  | case2 state answer reader hs =>
      exact run?_of_done ((step?_eq limit h.taken.isNumeral).trans (congrArg some hs))

/-! ## Open parentheses -/

/-- Whether a calculation never comes to a parenthesis with which more are open than a limit
allows. -/
def KeepsTo (limit : Option Nat) (state : State) : Prop :=
  ∀ n ∈ limit, ∀ ts last, Reaches none state ts last → last.depth ≤ n

/-- A limit stops a calculation only at a parenthesis too many. -/
theorem lt_depth_of_tooDeep {n : Nat} {state : State} {token : Token} {left : Reader}
    (h : state.step (some n) = .done (.error (.nestingTooDeep token)) left) : n < state.depth := by
  cases hx : state.stack.exceeds (some n) state.reader.token with
  | true => exact Stack.lt_depth_of_exceeds hx
  | false =>
      have hc := steps none state
      rw [← step_of_not_exceeds hx, h] at hc
      cases hc with
      | unread _ ha => cases lexeme_fault (congrArg Prod.fst (Reader.next_of_advance_error ha))
      | tooDeep hn _ => cases hn

/-- A run within its limit fails because of the text, at a token that was not expected, or at a
division by zero. -/
theorem KeepsTo.run_fault {limit : Option Nat} {state : State} {fault : Fault}
    (h : state.KeepsTo limit) (he : (state.run limit).1 = .error fault) :
    fault.isLexical = true ∨ (∃ token kind text, fault = .unexpectedToken token kind text) ∨
      ∃ slash, fault = .divisionByZero slash := by
  obtain ⟨ts, last, hr, hs⟩ := exists_reaches_run limit state
  generalize state.run limit = result at he hs
  obtain ⟨answer, left⟩ := result
  cases he
  have hc := steps limit last
  rw [hs] at hc
  cases hc with
  | unread _ ha =>
      exact Or.inl (lexeme_fault (congrArg Prod.fst (Reader.next_of_advance_error ha)))
  | divided _ _ => exact Or.inr (Or.inr ⟨_, rfl⟩)
  | refused _ => exact Or.inr (Or.inl ⟨_, _, _, rfl⟩)
  | tooDeep hn _ =>
      cases hn
      exact absurd (lt_depth_of_tooDeep hs) (Nat.not_lt.2 (h _ rfl _ _ hr.none))

end State

/-! ## Faults of the text -/

/-- The faults that a reading can find. -/
inductive Fault.OfText : Fault → Prop where
  | stray {location : Int} {c : Char} : OfText (.unrecognizedCharacter location [c])
  | unclosed {location : Int} : OfText (.unterminatedLiteral location)

theorem Takes.ofText {text : Text} {fault : Fault} {start stop : Nat}
    (h : Takes text (.error fault) start stop) : fault.OfText := by
  cases h with
  | stray _ _ => exact .stray
  | unclosed _ _ _ => exact .unclosed

/-- Making a reader reads one token, and can fail only there. -/
theorem Reader.fault_of_ofText {text : Text} {fault : Fault} (h : ofText text = .error fault) :
    fault.OfText := by
  obtain ⟨start, -, ht⟩ := (Lexer.stands_ofText text).next_takes
  rcases hn : (Lexer.ofText text).next with ⟨fault' | token, lexer⟩
  · rw [ofText, hn] at h
    rw [hn] at ht
    cases h
    exact ht.ofText
  · rw [ofText, hn] at h
    cases h

/-! ## Requests -/

namespace Reader

/-- Whether a request stays within its limit. -/
def KeepsLimit (reader : Reader) : Request → Prop
  | .whole limit => (State.start .expression reader).KeepsTo limit
  | .phrase limit phrase => (State.start phrase reader).KeepsTo limit
  | .accept _ => True

/-- The faults that are declared for a request.  Any request reads on and can come to a token that
is not expected.  A calculation can divide, and only that of a whole can find something behind
it. -/
inductive Request.Declares : Request → Fault → Prop where
  | ofText {request : Request} {fault : Fault} :
      fault.OfText →
      Declares request fault
  | unexpected {request : Request} {token : Token} {kind : Kind} {text : Option Text} :
      Declares request (.unexpectedToken token kind text)
  | trailing {limit : Option Nat} {token : Token} :
      Declares (.whole limit) (.trailingInput token)
  | wholeDivided {limit : Option Nat} {slash : Token} :
      Declares (.whole limit) (.divisionByZero slash)
  | phraseDivided {limit : Option Nat} {phrase : Phrase} {slash : Token} :
      Declares (.phrase limit phrase) (.divisionByZero slash)

/-- A calculation within its limit fails with a declared fault. -/
theorem Request.Declares.of_run {text : Text} {limit : Option Nat} {phrase : Phrase}
    {reader : Reader} {faults : List Fault} {fault : Fault} (hp : reader.Poised text faults)
    (hk : (State.start phrase reader).KeepsTo limit)
    (h : reader.Fails fault (.phrase limit phrase)) :
    (Request.phrase limit phrase).Declares fault := by
  rcases hk.run_fault h with hl | ⟨_, _, _, rfl⟩ | ⟨_, rfl⟩
  · obtain ⟨_, ht⟩ := h.exists_takes hp hl
    exact .ofText ht.ofText
  · exact .unexpected
  · exact .phraseDivided

theorem Request.Declares.whole {limit limit' : Option Nat} {phrase : Phrase} {fault : Fault}
    (h : (Request.phrase limit phrase).Declares fault) :
    (Request.whole limit').Declares fault := by
  cases h with
  | ofText hf => exact .ofText hf
  | unexpected => exact .unexpected
  | phraseDivided => exact .wholeDivided

theorem Fails.declares {text : Text} {reader : Reader} {faults : List Fault} {request : Request}
    {fault : Fault} (h : reader.Fails fault request) (hp : reader.Poised text faults)
    (hk : reader.KeepsLimit request) : request.Declares fault := by
  cases request with
  | whole limit =>
      rcases h.whole with h | rfl
      · exact (Request.Declares.of_run hp hk h).whole
      · exact .trailing
  | phrase limit phrase => exact .of_run hp hk h
  | accept demand =>
      rcases h.accept with ⟨rfl, -⟩ | hl
      · exact .unexpected
      · obtain ⟨_, ht⟩ := h.exists_takes hp hl
        exact .ofText ht.ofText

/-- A reader is safe at its place, whatever it is asked for there. -/
structure Safe (text : Text) (reader : Reader) : Prop where
  /-- The current token was cut out of the text. -/
  cutFrom : reader.token.CutFrom text
  /-- So are those that the lexer reads for any demands. -/
  scans : ∀ demands token, .ok token ∈ reader.scans demands → token.CutFrom text
  /-- No calculation comes to an operation without a result.  That of a whole is one of an
  expression. -/
  run?_eq : ∀ limit phrase,
    (State.start phrase reader).run? limit = some (reader.phraseWithin limit phrase)
  /-- No fault escapes from a request but those that are declared for it. -/
  declares : ∀ request fault, reader.KeepsLimit request → reader.Fails fault request →
    request.Declares fault

theorem Poised.safe {text : Text} {reader : Reader} {faults : List Fault}
    (h : Poised text reader faults) : reader.Safe text where
  cutFrom := h.taken.cutFrom
  scans := fun demands _ hm => (h.taken_scans demands _ hm).cutFrom
  run?_eq := fun _ phrase => @State.run?_eq text _ (.start phrase reader) faults h
  declares := fun _ _ hk hf => hf.declares h hk

end Reader

/-- Whatever is asked of a lexer or of a reader, tokens are cut out of the text, no value is taken
of anything but digits and no division is by zero.  No fault escapes but the declared ones. -/
theorem requests_safe (text : Text) :
    (∀ requests token, .ok token ∈ (Lexer.Session.run text requests).outcomes →
      token.CutFrom text) ∧
    (∀ fault, Reader.ofText text = .error fault → fault.OfText) ∧
    ∀ reader, Reader.ofText text = .ok reader →
      ∀ requests, (reader.performAll requests).Safe text := by
  refine ⟨?_, fun _ => Reader.fault_of_ofText, ?_⟩
  · intro requests token hm
    have hs := Lexer.Session.sound_run text requests
    exact (hs.covers.taken hs.position_le _ hm).cutFrom
  · intro reader ho requests
    obtain ⟨faults, hp⟩ := Reader.exists_poised_performAll ho requests
    exact hp.safe

/-- A divisor of zero in parentheses is found by looking at it. -/
theorem requests_safe_divisor :
    ∃ reader, Reader.ofText "8/(2-2)".toList = .ok reader ∧
      reader.KeepsLimit (.phrase (some openLimit) .expression) ∧
      reader.Fails (.divisionByZero (.lexeme .punctuator ['/'] 1))
        (.phrase (some openLimit) .expression) ∧
      (Reader.Request.phrase (some openLimit) .expression).Declares
        (.divisionByZero (.lexeme .punctuator ['/'] 1)) ∧
      (State.start .expression reader).run? (some openLimit) =
        some (reader.phraseWithin (some openLimit) .expression) := by
  have ho : Reader.ofText "8/(2-2)".toList =
      .ok ⟨.lexeme .numeric ['8'] 0, ⟨1, "/(2-2)".toList, false⟩⟩ := rfl
  have hf : Reader.Fails ⟨.lexeme .numeric ['8'] 0, ⟨1, "/(2-2)".toList, false⟩⟩
      (.divisionByZero (.lexeme .punctuator ['/'] 1)) (.phrase (some openLimit) .expression) := by
    with_unfolding_all rfl
  have hk : Reader.KeepsLimit ⟨.lexeme .numeric ['8'] 0, ⟨1, "/(2-2)".toList, false⟩⟩
      (.phrase (some openLimit) .expression) := by
    rintro _ ⟨⟩ ts last hr
    have hd := depthAtMost_of_opensAtMost (opensAtMost_of_length_le (Nat.le_refl _)) _ ho ts last hr
    exact Nat.le_trans hd (by decide)
  have hs := (requests_safe "8/(2-2)".toList).2.2 _ ho []
  exact ⟨_, ho, hk, hf, hs.declares _ _ hk hf, hs.run?_eq _ _⟩

end Calculator
