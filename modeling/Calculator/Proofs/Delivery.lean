import Calculator.Evaluation.Basic
import Calculator.Proofs.Coverage

/-!
# No token is lost

A lexer that is asked for tokens again and again delivers a sequence of them,
where faults are skipped and the token at the end comes for ever
(`Lexer.delivered`).  A reader goes through this sequence.  Its current token is
the one behind those that it has accepted, and the lexer delivers what follows.

All that a reader does is to meet demands for a token of some kind, and perhaps
of some text.  A demand that is met accepts the current token, and a demand that
is not leaves it (`Reader.At.keeps`).  A step of the machine is one demand, or
the last step, which leaves the reader as it is (`State.step_reader`).  So
whatever is calculated or accepted, also behind a failure, the place of a reader
is the number of demands that were met (`Reader.At.inPlace`).
-/

namespace Calculator

/-! ## Delivery -/

namespace Lexer

theorem next_rest_lt_of_error {lexer : Lexer} {fault : Fault}
    (h : lexer.next.1 = .error fault) : lexer.next.2.rest.length < lexer.rest.length := by
  apply lexeme_rest_lt
  rw [Reading.atEnd, show (lexeme lexer.position lexer.rest).outcome = .error fault from h]

/-- The next token that can be read, and the lexer behind it.  Faults in front of it are
skipped. -/
def skip (lexer : Lexer) : Token × Lexer :=
  match _h : lexer.next.1 with
  | .ok token => (token, lexer.next.2)
  | .error _ => skip lexer.next.2
termination_by lexer.rest.length
decreasing_by exact next_rest_lt_of_error _h

/-- The tokens that a lexer delivers, by number, where faults are skipped. -/
def delivered (lexer : Lexer) : Nat → Token
  | 0 => lexer.skip.1
  | k + 1 => delivered lexer.skip.2 k

theorem skip_of_ok {lexer : Lexer} {token : Token} (h : lexer.next.1 = .ok token) :
    lexer.skip = (token, lexer.next.2) := by
  rw [skip]
  split <;> simp_all

theorem skip_of_error {lexer : Lexer} {fault : Fault} (h : lexer.next.1 = .error fault) :
    lexer.skip = lexer.next.2.skip := by
  rw [skip]
  split <;> simp_all

/-- A token that is read is delivered first. -/
theorem delivered_zero {lexer : Lexer} {token : Token} (h : lexer.next.1 = .ok token) :
    lexer.delivered 0 = token := by
  rw [delivered, skip_of_ok h]

theorem delivered_succ {lexer : Lexer} {token : Token} (h : lexer.next.1 = .ok token) (k : Nat) :
    lexer.delivered (k + 1) = lexer.next.2.delivered k := by
  rw [delivered, skip_of_ok h]

/-- A fault makes no difference to what is delivered. -/
theorem delivered_of_error {lexer : Lexer} {fault : Fault} (h : lexer.next.1 = .error fault)
    (k : Nat) : lexer.delivered k = lexer.next.2.delivered k := by
  cases k with
  | zero => rw [delivered, skip_of_error h]; rfl
  | succ k => rw [delivered, skip_of_error h]; rfl

/-- Readings go over faults up to the next token. -/
theorem exists_readings_skip (lexer : Lexer) :
    ∃ n, (lexer.readings n).filterMap Except.toOption = [lexer.skip.1] ∧
      lexer.behind n = lexer.skip.2 := by
  fun_induction skip lexer with
  | case1 lexer token hn =>
      refine ⟨1, ?_, rfl⟩
      rw [readings, readings, hn]
      rfl
  | case2 lexer fault hn ih =>
      obtain ⟨n, hr, hb⟩ := ih
      refine ⟨n + 1, ?_, hb⟩
      rw [readings, hn]
      exact hr

/-- What is delivered is what readings find, without the faults. -/
theorem exists_readings_delivered (lexer : Lexer) (k : Nat) :
    ∃ n, (lexer.readings n).filterMap Except.toOption = (List.range k).map lexer.delivered := by
  induction k generalizing lexer with
  | zero => exact ⟨0, rfl⟩
  | succ k ih =>
      obtain ⟨m, hm, hb⟩ := lexer.exists_readings_skip
      obtain ⟨n, hn⟩ := ih lexer.skip.2
      refine ⟨m + n, ?_⟩
      rw [readings_add, List.filterMap_append, hm, hb, hn, List.range_succ_eq_map, List.map_cons,
        List.map_map]
      rfl

end Lexer

/-! ## Demands -/

/-- What is asked of a reader: a token of some kind and, perhaps, of some text. -/
structure Demand where
  kind : Kind
  text : Option Text

namespace Reader

/-- Meets a demand, or fails to. -/
def meet (reader : Reader) (demand : Demand) : Except Fault Token × Reader :=
  reader.accept demand.kind demand.text

/-- A reader behind demands, met or not. -/
def behind (reader : Reader) (demands : List Demand) : Reader :=
  demands.foldl (fun reader demand => (reader.meet demand).2) reader

/-- The number of demands that are met. -/
def met (reader : Reader) : List Demand → Nat
  | [] => 0
  | demand :: demands =>
      (if (reader.meet demand).1.isOk then 1 else 0) + met (reader.meet demand).2 demands

/-- A reader is at a place in a sequence of tokens: the current token is there, and what follows
will be delivered. -/
structure At (tokens : Nat → Token) (k : Nat) (reader : Reader) : Prop where
  token_eq : reader.token = tokens k
  delivered_eq : ∀ i, reader.lexer.delivered i = tokens (k + 1 + i)

/-- A reader starts at the first token. -/
theorem at_zero_of_ofText {text : Text} {reader : Reader} (h : ofText text = .ok reader) :
    reader.At (Lexer.ofText text).delivered 0 := by
  rcases hn : (Lexer.ofText text).next with ⟨fault | token, lexer⟩
  · rw [ofText, hn] at h
    cases h
  · rw [ofText, hn] at h
    cases h
    have hok : (Lexer.ofText text).next.1 = .ok token := congrArg Prod.fst hn
    refine ⟨(Lexer.delivered_zero hok).symm, ?_⟩
    intro i
    rw [Nat.zero_add, Nat.add_comm, Lexer.delivered_succ hok, hn]

/-- What a demand does to a reader at a place. -/
structure Keeps (tokens : Nat → Token) (k : Nat) (reader : Reader) (demand : Demand) : Prop where
  /-- A demand that is met takes the token there and moves on by one. -/
  ok : ∀ token, (reader.meet demand).1 = .ok token →
    token = tokens k ∧ (reader.meet demand).2.At tokens (k + 1)
  /-- A demand that is not met leaves the place. -/
  error : ∀ fault, (reader.meet demand).1 = .error fault → (reader.meet demand).2.At tokens k

theorem At.keeps {tokens : Nat → Token} {k : Nat} {reader : Reader} (h : reader.At tokens k)
    (demand : Demand) : Keeps tokens k reader demand := by
  by_cases hf : reader.token.fits demand.kind demand.text = true
  · have hm : reader.meet demand = reader.advance := if_pos hf
    rcases hn : reader.lexer.next with ⟨fault | next, lexer⟩
    · -- the lexer moves, but what it has passed delivers nothing
      have he : reader.lexer.next.1 = .error fault := congrArg Prod.fst hn
      rw [advance, hn] at hm
      constructor
      · intro token ht
        rw [hm] at ht
        cases ht
      · intro _ _
        rw [hm]
        refine ⟨h.token_eq, ?_⟩
        intro i
        rw [← h.delivered_eq i, Lexer.delivered_of_error he i, hn]
    · have ho : reader.lexer.next.1 = .ok next := congrArg Prod.fst hn
      rw [advance, hn] at hm
      constructor
      · intro token ht
        rw [hm] at ht ⊢
        cases ht
        refine ⟨h.token_eq, (Lexer.delivered_zero ho).symm.trans (h.delivered_eq 0), ?_⟩
        intro i
        rw [show k + 1 + 1 + i = k + 1 + (i + 1) by omega, ← h.delivered_eq (i + 1),
          Lexer.delivered_succ ho i, hn]
      · intro fault hfault
        rw [hm] at hfault
        cases hfault
  · have hm : reader.meet demand =
        (.error (.unexpectedToken reader.token demand.kind demand.text), reader) := if_neg hf
    constructor
    · intro token ht
      rw [hm] at ht
      cases ht
    · intro _ _
      rw [hm]
      exact h

/-- The place of a reader is the number of demands that were met. -/
theorem At.behind {tokens : Nat → Token} {k : Nat} {reader : Reader} (h : reader.At tokens k)
    (demands : List Demand) : (reader.behind demands).At tokens (k + reader.met demands) := by
  induction demands generalizing reader k with
  | nil => exact h
  | cons demand demands ih =>
      cases hm : (reader.meet demand).1 with
      | ok token =>
          have hb := ih ((h.keeps demand).ok token hm).2
          rw [Nat.add_assoc] at hb
          rw [met, hm]
          exact hb
      | error fault =>
          have hb := ih ((h.keeps demand).error fault hm)
          rw [met, hm, if_neg (by simp [Except.isOk, Except.toBool]), Nat.zero_add]
          exact hb

theorem behind_append (reader : Reader) (first second : List Demand) :
    reader.behind (first ++ second) = (reader.behind first).behind second :=
  List.foldl_append

theorem met_append (reader : Reader) (first second : List Demand) :
    reader.met (first ++ second) = reader.met first + (reader.behind first).met second := by
  induction first generalizing reader with
  | nil => exact (Nat.zero_add _).symm
  | cons demand first ih =>
      show _ + met _ (first ++ second) = _ + met _ first + _
      rw [ih, Nat.add_assoc]
      rfl

end Reader

/-! ## Demands of the machine -/

/-- The reader that a step leaves. -/
def Turn.reader : Turn → Reader
  | next state => state.reader
  | done _ reader => reader

theorem Turn.operand_reader (level : Level) (outer : List Level) (value : Int) (reader : Reader) :
    (Turn.operand level outer value reader).reader = reader := by
  rw [Turn.operand]
  cases level.operand value <;> rfl

theorem Turn.andThen_reader {proceed : Token → Reader → Turn}
    (hp : ∀ token reader, (proceed token reader).reader = reader)
    (accepted : Except Fault Token × Reader) :
    (Turn.andThen accepted proceed).reader = accepted.2 := by
  obtain ⟨outcome, reader⟩ := accepted
  cases outcome with
  | ok token => exact hp token reader
  | error fault => rfl

namespace State

/-- What a step demands.  The last one demands nothing, and neither does one at a parenthesis too
many. -/
def demand? (limit : Option Nat) (state : State) : Option Demand :=
  match state.phase with
  | .operand =>
      if state.reader.token.isPunctuator ['('] then
        if limit.any (· ≤ state.outer.length) then none else some ⟨.punctuator, some ['(']⟩
      else some ⟨.numeric, none⟩
  | .operator =>
      match state.operator? with
      | some operator => some ⟨.punctuator, some operator.text⟩
      | none => if state.outer.isEmpty then none else some ⟨.punctuator, some [')']⟩

/-- A step goes on with what meets its demand, and without one it ends where it is. -/
inductive Demands (state : State) : Option Demand → Turn → Prop where
  | some {demand : Demand} {proceed : Token → Reader → Turn} :
      (∀ token reader, (proceed token reader).reader = reader) →
      Demands state (some demand) (.andThen (state.reader.meet demand) proceed)
  | none {answer : Except Fault Int} : Demands state none (.done answer state.reader)

/-- A token that is known meets the demand for its text. -/
theorem meet_of_isPunctuator {reader : Reader} {text : Text}
    (h : reader.token.isPunctuator text = true) :
    reader.advance = reader.meet ⟨.punctuator, some text⟩ :=
  (if_pos ((Token.fits_some ..).trans h)).symm

theorem demands_step (limit : Option Nat) (state : State) :
    state.Demands (state.demand? limit) (state.step limit) := by
  obtain ⟨phase, level, outer, reader⟩ := state
  cases phase with
  | operand =>
      simp only [demand?, step]
      split
      · rename_i hp
        rw [openLevel]
        split
        · exact .none
        · rw [meet_of_isPunctuator hp]
          exact .some fun _ _ => rfl
      · exact .some fun _ _ => Turn.operand_reader ..
  | operator =>
      cases ho : operator? ⟨.operator, level, outer, reader⟩ with
      | some operator =>
          have hp := Operator.ofToken?_eq_some_iff.1 (Option.filter_eq_some_iff.1 ho).1
          simp only [demand?, step, ho, State.operator, meet_of_isPunctuator hp]
          exact .some fun _ _ => rfl
      | none =>
          simp only [demand?, step, ho]
          cases outer with
          | nil => exact .none
          | cons level outer => exact .some fun _ _ => Turn.operand_reader ..

/-- A step moves the reader by its demand alone. -/
theorem step_reader (limit : Option Nat) (state : State) :
    (state.step limit).reader = state.reader.behind (state.demand? limit).toList := by
  have hd := state.demands_step limit
  generalize state.demand? limit = demand?, state.step limit = turn at hd
  cases hd with
  | some hp => exact Turn.andThen_reader hp _
  | none => rfl

/-- The demands of a run, in order. -/
def demands (limit : Option Nat) (state : State) : List Demand :=
  match _h : state.step limit with
  | .next next => (state.demand? limit).toList ++ demands limit next
  | .done _ _ => (state.demand? limit).toList
termination_by state.reader.weight
decreasing_by exact step_weight_lt _h

/-- A run moves the reader by its demands alone. -/
theorem run_reader (limit : Option Nat) (state : State) :
    (state.run limit).2 = state.reader.behind (state.demands limit) := by
  have hr := state.step_reader limit
  fun_induction run limit state with
  | case1 state next hs ih =>
      rw [hs] at hr
      rw [demands]
      split
      · rename_i hs'
        cases hs.symm.trans hs'
        rw [Reader.behind_append, ← hr, ih (next.step_reader limit)]
        rfl
      · rename_i hs'
        cases hs.symm.trans hs'
  | case2 state answer reader hs =>
      rw [hs] at hr
      rw [demands]
      split
      · rename_i hs'
        cases hs.symm.trans hs'
      · exact hr

end State

/-! ## Requests -/

namespace Reader

/-- What a reader can be asked for.  Calculations have a limit on the parentheses open at one
time. -/
inductive Request where
  /-- The value of all that is left. -/
  | whole (limit : Option Nat)
  /-- The value of the longest phrase. -/
  | phrase (limit : Option Nat) (phrase : Phrase)
  /-- One token. -/
  | accept (demand : Demand)

/-- A reader behind a request, whether or not it fails. -/
def perform (reader : Reader) : Request → Reader
  | .whole limit => (reader.wholeWithin limit).2
  | .phrase limit phrase => (reader.phraseWithin limit phrase).2
  | .accept demand => (reader.accept demand.kind demand.text).2

/-- The demands that a request makes, in order. -/
def demands (reader : Reader) : Request → List Demand
  | .whole limit => (State.start .expression reader).demands limit
  | .phrase limit phrase => (State.start phrase reader).demands limit
  | .accept demand => [demand]

theorem perform_eq (reader : Reader) (request : Request) :
    reader.perform request = reader.behind (reader.demands request) := by
  have hp : ∀ limit phrase, (reader.phraseWithin limit phrase).2 =
      reader.behind ((State.start phrase reader).demands limit) :=
    fun limit phrase => State.run_reader limit (.start phrase reader)
  cases request with
  | whole limit =>
      show (reader.wholeWithin limit).2 = _
      rw [demands, ← hp, wholeWithin]
      split
      · split <;> simp_all
      · simp_all
  | phrase limit phrase => exact hp limit phrase
  | accept demand => rfl

/-- A reader behind requests in order. -/
def performAll (reader : Reader) (requests : List Request) : Reader :=
  requests.foldl perform reader

/-- The demands that requests make in order. -/
def allDemands (reader : Reader) : List Request → List Demand
  | [] => []
  | request :: requests =>
      reader.demands request ++ allDemands (reader.perform request) requests

/-- Nothing but demands moves a reader. -/
theorem performAll_eq (reader : Reader) (requests : List Request) :
    reader.performAll requests = reader.behind (reader.allDemands requests) := by
  induction requests generalizing reader with
  | nil => rfl
  | cons request requests ih =>
      rw [allDemands, behind_append, ← perform_eq, ← ih]
      rfl

theorem allDemands_append (reader : Reader) (first second : List Request) :
    reader.allDemands (first ++ second) =
      reader.allDemands first ++ (reader.performAll first).allDemands second := by
  induction first generalizing reader with
  | nil => rfl
  | cons request first ih =>
      rw [List.cons_append, allDemands, ih, ← List.append_assoc]
      rfl

/-- What requests do to a reader, in terms of the tokens that are there to be delivered. -/
structure InPlace (tokens : Nat → Token) (reader : Reader) (requests : List Request) : Prop where
  /-- Nothing moves the reader but the demands of the requests, in order. -/
  performAll_eq : reader.performAll requests = reader.behind (reader.allDemands requests)
  /-- The current token is the one behind those that met a demand. -/
  token_eq : (reader.performAll requests).token = tokens (reader.met (reader.allDemands requests))
  /-- No request takes the reader back. -/
  met_le : ∀ before after, requests = before ++ after →
    reader.met (reader.allDemands before) ≤ reader.met (reader.allDemands requests)
  /-- Each demand, also one inside a calculation, takes the token at the place where it is made
  and moves on by one, or it leaves the place. -/
  keeps : ∀ before demand after, reader.allDemands requests = before ++ demand :: after →
    (reader.behind before).token = tokens (reader.met before) ∧
      Keeps tokens (reader.met before) (reader.behind before) demand

theorem At.inPlace {tokens : Nat → Token} {reader : Reader} (h : reader.At tokens 0)
    (requests : List Request) : InPlace tokens reader requests := by
  have hb : ∀ demands, (reader.behind demands).At tokens (reader.met demands) := by
    intro demands
    have hb := h.behind demands
    rwa [Nat.zero_add] at hb
  refine ⟨reader.performAll_eq requests, ?_, ?_, ?_⟩
  · rw [Reader.performAll_eq]
    exact (hb _).token_eq
  · rintro before after rfl
    rw [allDemands_append, met_append]
    exact Nat.le_add_right _ _
  · intro before demand after _
    exact ⟨(hb before).token_eq, (hb before).keeps demand⟩

end Reader

end Calculator
