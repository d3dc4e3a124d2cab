import Calculator.Evaluation.Level
import Calculator.Token.Reader

/-!
# The calculating machine

A phrase is calculated while it is read, by a machine with a stack.  A state
holds the level in progress, the levels around it that wait for its value, the
reader, and whether an operand or an operator comes next.  A step accepts one
token.

* Where an operand comes next, an opening parenthesis begins a level, and
  anything else has to be a numeral.
* Where an operator comes next and the level goes on with the current token, it
  is accepted.  Otherwise the level ends here.  A level inside parentheses has
  to be closed, and its value is an operand of the level around it.  The
  outermost level is the answer.

An operand joins its level once the token behind it has been read.  So a fault
in that token comes before a division by zero.

The number of parentheses open at one time can be limited.  One parenthesis
more is a fault before anything behind it is read.

Each step uses up weight of the reader (`step_weight_lt`), so a run ends.
-/

namespace Calculator

/-- What a machine waits for. -/
inductive Phase where
  | operand
  | operator
  deriving DecidableEq

/-- A calculation in progress. -/
structure State where
  /-- What comes next. -/
  phase : Phase
  /-- The level in progress. -/
  level : Level
  /-- The levels around it, the innermost first. -/
  outer : List Level
  /-- The tokens to come. -/
  reader : Reader

/-- The effect of a step: another state, or an answer and the reader it leaves. -/
inductive Turn where
  | next (state : State)
  | done (answer : Except Fault Int) (reader : Reader)

namespace Turn

/-- Goes on with an accepted token, and ends with the fault where there is none. -/
def andThen (accepted : Except Fault Token × Reader) (proceed : Token → Reader → Turn) : Turn :=
  match accepted with
  | (.ok token, reader) => proceed token reader
  | (.error fault, reader) => .done (.error fault) reader

/-- Goes on behind an operand of a level. -/
def operand (level : Level) (outer : List Level) (value : Int) (reader : Reader) : Turn :=
  match level.operand value with
  | .ok level => .next ⟨.operator, level, outer, reader⟩
  | .error fault => .done (.error fault) reader

end Turn

/-! ## Steps -/

namespace State

/-- A machine at the start of a phrase. -/
def start (phrase : Phrase) (reader : Reader) : State := ⟨.operand, .start phrase, [], reader⟩

/-- Begins a level at an opening parenthesis. -/
def openLevel (limit : Option Nat) (state : State) : Turn :=
  if limit.any (· ≤ state.outer.length) then
    .done (.error (.nestingTooDeep state.reader.token)) state.reader
  else
    .andThen state.reader.advance fun _ reader =>
      .next ⟨.operand, .start .expression, state.level :: state.outer, reader⟩

/-- Takes a numeral as an operand. -/
def numeral (state : State) : Turn :=
  .andThen (state.reader.accept .numeric none) fun token reader =>
    .operand state.level state.outer token.value reader

/-- The operator with which the level goes on, if it does. -/
def operator? (state : State) : Option Operator :=
  (Operator.ofToken? state.reader.token).filter state.level.phrase.joins

/-- Takes an operator. -/
def operator (state : State) (operator : Operator) : Turn :=
  .andThen state.reader.advance fun token reader =>
    .next ⟨.operand, state.level.operator token operator, state.outer, reader⟩

/-- Ends the level. -/
def closeLevel (state : State) : Turn :=
  match state.outer with
  | [] => .done (.ok state.level.value) state.reader
  | level :: outer =>
      .andThen (state.reader.accept .punctuator (some [')'])) fun _ reader =>
        .operand level outer state.level.value reader

/-- One step of the machine. -/
def step (limit : Option Nat) (state : State) : Turn :=
  match state.phase with
  | .operand =>
      if state.reader.token.isPunctuator ['('] then state.openLevel limit else state.numeral
  | .operator =>
      match state.operator? with
      | some operator => state.operator operator
      | none => state.closeLevel

end State

/-! ## Progress -/

theorem Turn.next_of_andThen {accepted : Except Fault Token × Reader}
    {proceed : Token → Reader → Turn} {state : State}
    (h : Turn.andThen accepted proceed = .next state) :
    ∃ token, accepted.1 = .ok token ∧ proceed token accepted.2 = .next state := by
  obtain ⟨outcome, reader⟩ := accepted
  cases outcome with
  | ok token => exact ⟨token, rfl, h⟩
  | error fault => cases h

theorem Turn.reader_of_operand {level : Level} {outer : List Level} {value : Int}
    {reader : Reader} {state : State} (h : Turn.operand level outer value reader = .next state) :
    state.reader = reader := by
  unfold Turn.operand at h
  split at h
  · cases h; rfl
  · cases h

/-- A token that is a punctuator is not the end of the text. -/
theorem Token.kind_ne_of_isPunctuator {token : Token} {text : Text}
    (h : token.isPunctuator text = true) : token.kind ≠ .endOfText := by
  rw [(Token.is_iff.1 h).1]
  decide

namespace State

/-- A step accepts a token, which leaves the reader less to go through. -/
theorem step_weight_lt {limit : Option Nat} {state state' : State}
    (h : state.step limit = .next state') : state'.reader.weight < state.reader.weight := by
  unfold step at h
  split at h
  · split at h
    · rename_i hp
      unfold openLevel at h
      split at h
      · cases h
      · obtain ⟨token, ht, h⟩ := Turn.next_of_andThen h
        cases h
        exact Reader.advance_weight_lt (Token.kind_ne_of_isPunctuator hp) ht
    · obtain ⟨token, ht, h⟩ := Turn.next_of_andThen h
      rw [Turn.reader_of_operand h]
      exact Reader.accept_weight_lt (by decide) ht
  · split at h
    · rename_i operator ho
      obtain ⟨token, ht, h⟩ := Turn.next_of_andThen h
      cases h
      have hp := Operator.ofToken?_eq_some_iff.1 (Option.filter_eq_some_iff.1 ho).1
      exact Reader.advance_weight_lt (Token.kind_ne_of_isPunctuator hp) ht
    · unfold closeLevel at h
      split at h
      · cases h
      · obtain ⟨token, ht, h⟩ := Turn.next_of_andThen h
        rw [Turn.reader_of_operand h]
        exact Reader.accept_weight_lt (by decide) ht

/-! ## Runs -/

/-- Runs the machine to its answer. -/
def run (limit : Option Nat) (state : State) : Except Fault Int × Reader :=
  match _h : state.step limit with
  | .next state => run limit state
  | .done answer reader => (answer, reader)
termination_by state.reader.weight
decreasing_by exact step_weight_lt _h

theorem run_of_step_next {limit : Option Nat} {state state' : State}
    (h : state.step limit = .next state') : state.run limit = state'.run limit := by
  rw [run]
  split <;> simp_all

theorem run_of_step_done {limit : Option Nat} {state : State} {answer : Except Fault Int}
    {reader : Reader} (h : state.step limit = .done answer reader) :
    state.run limit = (answer, reader) := by
  rw [run]
  split <;> simp_all

end State
end Calculator
