import Calculator.Proofs.Nesting

/-!
# Texts that only open parentheses

A text of opening parentheses shows what a limit does.  As far as the limit allows,
each parenthesis begins a level and the next one becomes the current token
(`State.step_opened`).  So a calculation of such a text comes as deep as the text is
long (`State.reaches_opened`).  With a limit below this it stops at the parenthesis
that is one too many.  Without a limit it comes to the end, where an operand is
missing.
-/

namespace Calculator

/-- A text that opens some number of parentheses and nothing else. -/
def openings (n : Nat) : Text := List.replicate n '('

/-- The opening parenthesis at an offset. -/
def Token.opening (position : Nat) : Token := .lexeme .punctuator ['('] position

theorem Lexer.next_openings (position n : Nat) (finished : Bool) :
    (Lexer.mk position (openings (n + 1)) finished).next =
      (.ok (.opening position), ⟨position + 1, openings n, finished⟩) := by
  have hr : lexeme position (openings (n + 1)) =
      ⟨.ok (.opening position), position + 1, openings n⟩ :=
    lexeme_of_spells position (spells_parenthesis (Or.inl rfl) (openings n))
  simp only [next, hr]
  simp [Reading.atEnd, Token.opening, Token.lexeme]

namespace State

/-- The calculation behind `k` parentheses, at one more with `n` behind it. -/
def opened (k n : Nat) : State :=
  ⟨.operand, .start .expression, List.replicate k (.start .expression),
    ⟨.opening k, ⟨k + 1, openings n, false⟩⟩⟩

theorem step_opened {limit : Option Nat} {k : Nat} (h : limit.any (· ≤ k) = false) (n : Nat) :
    (opened k (n + 1)).step limit = .next (opened (k + 1) n) := by
  have ha : (opened k (n + 1)).reader.advance =
      (.ok (.opening k), (opened (k + 1) n).reader) := by
    rw [Reader.advance]
    simp only [opened, Lexer.next_openings]
  have ho : (opened k (n + 1)).step limit = (opened k (n + 1)).openLevel limit := rfl
  have hl : limit.any (· ≤ (opened k (n + 1)).outer.length) = false := by
    simpa [opened] using h
  rw [ho, openLevel, hl, ha]
  rfl

theorem reaches_opened (k j n : Nat) :
    ∃ ts, Reaches none (opened k (j + n)) ts (opened (k + j) n) := by
  induction j generalizing k with
  | zero =>
      rw [Nat.zero_add]
      exact ⟨[], .refl _⟩
  | succ j ih =>
      obtain ⟨ts, hr⟩ := ih (k + 1)
      rw [Nat.add_right_comm k 1 j, Nat.add_assoc k j 1] at hr
      rw [Nat.add_right_comm j 1 n]
      exact ⟨_, .head (step_opened rfl (j + n)) hr⟩

/-- A limit is met at the parenthesis that is one too many, which stays the current token. -/
theorem run_opened (k j n : Nat) :
    (opened k (j + n)).run (some (k + j)) =
      (.error (.nestingTooDeep (.opening (k + j))), (opened (k + j) n).reader) := by
  induction j generalizing k with
  | zero =>
      rw [Nat.zero_add]
      refine run_of_step_done ?_
      show openLevel (some k) (opened k n) = _
      rw [openLevel, if_pos (by simp [opened])]
      rfl
  | succ j ih =>
      have hl : (some (k + (j + 1))).any (· ≤ k) = false := by simp
      rw [Nat.add_right_comm j 1 n, run_of_step_next (step_opened hl (j + n)),
        show k + (j + 1) = k + 1 + j by omega]
      exact ih (k + 1)

/-- Without a limit the operand that comes next is missing at the end. -/
theorem run_opened_none (k n : Nat) :
    ((opened k n).run none).1 =
      .error (.unexpectedToken (.endOfText ((k + n + 1 : Nat) : Int)) .numeric none) := by
  induction n generalizing k with
  | zero =>
      -- the last parenthesis is accepted, and then the end is no numeral
      have hs : (opened k 0).step none = .next ⟨.operand, .start .expression,
          List.replicate (k + 1) (.start .expression),
          ⟨.endOfText ((k + 1 : Nat) : Int), ⟨k + 1, [], true⟩⟩⟩ := rfl
      rw [run_of_step_next hs]
      exact congrArg Prod.fst (run_of_step_done rfl)
  | succ n ih =>
      rw [run_of_step_next (step_opened rfl n), ih, Nat.add_right_comm k 1 n, Nat.add_assoc k n 1]

end State

/-! ## Calculations -/

namespace Reader

theorem ofText_openings (n : Nat) :
    ofText (openings (n + 1)) = .ok (State.opened 0 n).reader := by
  rw [ofText, Lexer.ofText, Lexer.next_openings]
  rfl

/-- A whole fails as its expression does. -/
theorem wholeWithin_of_error {limit : Option Nat} {reader : Reader} {fault : Fault}
    (h : (reader.phraseWithin limit .expression).1 = .error fault) :
    reader.wholeWithin limit = (.error fault, (reader.phraseWithin limit .expression).2) := by
  rw [wholeWithin]
  generalize reader.phraseWithin limit .expression = result at h
  obtain ⟨answer, last⟩ := result
  cases h
  rfl

/-- A limit stops the calculation of a text of parentheses, and leaves the one that it stops at as
the current token. -/
theorem wholeWithin_openings (m n : Nat) :
    (State.opened 0 (m + n)).reader.wholeWithin (some m) =
      (.error (.nestingTooDeep (.opening m)), (State.opened m n).reader) := by
  have hr := State.run_opened 0 m n
  rw [Nat.zero_add] at hr
  have hp : (State.opened 0 (m + n)).reader.phraseWithin (some m) .expression = _ := hr
  rw [wholeWithin_of_error (congrArg Prod.fst hp), hp]

end Reader

theorem evaluateWithin_openings (m n : Nat) :
    evaluateWithin (some m) (openings (m + n + 1)) = .error (.nestingTooDeep (.opening m)) := by
  rw [evaluateWithin, Reader.ofText_openings]
  exact congrArg Prod.fst (Reader.wholeWithin_openings m n)

theorem evaluateWithin_none_openings (n : Nat) :
    evaluateWithin none (openings (n + 1)) =
      .error (.unexpectedToken (.endOfText ((n + 1 : Nat) : Int)) .numeric none) := by
  have hr := State.run_opened_none 0 n
  rw [Nat.zero_add] at hr
  rw [evaluateWithin, Reader.ofText_openings]
  exact congrArg Prod.fst (Reader.wholeWithin_of_error hr)

end Calculator
