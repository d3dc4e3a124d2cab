import Calculator.Proofs.Answer
import Calculator.Proofs.Tiling

/-!
# Moving a text

No decision depends on an offset.  Offsets are only kept for messages.  So where
a text begins at another offset, all its tokens and its fault are at another
place, and nothing else is different.

* A lexer that stands at a later offset, with the same text in front of it, finds
  the same (`Lexer.scan_later`).
* A phrase is a phrase with the same value, wherever its tokens stand
  (`Derives.moved`).
* A stack answers alike to tokens at other places (`Stack.answer_moved`).

The first law adds a number to all offsets.  The other two hold for any function
on offsets.  That of a constant function forgets them, so that the answers to
the same tokens at different places can be compared.
-/

namespace Calculator

/-! ## Tokens and faults -/

/-- A token at another place. -/
def Token.moved (move : Int → Int) (token : Token) : Token :=
  { token with location := move token.location }

@[simp] theorem Token.moved_kind (move : Int → Int) (token : Token) :
    (token.moved move).kind = token.kind := rfl

@[simp] theorem Token.moved_isPunctuator (move : Int → Int) (token : Token) (text : Text) :
    (token.moved move).isPunctuator text = token.isPunctuator text := rfl

/-- Only the place of the token itself counts. -/
theorem Token.moved_congr {move move' : Int → Int} {token : Token}
    (h : move token.location = move' token.location) : token.moved move = token.moved move' := by
  rw [moved, h, moved]

namespace Fault

/-- A fault at another place. -/
def moved (move : Int → Int) : Fault → Fault
  | unrecognizedCharacter location text => .unrecognizedCharacter (move location) text
  | unterminatedLiteral location => .unterminatedLiteral (move location)
  | unexpectedToken token kind text => .unexpectedToken (token.moved move) kind text
  | trailingInput token => .trailingInput (token.moved move)
  | divisionByZero slash => .divisionByZero (slash.moved move)
  | nestingTooDeep token => .nestingTooDeep (token.moved move)

/-- The sorts of fault. -/
inductive Cause where
  | unrecognizedCharacter
  | unterminatedLiteral
  | unexpectedToken
  | trailingInput
  | divisionByZero
  | nestingTooDeep
  deriving DecidableEq

/-- The sort of a fault. -/
def cause : Fault → Cause
  | unrecognizedCharacter .. => .unrecognizedCharacter
  | unterminatedLiteral _ => .unterminatedLiteral
  | unexpectedToken .. => .unexpectedToken
  | trailingInput _ => .trailingInput
  | divisionByZero _ => .divisionByZero
  | nestingTooDeep _ => .nestingTooDeep

@[simp] theorem moved_cause (move : Int → Int) (fault : Fault) :
    (fault.moved move).cause = fault.cause := by
  cases fault <;> rfl

@[simp] theorem moved_summary (move : Int → Int) (fault : Fault) :
    (fault.moved move).summary = fault.summary := by
  cases fault <;> rfl

@[simp] theorem moved_width (move : Int → Int) (fault : Fault) :
    (fault.moved move).width = fault.width := by
  cases fault <;> rfl

@[simp] theorem moved_location (move : Int → Int) (fault : Fault) :
    (fault.moved move).location = move fault.location := by
  cases fault <;> rfl

theorem moved_congr {move move' : Int → Int} {fault : Fault}
    (h : move fault.location = move' fault.location) : fault.moved move = fault.moved move' := by
  cases fault with
  | unrecognizedCharacter _ text => exact congrArg (unrecognizedCharacter · text) h
  | unterminatedLiteral _ => exact congrArg unterminatedLiteral h
  | unexpectedToken _ kind text =>
      exact congrArg (unexpectedToken · kind text) (Token.moved_congr h)
  | trailingInput _ => exact congrArg trailingInput (Token.moved_congr h)
  | divisionByZero _ => exact congrArg divisionByZero (Token.moved_congr h)
  | nestingTooDeep _ => exact congrArg nestingTooDeep (Token.moved_congr h)

@[simp] theorem moved_id (fault : Fault) : fault.moved id = fault := by
  cases fault <;> rfl

@[simp] theorem moved_moved (first second : Int → Int) (fault : Fault) :
    (fault.moved first).moved second = fault.moved (second ∘ first) := by
  cases fault <;> rfl

end Fault

/-- A result at another place. -/
def movedResult {α : Type} (moveValue : α → α) (move : Int → Int) (result : Except Fault α) :
    Except Fault α :=
  (result.map moveValue).mapError (.moved move)

/-! ## Lexers -/

/-- A reading at a later offset. -/
def Reading.later (d : Nat) (reading : Reading) : Reading :=
  ⟨movedResult (.moved (· + d)) (· + d) reading.outcome, reading.position + d, reading.rest⟩

theorem Reads.later {position : Nat} {text : Text} {reading : Reading}
    (h : Reads position text reading) (d : Nat) : Reads (position + d) text (reading.later d) := by
  induction h with
  | @space position rest reading _ ih =>
      rw [Nat.add_right_comm] at ih
      exact .space ih
  | endOfText => exact .endOfText
  | @token position kind body span rest hsp =>
      have hr := @Reads.token (position + d) kind body span rest hsp
      rw [Nat.add_right_comm] at hr
      exact hr
  | @stray position c rest hc =>
      have hr := @Reads.stray (position + d) c rest hc
      rw [Nat.add_right_comm] at hr
      exact hr
  | @unclosed position quote rest hq hn =>
      have hr := @Reads.unclosed (position + d) quote rest hq hn
      rw [show position + d + 1 + rest.length = position + 1 + rest.length + d by omega] at hr
      exact hr

namespace Lexer

/-- A lexer at a later offset, in front of the same text. -/
def later (d : Nat) (lexer : Lexer) : Lexer := ⟨lexer.position + d, lexer.rest, lexer.finished⟩

theorem next_later (d : Nat) (lexer : Lexer) :
    (lexer.later d).next = (movedResult (.moved (· + d)) (· + d) lexer.next.1,
      lexer.next.2.later d) := by
  have hr := ((lexeme_reads lexer.position lexer.rest).later d).eq_lexeme
  have he : ((lexeme lexer.position lexer.rest).later d).atEnd =
      (lexeme lexer.position lexer.rest).atEnd := by
    rw [Reading.atEnd, Reading.atEnd, Reading.later]
    cases (lexeme lexer.position lexer.rest).outcome <;> rfl
  rw [next, later, hr, he]
  rfl

/-- A lexer at a later offset scans the same tokens and the same fault. -/
theorem scan_later (d : Nat) (lexer : Lexer) :
    (lexer.later d).scan =
      (lexer.scan.1.map (.moved (· + d)), lexer.scan.2.map (.moved (· + d))) := by
  fun_induction scan lexer with
  | case1 lexer fault hn =>
      have hl : (lexer.later d).next.1 = .error (fault.moved (· + d)) := by
        rw [next_later, hn]
        rfl
      exact scan_of_error hl
  | case2 lexer token hn hk =>
      have hl : (lexer.later d).next.1 = .ok (token.moved (· + d)) := by
        rw [next_later, hn]
        rfl
      exact scan_of_end hl hk
  | case3 lexer token hn hk ih =>
      have hl : (lexer.later d).next.1 = .ok (token.moved (· + d)) := by
        rw [next_later, hn]
        rfl
      rw [scan_of_token hl hk, next_later, ih]
      rfl

end Lexer

/-! ## Phrases -/

theorem Operator.join_moved (move : Int → Int) (operator : Operator) (sign : Token)
    (v w : Except Token Int) :
    operator.join (sign.moved move) (v.mapError (.moved move)) (w.mapError (.moved move)) =
      (operator.join sign v w).mapError (.moved move) := by
  cases v with
  | error slash => rfl
  | ok a =>
      cases w with
      | error slash => rfl
      | ok b =>
          cases operator with
          | div =>
              show Operator.apply .div _ a b = (Operator.apply .div sign a b).mapError _
              rw [Operator.apply, Operator.apply]
              split <;> rfl
          | add => rfl
          | sub => rfl
          | mul => rfl

/-- A phrase is a phrase wherever it stands. -/
theorem Derives.moved {p : Phrase} {ts : List Token} {v : Except Token Int}
    (h : Derives p ts v) (move : Int → Int) :
    Derives p (ts.map (.moved move)) (v.mapError (.moved move)) := by
  induction h with
  | numeral hk => exact .numeral hk
  | parentheses hl _ hr ih =>
      rw [List.map_cons, List.map_append]
      exact .parentheses hl ih hr
  | factor _ ih => exact .factor ih
  | product _ hs ho _ ihl ihr =>
      rw [List.map_append, List.map_cons, ← Operator.join_moved]
      exact .product ihl hs ho ihr
  | term _ ih => exact .term ih
  | sum _ hs ho _ ihl ihr =>
      rw [List.map_append, List.map_cons, ← Operator.join_moved]
      exact .sum ihl hs ho ihr

/-! ## Stacks -/

/-- A level whose division sign is at another place. -/
def Level.moved (move : Int → Int) (level : Level) : Level :=
  { level with slash := level.slash.map (.moved move) }

theorem Level.operand_moved (move : Int → Int) (level : Level) (x : Int) :
    (level.moved move).operand x = movedResult (.moved move) move (level.operand x) := by
  obtain ⟨phrase, total, negative, product, slash⟩ := level
  cases slash with
  | none => rfl
  | some slash =>
      simp only [operand, moved, Option.map_some]
      cases quotient? product x <;> rfl

theorem Level.operator_moved (move : Int → Int) (level : Level) (token : Token)
    (operator : Operator) :
    (level.moved move).operator (token.moved move) operator =
      (level.operator token operator).moved move := by
  cases operator <;> rfl

namespace Stack

/-- A stack whose division signs are at another place. -/
def moved (move : Int → Int) (stack : Stack) : Stack :=
  ⟨stack.phase, stack.level.moved move, stack.outer.map (.moved move)⟩

theorem operand_moved (move : Int → Int) (level : Level) (outer : List Level) (x : Int) :
    operand (level.moved move) (outer.map (.moved move)) x =
      movedResult (.moved move) move (operand level outer x) := by
  rw [operand, operand, Level.operand_moved]
  cases level.operand x <;> rfl

theorem shift_moved (move : Int → Int) (stack : Stack) (token : Token) :
    (stack.moved move).shift (token.moved move) =
      movedResult (.moved move) move (stack.shift token) := by
  have hc := shifts stack token
  have ho : (stack.moved move).operator? (token.moved move) = stack.operator? token := rfl
  generalize stack.shift token = result at hc
  cases hc with
  | @opens level outer token hp =>
      have hp : (token.moved move).isPunctuator ['('] = true := hp
      exact shift_open hp (level.moved move) (outer.map (.moved move))
  | @numeral level outer token _ hk h =>
      have hk : (token.moved move).kind = .numeric := hk
      rw [← h]
      exact (shift_numeral hk _ _).trans (operand_moved move level outer token.value)
  | noOperand hp hk => exact (if_neg (Bool.eq_false_iff.1 hp)).trans (if_neg hk)
  | @operator level outer token operator ht hj =>
      have ht : (token.moved move).isPunctuator operator.text = true := ht
      have hs := @shift_operator _ operator (level.moved move) ht hj (outer.map (.moved move))
      rw [Level.operator_moved] at hs
      exact hs
  | @closes inner level outer token _ hp h =>
      have hp : (token.moved move).isPunctuator [')'] = true := hp
      rw [← h]
      exact (shift_close hp _ _ _).trans (operand_moved move level outer inner.value)
  | noClose hn hp =>
      rw [hn] at ho
      simp only [shift, moved, List.map_cons] at ho ⊢
      simp only [ho, Token.moved_isPunctuator, hp]
      rfl
  | trailing hn =>
      rw [hn] at ho
      simp only [shift, moved, List.map_nil] at ho ⊢
      simp only [ho]
      rfl

theorem exceeds_moved (limit : Option Nat) (move : Int → Int) (stack : Stack) (token : Token) :
    (stack.moved move).exceeds limit (token.moved move) = stack.exceeds limit token := by
  cases limit with
  | none => rfl
  | some n =>
      rw [exceeds, exceeds, moved, List.length_map]
      rfl

theorem conclude_moved (move : Int → Int) (stack : Stack) (behind : Option Fault) (fault : Fault) :
    (stack.moved move).conclude (behind.map (.moved move)) (fault.moved move) =
      (stack.conclude behind fault).mapError (.moved move) := by
  cases fault with
  | divisionByZero slash => cases behind <;> rfl
  | trailingInput token =>
      rw [Fault.moved, conclude, conclude, Token.moved_kind]
      by_cases he : token.kind = .endOfText
      · rw [if_pos he, if_pos he]
        rfl
      · rw [if_neg he, if_neg he]
        rfl
  | _ => rfl

/-- The answer to tokens at other places is at another place. -/
theorem answer_moved (limit : Option Nat) (move : Int → Int) (stack : Stack) (ts : List Token)
    (stop : Option Fault) :
    (stack.moved move).answer limit (ts.map (.moved move)) (stop.map (.moved move)) =
      (stack.answer limit ts stop).mapError (.moved move) := by
  induction ts generalizing stack with
  | nil => cases stop <;> rfl
  | cons token ts ih =>
      have hx := exceeds_moved limit move stack token
      have hm := shift_moved move stack token
      rw [List.map_cons]
      cases he : stack.exceeds limit token with
      | true =>
          rw [answer_of_exceeds he, answer_of_exceeds (hx.trans he)]
          rfl
      | false =>
          cases hs : stack.shift token with
          | ok next =>
              rw [hs] at hm
              rw [answer_of_shift he hs, answer_of_shift (hx.trans he) hm]
              exact ih next
          | error fault =>
              rw [hs] at hm
              rw [answer_of_shift_error he hs, answer_of_shift_error (hx.trans he) hm,
                ← conclude_moved]
              cases ts <;> rfl

end Stack
end Calculator
