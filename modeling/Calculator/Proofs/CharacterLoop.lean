import Calculator.Proofs.Reading
import Calculator.Proofs.Tiling
import Calculator.Text.Cursor

/-!
# Reading character by character

A token is read by a loop that takes one character at each turn and keeps
nothing but what sort of token it is in, and where this began.  A numeral and a
punctuator end one character early, so the loop has to step back behind them.
Behind the end of the text there is nothing to read, and the loop steps back
from there, too.

This loop gives what reading at the front of a text does (`Loop.exists_ends_of_reads`).
It has no other bound than the text, but each turn except the last moves the
cursor forward for good, so the loop ends.
-/

namespace Calculator

/-- What the loop is in. -/
inductive Loop where
  /-- Nothing yet, but for spaces. -/
  | blank
  | literal (start : Nat) (quote : Char)
  | punctuator (start : Nat) (first : Char)
  | numeral (start : Nat)

namespace Loop

/-- What a turn comes to. -/
inductive Effect where
  | again (loop : Loop) (cursor : Cursor)
  | ends (outcome : Except Fault Token) (cursor : Cursor)

/-- The beginning of a token, or its absence. -/
def turnBlank (cursor : Cursor) : Effect :=
  match cursor.read with
  | (none, next) => .ends (.ok (.endOfText cursor.position)) next.stepBack
  | (some c, next) =>
      if c = ' ' then .again .blank next
      else if Lexeme.isQuote c then .again (.literal cursor.position c) next
      else if Lexeme.isPunctuator c then .again (.punctuator cursor.position c) next
      else if c.isDigit then .again (.numeral cursor.position) next
      else .ends (.error (.unrecognizedCharacter cursor.position [c])) next

/-- A character of a string literal, or its closing quote. -/
def turnLiteral (start : Nat) (quote : Char) (cursor : Cursor) : Effect :=
  match cursor.read with
  | (none, next) => .ends (.error (.unterminatedLiteral start)) next.stepBack
  | (some c, next) =>
      if c = quote then
        .ends (.ok ⟨.stringLiteral, (cursor.text.take (next.position - 1)).drop (start + 1), start,
          (next.position : Int) - start⟩) next
      else .again (.literal start quote) next

/-- The second half of a punctuator, or what stands behind it. -/
def turnPunctuator (start : Nat) (first : Char) (cursor : Cursor) : Effect :=
  match cursor.read with
  | (c, next) =>
      let last := if Lexeme.isPaired first ∧ c = some first then next else next.stepBack
      .ends (.ok (.ofSpan .punctuator cursor.text start last.position)) last

/-- One more digit, or what stands behind a numeral. -/
def turnNumeral (start : Nat) (cursor : Cursor) : Effect :=
  match cursor.read with
  | (c, next) =>
      if c.any Char.isDigit then .again (.numeral start) next
      else .ends (.ok (.ofSpan .numeric cursor.text start next.stepBack.position)) next.stepBack

/-- One turn of the loop. -/
def turn : Loop → Cursor → Effect
  | blank => turnBlank
  | literal start quote => turnLiteral start quote
  | punctuator start first => turnPunctuator start first
  | numeral start => turnNumeral start

/-- `Ends loop cursor n outcome last`: from a cursor on, the loop ends at its turn `n`. -/
inductive Ends : Loop → Cursor → Nat → Except Fault Token → Cursor → Prop where
  | last {loop : Loop} {cursor last : Cursor} {outcome : Except Fault Token} :
      loop.turn cursor = .ends outcome last →
      Ends loop cursor 1 outcome last
  | again {loop loop' : Loop} {cursor next last : Cursor} {n : Nat}
      {outcome : Except Fault Token} :
      loop.turn cursor = .again loop' next →
      Ends loop' next n outcome last →
      Ends loop cursor (n + 1) outcome last

/-! ## One turn -/

theorem read_of_drop_cons {text rest : Text} {position : Nat} {c : Char}
    (h : text.drop position = c :: rest) :
    Cursor.read ⟨text, position⟩ = (some c, ⟨text, position + 1⟩) := by
  rw [Cursor.read, (drop_eq_cons_iff.1 h).1]

theorem read_of_drop_nil {text : Text} {position : Nat} (h : text.drop position = []) :
    Cursor.read ⟨text, position⟩ = (none, ⟨text, position + 1⟩) := by
  rw [Cursor.read, List.getElem?_eq_none (List.drop_eq_nil_iff.1 h)]

/-! ## Tokens -/

/-- A slice of what stands in a text. -/
theorem slice_of_drop_eq {text span rest : Text} {start : Nat}
    (h : text.drop start = span ++ rest) :
    (text.take (start + span.length)).drop start = span := by
  rw [List.drop_take, h, Nat.add_sub_cancel_left, List.take_left]

theorem ofSpan_of_drop_eq {text span rest : Text} {start : Nat} (kind : Kind)
    (h : text.drop start = span ++ rest) :
    Token.ofSpan kind text start (start + span.length) = ⟨kind, span, start, span.length⟩ := by
  have hl : ((start + span.length : Nat) : Int) - start = span.length := by omega
  rw [Token.ofSpan, slice_of_drop_eq h, hl]

theorem ends_numeral {text digits rest : Text} {position : Nat} (start : Nat)
    (h : text.drop position = digits ++ rest) (hd : ∀ c ∈ digits, c.isDigit = true)
    (hr : ∀ c ∈ rest.head?, c.isDigit = false) :
    Ends (.numeral start) ⟨text, position⟩ (digits.length + 1)
      (.ok (.ofSpan .numeric text start (position + digits.length)))
      ⟨text, position + digits.length⟩ := by
  induction digits generalizing position with
  | nil =>
      refine .last ?_
      cases rest with
      | nil => rw [turn, turnNumeral, read_of_drop_nil h]; rfl
      | cons c rest =>
          rw [turn, turnNumeral, read_of_drop_cons h]
          exact if_neg (Bool.eq_false_iff.1 (hr c rfl))
  | cons c digits ih =>
      obtain ⟨hc, hd⟩ := List.forall_mem_cons.1 hd
      have hnext := ih (drop_eq_cons_iff.1 h).2 hd
      rw [Nat.add_assoc, Nat.add_comm 1] at hnext
      refine .again ?_ hnext
      rw [turn, turnNumeral, read_of_drop_cons h]
      exact if_pos hc

theorem ends_literal {text body rest : Text} {position : Nat} {quote : Char} (start : Nat)
    (h : text.drop position = body ++ quote :: rest) (hq : quote ∉ body) :
    Ends (.literal start quote) ⟨text, position⟩ (body.length + 1)
      (.ok ⟨.stringLiteral, (text.take (position + body.length)).drop (start + 1), start,
        ((position + body.length + 1 : Nat) : Int) - start⟩)
      ⟨text, position + body.length + 1⟩ := by
  induction body generalizing position with
  | nil =>
      refine .last ?_
      rw [turn, turnLiteral, read_of_drop_cons h]
      exact if_pos rfl
  | cons c body ih =>
      obtain ⟨hc, hq⟩ := not_or.1 (mt List.mem_cons.2 hq)
      have hnext := ih (drop_eq_cons_iff.1 h).2 hq
      rw [Nat.add_assoc position, Nat.add_comm 1] at hnext
      refine .again ?_ hnext
      rw [turn, turnLiteral, read_of_drop_cons h]
      exact if_neg (Ne.symm hc)

theorem ends_unclosed {text rest : Text} {position : Nat} {quote : Char} (start : Nat)
    (h : text.drop position = rest) (hq : quote ∉ rest) :
    Ends (.literal start quote) ⟨text, position⟩ (rest.length + 1)
      (.error (.unterminatedLiteral start)) ⟨text, position + rest.length⟩ := by
  induction rest generalizing position with
  | nil =>
      refine .last ?_
      rw [turn, turnLiteral, read_of_drop_nil h]
      rfl
  | cons c rest ih =>
      obtain ⟨hc, hq⟩ := not_or.1 (mt List.mem_cons.2 hq)
      have hnext := ih (drop_eq_cons_iff.1 h).2 hq
      rw [Nat.add_assoc, Nat.add_comm 1] at hnext
      refine .again ?_ hnext
      rw [turn, turnLiteral, read_of_drop_cons h]
      exact if_neg (Ne.symm hc)

theorem ends_pair {text rest : Text} {position : Nat} {c : Char} (start : Nat)
    (h : text.drop position = c :: rest) (hc : c = '&' ∨ c = '|') :
    Ends (.punctuator start c) ⟨text, position⟩ 1
      (.ok (.ofSpan .punctuator text start (position + 1))) ⟨text, position + 1⟩ := by
  have hp : Lexeme.isPaired c = true ∧ some c = some c := ⟨Lexeme.isPaired_iff.2 hc, rfl⟩
  refine .last ?_
  rw [turn, turnPunctuator, read_of_drop_cons h]
  show Effect.ends _ (if _ then _ else _) = _
  rw [if_pos hp]

theorem ends_single {text rest : Text} {position : Nat} {c : Char} (start : Nat)
    (h : text.drop position = rest) (hc : c = '&' ∨ c = '|' → rest.head? ≠ some c) :
    Ends (.punctuator start c) ⟨text, position⟩ 1
      (.ok (.ofSpan .punctuator text start position)) ⟨text, position⟩ := by
  have hread : Cursor.read ⟨text, position⟩ = (rest.head?, ⟨text, position + 1⟩) := by
    cases rest with
    | nil => exact read_of_drop_nil h
    | cons next rest => exact read_of_drop_cons h
  have hn : ¬ (Lexeme.isPaired c = true ∧ rest.head? = some c) := fun hp =>
    hc (Lexeme.isPaired_iff.1 hp.1) hp.2
  refine .last ?_
  rw [turn, turnPunctuator, hread]
  simp only [if_neg hn]
  rfl

/-! ## Readings -/

theorem turn_blank_quote {text rest : Text} {position : Nat} {quote : Char}
    (h : text.drop position = quote :: rest) (hq : quote = '\'' ∨ quote = '"') :
    turn .blank ⟨text, position⟩ = .again (.literal position quote) ⟨text, position + 1⟩ := by
  rw [turn, turnBlank, read_of_drop_cons h]
  rcases hq with rfl | rfl
  · rfl
  · rfl

theorem turn_blank_punctuator {text rest : Text} {position : Nat} {c : Char}
    (h : text.drop position = c :: rest) (hc : c ∈ ['+', '-', '*', '/', '&', '|', '(', ')']) :
    turn .blank ⟨text, position⟩ = .again (.punctuator position c) ⟨text, position + 1⟩ := by
  rw [turn, turnBlank, read_of_drop_cons h]
  simp only [List.mem_cons, List.not_mem_nil, or_false] at hc
  rcases hc with rfl | rfl | rfl | rfl | rfl | rfl | rfl | rfl <;> rfl

theorem turn_blank_digit {text rest : Text} {position : Nat} {c : Char}
    (h : text.drop position = c :: rest) (hc : c.isDigit = true) :
    turn .blank ⟨text, position⟩ = .again (.numeral position) ⟨text, position + 1⟩ := by
  obtain ⟨hs, hq, hp⟩ := Lexeme.not_of_isDigit hc
  rw [turn, turnBlank, read_of_drop_cons h]
  simp only [if_neg hs, if_neg hq, if_neg hp, if_pos hc]

/-- Each span is read as what it spells, with one turn for each character and perhaps one more. -/
theorem exists_ends_of_spells {text body span rest : Text} {position : Nat} {kind : Kind}
    (h : Spells kind body span rest) (hr : text.drop position = span ++ rest) :
    ∃ n, n ≤ span.length + 1 ∧ Ends .blank ⟨text, position⟩ n
      (.ok ⟨kind, body, position, span.length⟩) ⟨text, position + span.length⟩ := by
  cases h with
  | numeral hne hd hrest =>
      obtain ⟨c, digits, rfl⟩ := List.exists_cons_of_ne_nil hne
      obtain ⟨hc, hdigits⟩ := List.forall_mem_cons.1 hd
      have he := ends_numeral position (drop_eq_cons_iff.1 hr).2 hdigits hrest
      rw [Nat.add_assoc, Nat.add_comm 1, ← List.length_cons, ofSpan_of_drop_eq .numeric hr] at he
      exact ⟨_, Nat.le_refl _, .again (turn_blank_digit hr hc) he⟩
  | @pair c rest hc =>
      have hm : c ∈ ['+', '-', '*', '/', '&', '|', '(', ')'] := by
        rcases hc with rfl | rfl <;> decide
      rw [← ofSpan_of_drop_eq .punctuator hr]
      exact ⟨2, Nat.le_succ _, .again (turn_blank_punctuator hr hm)
        (ends_pair position (drop_eq_cons_iff.1 hr).2 hc)⟩
  | single hc hrest =>
      rw [← ofSpan_of_drop_eq .punctuator hr]
      exact ⟨2, Nat.le_refl _, .again (turn_blank_punctuator hr hc)
        (ends_single position (drop_eq_cons_iff.1 hr).2 hrest)⟩
  | @literal quote body rest hq hm =>
      rw [List.cons_append, List.append_assoc, List.singleton_append] at hr
      have hbody := (drop_eq_cons_iff.1 hr).2
      have he := ends_literal position hbody hm
      have hn : (quote :: (body ++ [quote])).length = body.length + 2 := by
        rw [List.length_cons, List.length_append, List.length_singleton]
      have hp : position + (body.length + 2) = position + 1 + body.length + 1 := by omega
      have hl : ((position + 1 + body.length + 1 : Nat) : Int) - position =
          (body.length + 2 : Nat) := by omega
      rw [slice_of_drop_eq hbody, hl, ← hp, ← hn] at he
      refine ⟨_, ?_, .again (turn_blank_quote hr hq) he⟩
      rw [hn]
      exact Nat.le_succ _

/-- A reading at the front of a text is the loop's, and the loop makes no more turns than there are
characters between its ends, and one. -/
theorem exists_ends_of_reads {text rest : Text} {position : Nat} {reading : Reading}
    (h : Reads position rest reading) (hr : text.drop position = rest) :
    ∃ n, position + n ≤ reading.position + 1 ∧
      Ends .blank ⟨text, position⟩ n reading.outcome ⟨text, reading.position⟩ := by
  induction h with
  | space _ ih =>
      obtain ⟨n, hle, he⟩ := ih (drop_eq_cons_iff.1 hr).2
      refine ⟨n + 1, by omega, .again ?_ he⟩
      rw [turn, turnBlank, read_of_drop_cons hr]
      rfl
  | endOfText =>
      refine ⟨1, Nat.le_refl _, .last ?_⟩
      rw [turn, turnBlank, read_of_drop_nil hr]
      rfl
  | stray hc =>
      refine ⟨1, Nat.le_succ _, .last ?_⟩
      rw [turn, turnBlank, read_of_drop_cons hr]
      simp only [if_neg hc.ne_space, if_neg hc.not_isQuote, if_neg hc.not_isPunctuator,
        hc.not_digit]
      rfl
  | @unclosed position quote rest hq hn =>
      have he := ends_unclosed position (drop_eq_cons_iff.1 hr).2 hn
      refine ⟨_, ?_, .again (turn_blank_quote hr hq) he⟩
      show position + (rest.length + 1 + 1) ≤ position + 1 + rest.length + 1
      omega
  | token hsp =>
      obtain ⟨n, hle, he⟩ := exists_ends_of_spells hsp hr
      exact ⟨n, Nat.add_le_add_left hle _, he⟩

end Loop
end Calculator
