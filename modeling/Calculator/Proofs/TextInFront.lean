import Calculator.Proofs.CharacterLoop
import Calculator.Proofs.Coverage
import Calculator.Proofs.Relocation

/-!
# Text in front of a cursor

What stands in front of a cursor has no influence on what is read behind it.  All
that it does is to move the offsets.

A lexer shows this at once, since it holds no text but what it has in front of it
(`Lexer.readings_later`).  The loop over characters holds the whole text, has
offsets that count from its start, cuts slices by them, and steps back.  Each of
its operations is taken apart here.

* A character is the same, with or without the text in front (`Cursor.read_behind`).
* A step back goes to the same place, unless there is none to go back to.  At the
  start of a text the cursor stays, and with text in front of it it moves.  The loop
  never steps back before it has read (`Cursor.stepBack_behind`).
* A slice is the same (`Token.ofSpan_behind`).

So one turn is the same turn (`Loop.turn_behind`), one reading is the same reading
in the same number of turns (`Loop.Ends.behind`, `Loop.exists_of_ends_behind`), and
so are any number of readings one after another (`Loop.delivers_behind_iff`).
-/

namespace Calculator

/-! ## Cursors and slices -/

/-- A cursor with more text in front of it. -/
def Cursor.behind (front : Text) (cursor : Cursor) : Cursor :=
  ⟨front ++ cursor.text, cursor.position + front.length⟩

namespace Cursor

variable (front : Text) (cursor : Cursor)

theorem read_behind :
    (cursor.behind front).read = (cursor.read.1, cursor.read.2.behind front) := by
  have hc : (front ++ cursor.text)[cursor.position + front.length]? =
      cursor.text[cursor.position]? := by
    rw [List.getElem?_append_right (Nat.le_add_left _ _), Nat.add_sub_cancel]
  rw [read, behind, behind, hc]
  exact congrArg _ (congrArg _ (Nat.add_right_comm ..))

/-- Behind the start of a text there is a step back to make. -/
theorem stepBack_behind {cursor : Cursor} (h : 0 < cursor.position) :
    (cursor.behind front).stepBack = cursor.stepBack.behind front := by
  rw [stepBack, stepBack, behind, behind, Nat.sub_add_comm h]

end Cursor

/-- A slice of a text lies further behind where there is text in front of it. -/
theorem slice_behind (front text : Text) (start stop : Nat) :
    ((front ++ text).take (stop + front.length)).drop (start + front.length) =
      (text.take stop).drop start := by
  rw [Nat.add_comm stop, List.take_length_add_append, Nat.add_comm start,
    List.drop_length_add_append]

theorem Token.ofSpan_behind (kind : Kind) (front text : Text) (start stop : Nat) :
    ofSpan kind (front ++ text) (start + front.length) (stop + front.length) =
      (ofSpan kind text start stop).moved (· + front.length) := by
  have hlength : ((stop + front.length : Nat) : Int) - (start + front.length : Nat) =
      (stop : Int) - start := by omega
  rw [ofSpan, slice_behind, hlength, moved]
  rfl

/-! ## Turns -/

/-- What a reading finds at a later offset. -/
def foundLater (d : Nat) (outcome : Except Fault Token) : Except Fault Token :=
  movedResult (.moved (· + d)) (· + d) outcome

namespace Loop

/-- A loop that is in the same thing at a later offset. -/
def later (d : Nat) : Loop → Loop
  | blank => blank
  | literal start quote => literal (start + d) quote
  | punctuator start first => punctuator (start + d) first
  | numeral start => numeral (start + d)

/-- What a turn comes to with text in front. -/
def Effect.behind (front : Text) : Effect → Effect
  | again loop cursor => again (loop.later front.length) (cursor.behind front)
  | ends outcome cursor => ends (foundLater front.length outcome) (cursor.behind front)

/-- A step back undoes a reading, also with text in front. -/
theorem stepBack_read_behind {cursor next : Cursor} {c : Option Char}
    (h : cursor.read = (c, next)) (front : Text) :
    next.stepBack = cursor ∧ (next.behind front).stepBack = cursor.behind front := by
  have hnext : next.position = cursor.position + 1 := congrArg (·.2.position) h.symm
  have hback : next.stepBack = cursor := by
    rw [← cursor.stepBack_read, h]
  refine ⟨hback, ?_⟩
  rw [Cursor.stepBack_behind front (by omega), hback]

theorem turnBlank_behind (front : Text) (cursor : Cursor) :
    turnBlank (cursor.behind front) = (turnBlank cursor).behind front := by
  rcases hread : cursor.read with ⟨c, next⟩
  obtain ⟨hback, hbehind⟩ := stepBack_read_behind hread front
  rw [turnBlank, turnBlank, Cursor.read_behind, hread]
  cases c with
  | none =>
      show Effect.ends _ (next.behind front).stepBack = Effect.ends _ (next.stepBack.behind front)
      rw [hback, hbehind]
      rfl
  | some c =>
      simp only [apply_ite (Effect.behind front)]
      rfl

theorem turnLiteral_behind (front : Text) (start : Nat) (quote : Char) (cursor : Cursor) :
    turnLiteral (start + front.length) quote (cursor.behind front) =
      (turnLiteral start quote cursor).behind front := by
  rcases hread : cursor.read with ⟨c, next⟩
  obtain ⟨hback, hbehind⟩ := stepBack_read_behind hread front
  rw [turnLiteral, turnLiteral, Cursor.read_behind, hread]
  cases c with
  | none =>
      show Effect.ends _ (next.behind front).stepBack = Effect.ends _ (next.stepBack.behind front)
      rw [hback, hbehind]
      rfl
  | some c =>
      have hstop : (next.behind front).position - 1 = next.position - 1 + front.length := by
        have hposition := congrArg Cursor.position hback
        exact (congrArg Cursor.position hbehind).trans (congrArg (· + front.length) hposition.symm)
      have hslice :
          (((cursor.behind front).text).take ((next.behind front).position - 1)).drop
            (start + front.length + 1) =
          (cursor.text.take (next.position - 1)).drop (start + 1) := by
        rw [hstop, Nat.add_right_comm]
        exact slice_behind front cursor.text (start + 1) (next.position - 1)
      have hlength : ((next.behind front).position : Int) - (start + front.length : Nat) =
          (next.position : Int) - start := by
        show ((next.position + front.length : Nat) : Int) - _ = _
        omega
      simp only [apply_ite (Effect.behind front), hslice, hlength]
      rfl

/-- A slice that ends a turn. -/
theorem ends_ofSpan_behind (front : Text) (kind : Kind) (text : Text) (start : Nat)
    (last : Cursor) :
    Effect.ends (.ok (.ofSpan kind (front ++ text) (start + front.length)
        (last.behind front).position)) (last.behind front) =
      (Effect.ends (.ok (.ofSpan kind text start last.position)) last).behind front := by
  rw [Effect.behind, Cursor.behind, Token.ofSpan_behind]
  rfl

theorem turnPunctuator_behind (front : Text) (start : Nat) (first : Char) (cursor : Cursor) :
    turnPunctuator (start + front.length) first (cursor.behind front) =
      (turnPunctuator start first cursor).behind front := by
  rcases hread : cursor.read with ⟨c, next⟩
  obtain ⟨hback, hbehind⟩ := stepBack_read_behind hread front
  have hlast : (if Lexeme.isPaired first ∧ c = some first then next.behind front
        else (next.behind front).stepBack) =
      (if Lexeme.isPaired first ∧ c = some first then next else next.stepBack).behind front := by
    rw [hback, hbehind, apply_ite (Cursor.behind front)]
  rw [turnPunctuator, turnPunctuator, Cursor.read_behind, hread]
  simp only [hlast]
  exact ends_ofSpan_behind front .punctuator cursor.text start _

theorem turnNumeral_behind (front : Text) (start : Nat) (cursor : Cursor) :
    turnNumeral (start + front.length) (cursor.behind front) =
      (turnNumeral start cursor).behind front := by
  rcases hread : cursor.read with ⟨c, next⟩
  obtain ⟨hback, hbehind⟩ := stepBack_read_behind hread front
  rw [turnNumeral, turnNumeral, Cursor.read_behind, hread]
  simp only [apply_ite (Effect.behind front), hback, hbehind]
  rw [← ends_ofSpan_behind]
  rfl

/-- Text in front of the cursor moves what a turn comes to, and changes nothing else. -/
theorem turn_behind (front : Text) (loop : Loop) (cursor : Cursor) :
    (loop.later front.length).turn (cursor.behind front) = (loop.turn cursor).behind front := by
  cases loop with
  | blank => exact turnBlank_behind front cursor
  | literal start quote => exact turnLiteral_behind front start quote cursor
  | punctuator start first => exact turnPunctuator_behind front start first cursor
  | numeral start => exact turnNumeral_behind front start cursor

/-! ## Readings -/

theorem Ends.behind {loop : Loop} {cursor last : Cursor} {n : Nat} {outcome : Except Fault Token}
    (h : Ends loop cursor n outcome last) (front : Text) :
    Ends (loop.later front.length) (cursor.behind front) n (foundLater front.length outcome)
      (last.behind front) := by
  induction h with
  | last ht => exact .last ((turn_behind front _ _).trans (congrArg (Effect.behind front) ht))
  | again ht _ ih =>
      exact .again ((turn_behind front _ _).trans (congrArg (Effect.behind front) ht)) ih

/-- What a loop with text in front comes to, it comes to without that text. -/
theorem exists_of_ends_behind (front : Text) (loop : Loop) (cursor : Cursor) {n : Nat}
    {outcome : Except Fault Token} {last : Cursor}
    (h : Ends (loop.later front.length) (cursor.behind front) n outcome last) :
    ∃ outcome' last', Ends loop cursor n outcome' last' ∧
      outcome = foundLater front.length outcome' ∧ last = last'.behind front := by
  generalize hl : loop.later front.length = loop', hc : cursor.behind front = cursor' at h
  induction h generalizing loop cursor with
  | last ht =>
      subst hl hc
      rw [turn_behind] at ht
      cases he : loop.turn cursor with
      | again loop next =>
          rw [he] at ht
          cases ht
      | ends outcome' last' =>
          rw [he] at ht
          cases ht
          exact ⟨outcome', last', .last he, rfl, rfl⟩
  | again ht _ ih =>
      subst hl hc
      rw [turn_behind] at ht
      cases he : loop.turn cursor with
      | again loop next =>
          rw [he] at ht
          cases ht
          obtain ⟨outcome', last', hends, ho, hl⟩ := ih loop next rfl rfl
          exact ⟨outcome', last', .again he hends, ho, hl⟩
      | ends outcome' last' =>
          rw [he] at ht
          cases ht

/-- `Delivers cursor outcomes last`: readings one after another, each of them a loop. -/
inductive Delivers : Cursor → List (Except Fault Token) → Cursor → Prop where
  | nil {cursor : Cursor} : Delivers cursor [] cursor
  | cons {cursor next last : Cursor} {n : Nat} {outcome : Except Fault Token}
      {outcomes : List (Except Fault Token)} :
      Ends .blank cursor n outcome next →
      Delivers next outcomes last →
      Delivers cursor (outcome :: outcomes) last

/-- Readings are the same with text in front, and stand where that text moves them. -/
theorem delivers_behind_iff (front : Text) (cursor : Cursor)
    (outcomes : List (Except Fault Token)) (last : Cursor) :
    Delivers (cursor.behind front) outcomes last ↔
      ∃ outcomes' last', Delivers cursor outcomes' last' ∧
        outcomes = outcomes'.map (foundLater front.length) ∧ last = last'.behind front := by
  constructor
  · intro h
    generalize hc : cursor.behind front = cursor' at h
    induction h generalizing cursor with
    | nil => exact ⟨[], cursor, .nil, rfl, hc.symm⟩
    | cons he _ ih =>
        subst hc
        obtain ⟨outcome', next', he', rfl, rfl⟩ := exists_of_ends_behind front .blank cursor he
        obtain ⟨outcomes', last', hd', rfl, rfl⟩ := ih next' rfl
        exact ⟨outcome' :: outcomes', last', .cons he' hd', rfl, rfl⟩
  · rintro ⟨outcomes', last', h, rfl, rfl⟩
    induction h with
    | nil => exact .nil
    | cons he _ ih => exact .cons (he.behind front) ih

end Loop

/-! ## Lexers -/

namespace Lexer

theorem readings_later (d : Nat) (lexer : Lexer) (n : Nat) :
    (lexer.later d).readings n = (lexer.readings n).map (foundLater d) ∧
      (lexer.later d).behind n = (lexer.behind n).later d := by
  induction n generalizing lexer with
  | zero => exact ⟨rfl, rfl⟩
  | succ n ih =>
      obtain ⟨hr, hb⟩ := ih lexer.next.2
      rw [readings, behind, next_later, hr, hb]
      exact ⟨rfl, rfl⟩

/-- Whether the end has been found makes no difference to what is read. -/
theorem readings_finished (position : Nat) (rest : Text) (finished finished' : Bool) (n : Nat) :
    readings n ⟨position, rest, finished⟩ = readings n ⟨position, rest, finished'⟩ ∧
      (behind n ⟨position, rest, finished⟩).position =
        (behind n ⟨position, rest, finished'⟩).position := by
  induction n generalizing position rest finished finished' with
  | zero => exact ⟨rfl, rfl⟩
  | succ n ih =>
      obtain ⟨hr, hb⟩ := ih (lexeme position rest).position (lexeme position rest).rest
        (finished || (lexeme position rest).atEnd) (finished' || (lexeme position rest).atEnd)
      exact ⟨congrArg ((lexeme position rest).outcome :: ·) hr, hb⟩

/-- The readings of a lexer are loops over the characters of its text. -/
theorem Stands.delivers {text : Text} {lexer : Lexer} (h : lexer.Stands text) (n : Nat) :
    Loop.Delivers ⟨text, lexer.position⟩ (lexer.readings n) ⟨text, (lexer.behind n).position⟩ := by
  induction n generalizing lexer with
  | zero => exact .nil
  | succ n ih =>
      obtain ⟨_, -, he⟩ :=
        Loop.exists_ends_of_reads (lexeme_reads lexer.position lexer.rest) h.drop_eq
      exact .cons he (ih h.next.2)

end Lexer

/-- A lexer at an offset reads what a new lexer of the text from there on reads, with the offset
added.  The same holds of the loops over the characters of both texts. -/
theorem reading_memoryless (text : Text) (offset : Nat) (h : offset ≤ text.length)
    (finished : Bool) :
    (∀ n, Lexer.readings n ⟨offset, text.drop offset, finished⟩ =
          ((Lexer.ofText (text.drop offset)).readings n).map (foundLater offset) ∧
        (Lexer.behind n ⟨offset, text.drop offset, finished⟩).position =
          ((Lexer.ofText (text.drop offset)).behind n).position + offset) ∧
    (∀ n, Loop.Delivers ⟨text, offset⟩ (Lexer.readings n ⟨offset, text.drop offset, finished⟩)
      ⟨text, (Lexer.behind n ⟨offset, text.drop offset, finished⟩).position⟩) ∧
    ∀ outcomes last, Loop.Delivers ⟨text, offset⟩ outcomes last ↔
      ∃ outcomes' last', Loop.Delivers ⟨text.drop offset, 0⟩ outcomes' last' ∧
        outcomes = outcomes'.map (foundLater offset) ∧ last = last'.behind (text.take offset) := by
  have hfront : (text.take offset).length = offset := List.length_take_of_le h
  have hcursor : Cursor.behind (text.take offset) ⟨text.drop offset, 0⟩ = ⟨text, offset⟩ := by
    rw [Cursor.behind, List.take_append_drop, hfront, Nat.zero_add]
  have hlexer : (Lexer.ofText (text.drop offset)).later offset =
      ⟨offset, text.drop offset, false⟩ := by
    rw [Lexer.later, Lexer.ofText, Nat.zero_add]
  have hstands : Lexer.Stands text ⟨offset, text.drop offset, false⟩ :=
    ⟨rfl, h, fun hf => absurd hf Bool.false_ne_true⟩
  refine ⟨fun n => ?_, fun n => ?_, fun outcomes last => ?_⟩
  · obtain ⟨hr, hb⟩ := Lexer.readings_finished offset (text.drop offset) finished false n
    obtain ⟨hlater, hbehind⟩ := Lexer.readings_later offset (.ofText (text.drop offset)) n
    rw [hr, hb, ← hlexer, hlater, hbehind]
    exact ⟨rfl, rfl⟩
  · obtain ⟨hr, hb⟩ := Lexer.readings_finished offset (text.drop offset) finished false n
    rw [hr, hb]
    exact hstands.delivers n
  · have hiff := Loop.delivers_behind_iff (text.take offset) ⟨text.drop offset, 0⟩ outcomes last
    rwa [hcursor, hfront] at hiff

/-- Behind a quote that begins no literal there is a sum, and the quote is not seen from there. -/
theorem reading_memoryless_unclosed :
    1 ≤ "'1+2".toList.length ∧
    (Lexer.ofText "'1+2".toList).readings 1 = [.error (.unterminatedLiteral 0)] ∧
    Lexer.readings 4 ⟨1, "1+2".toList, true⟩ =
      [.ok (.lexeme .numeric ['1'] 1), .ok (.lexeme .punctuator ['+'] 2),
        .ok (.lexeme .numeric ['2'] 3), .ok (.endOfText 4)] := by
  have h : 1 ≤ "'1+2".toList.length := by decide
  refine ⟨h, rfl, ?_⟩
  exact ((reading_memoryless "'1+2".toList 1 h true).1 4).1.trans rfl

end Calculator
