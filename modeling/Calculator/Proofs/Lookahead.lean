import Calculator.Proofs.Delivery

/-!
# How far a calculation looks

A lexer looks at no more than one character behind what it takes: a numeral and
a punctuator have to know whether they go on.  So a reading that ends in front
of a certain offset is the same in every text with the same characters up to
there (`Reads.near`).  A reader has read one token more than it has accepted, and
knows nothing of what comes behind it.

Two calculations are put side by side, on texts that agree up to some offset.
As long as the first one stays in front of this offset, so does the second one,
and both take the same steps (`State.step_alike`, `State.run_alike`).  A lexer
never goes back, so it is enough to know where the first one ends.

A calculation that fails ends where its lexer stands at that moment.  With the
one character that stands there the fault is certain, whatever follows.
-/

namespace Calculator

/-! ## One reading -/

theorem Reads.position_le {position : Nat} {text : Text} {reading : Reading}
    (h : Reads position text reading) : position ≤ reading.position := by
  induction h with
  | space _ ih => exact Nat.le_of_succ_le ih
  | endOfText => exact Nat.le_refl _
  | token _ => exact Nat.le_add_right _ _
  | stray _ => exact Nat.le_succ _
  | unclosed _ _ => exact Nat.le_trans (Nat.le_succ _) (Nat.le_add_right _ _)

/-- A reading that leaves something of the front of a text does not depend on what is behind this
front. -/
theorem Reads.near {position : Nat} {near tail : Text} {reading : Reading}
    (h : Reads position (near ++ tail) reading)
    (hp : reading.position < position + near.length) (tail' : Text) :
    ∃ near', reading.rest = near' ++ tail ∧
      reading.position + near'.length = position + near.length ∧
      Reads position (near ++ tail') ⟨reading.outcome, reading.position, near' ++ tail'⟩ := by
  generalize ht : near ++ tail = text at h
  -- at the end of the text, and behind a quote that is not matched, nothing is left of the front
  induction h generalizing near with
  | @space position rest reading hr ih =>
      cases near with
      | nil => exact absurd hp (Nat.not_lt.2 (Nat.le_of_succ_le hr.position_le))
      | cons c near =>
          obtain ⟨rfl, rfl⟩ := List.cons.inj ht
          rw [List.length_cons, Nat.add_comm near.length, ← Nat.add_assoc] at hp ⊢
          obtain ⟨near', hrest, hlength, hreads⟩ := ih hp rfl
          exact ⟨near', hrest, hlength, .space hreads⟩
  | endOfText =>
      rw [(List.append_eq_nil_iff.1 ht).1] at hp
      exact absurd hp (Nat.lt_irrefl _)
  | @token position kind body span rest hsp =>
      have hlt : span.length < near.length := Nat.lt_of_add_lt_add_left hp
      obtain ⟨near', rfl, rfl⟩ : ∃ near', near = span ++ near' ∧ rest = near' ++ tail := by
        rcases List.append_eq_append_iff.1 ht with ⟨front, rfl, -⟩ | ⟨near', rfl, rfl⟩
        · rw [List.length_append] at hlt
          omega
        · exact ⟨near', rfl, rfl⟩
      rw [List.length_append] at hlt ⊢
      obtain ⟨c, near', rfl⟩ : ∃ c rest, near' = c :: rest :=
        List.exists_cons_of_length_pos (by omega)
      refine ⟨c :: near', rfl, Nat.add_assoc .., ?_⟩
      rw [List.append_assoc]
      exact .token (hsp.of_head? fun _ => Or.inl)
  | stray hc =>
      cases near with
      | nil => exact absurd hp (Nat.not_lt.2 (Nat.le_succ _))
      | cons c near =>
          obtain ⟨rfl, rfl⟩ := List.cons.inj ht
          exact ⟨near, rfl, Nat.succ_add_eq_add_succ .., .stray hc⟩
  | unclosed hq hn =>
      have hlength := congrArg List.length ht
      simp only [List.length_append, List.length_cons] at hlength hp
      omega

/-! ## Two lexers -/

namespace Lexer

/-- Two lexers are at the same place of texts that agree up to an offset. -/
structure Alike (bound : Nat) (lexer lexer' : Lexer) : Prop where
  position_eq : lexer'.position = lexer.position
  agree : ∃ near tail tail', lexer.rest = near ++ tail ∧ lexer'.rest = near ++ tail' ∧
    lexer.position + near.length = bound

theorem position_le_next (lexer : Lexer) : lexer.position ≤ lexer.next.2.position :=
  (lexeme_reads lexer.position lexer.rest).position_le

/-- A token in front of the offset is read by both, and so is a fault. -/
theorem Alike.next {bound : Nat} {lexer lexer' : Lexer} (h : lexer.Alike bound lexer')
    (hp : lexer.next.2.position < bound) :
    lexer'.next.1 = lexer.next.1 ∧ lexer.next.2.Alike bound lexer'.next.2 := by
  obtain ⟨hposition, near, tail, tail', hrest, hrest', hbound⟩ := h
  have hr := lexeme_reads lexer.position lexer.rest
  rw [hrest] at hr
  have hp : (lexeme lexer.position (near ++ tail)).position < lexer.position + near.length := by
    rwa [← hrest, hbound]
  obtain ⟨near', hnear, hlength, hr'⟩ := hr.near hp tail'
  rw [Lexer.next, Lexer.next, hposition, hrest', hr'.eq_lexeme, hrest]
  exact ⟨rfl, rfl, near', tail, tail', hnear, rfl, hlength.trans hbound⟩

end Lexer

/-! ## Two readers -/

namespace Reader

theorem advance_lexer (reader : Reader) : reader.advance.2.lexer = reader.lexer.next.2 := by
  rw [advance]
  split <;> simp_all

theorem position_le_meet (reader : Reader) (demand : Demand) :
    reader.lexer.position ≤ (reader.meet demand).2.lexer.position := by
  rw [meet, accept]
  split
  · rw [advance_lexer]
    exact reader.lexer.position_le_next
  · exact Nat.le_refl _

/-- A lexer never goes back. -/
theorem position_le_behind (reader : Reader) (demands : List Demand) :
    reader.lexer.position ≤ (reader.behind demands).lexer.position := by
  induction demands generalizing reader with
  | nil => exact Nat.le_refl _
  | cons demand demands ih => exact Nat.le_trans (reader.position_le_meet demand) (ih _)

theorem position_le_perform (reader : Reader) (request : Request) :
    reader.lexer.position ≤ (reader.perform request).lexer.position := by
  rw [perform_eq]
  exact reader.position_le_behind _

/-- Two readers have the same current token, and their lexers are alike. -/
structure Alike (bound : Nat) (reader reader' : Reader) : Prop where
  token_eq : reader'.token = reader.token
  lexer_alike : reader.lexer.Alike bound reader'.lexer

/-- Two readers answer alike, and are alike behind it. -/
def AnswerAlike {α : Type} (bound : Nat) (answer answer' : Except Fault α × Reader) : Prop :=
  answer'.1 = answer.1 ∧ answer.2.Alike bound answer'.2

variable {bound : Nat} {reader reader' : Reader}

theorem Alike.advance (h : reader.Alike bound reader')
    (hp : reader.advance.2.lexer.position < bound) :
    AnswerAlike bound reader.advance reader'.advance := by
  rw [advance_lexer] at hp
  obtain ⟨houtcome, hlexer⟩ := h.lexer_alike.next hp
  rcases hn : reader.lexer.next with ⟨outcome, lexer⟩
  rcases hn' : reader'.lexer.next with ⟨outcome', lexer'⟩
  rw [hn, hn'] at houtcome hlexer
  subst houtcome
  rw [Reader.advance, Reader.advance, hn, hn', h.token_eq]
  cases outcome' with
  | ok token => exact ⟨rfl, rfl, hlexer⟩
  | error fault => exact ⟨rfl, rfl, hlexer⟩

theorem Alike.accept (h : reader.Alike bound reader') {kind : Kind} {text : Option Text}
    (hp : (reader.accept kind text).2.lexer.position < bound) :
    AnswerAlike bound (reader.accept kind text) (reader'.accept kind text) := by
  rw [Reader.accept] at hp
  rw [Reader.accept, Reader.accept, h.token_eq]
  split
  · rename_i hf
    rw [if_pos hf] at hp
    exact h.advance hp
  · exact ⟨rfl, h⟩

end Reader

/-! ## Two calculations -/

namespace Turn

/-- Two steps have the same effect, but for their readers, which are alike. -/
inductive Alike (bound : Nat) : Turn → Turn → Prop where
  | next {state : State} {reader' : Reader} :
      state.reader.Alike bound reader' →
      Alike bound (.next state) (.next { state with reader := reader' })
  | done {answer : Except Fault Int} {reader reader' : Reader} :
      reader.Alike bound reader' →
      Alike bound (.done answer reader) (.done answer reader')

variable {bound : Nat}

theorem Alike.operand {reader reader' : Reader} (h : reader.Alike bound reader') (level : Level)
    (outer : List Level) (value : Int) :
    Alike bound (Turn.operand level outer value reader)
      (Turn.operand level outer value reader') := by
  rw [Turn.operand, Turn.operand]
  split
  · exact @Alike.next bound ⟨.operator, _, outer, reader⟩ reader' h
  · exact .done h

/-- What goes on with a token goes on alike with it. -/
theorem Alike.andThen {accepted accepted' : Except Fault Token × Reader}
    {proceed : Token → Reader → Turn} (h : Reader.AnswerAlike bound accepted accepted')
    (hp : ∀ token reader reader', reader.Alike bound reader' →
      Alike bound (proceed token reader) (proceed token reader')) :
    Alike bound (Turn.andThen accepted proceed) (Turn.andThen accepted' proceed) := by
  obtain ⟨outcome, reader⟩ := accepted
  obtain ⟨outcome', reader'⟩ := accepted'
  obtain ⟨rfl, hr⟩ : outcome' = outcome ∧ reader.Alike bound reader' := h
  cases outcome' with
  | ok token => exact hp token reader reader' hr
  | error fault => exact .done hr

end Turn

namespace State

variable {bound : Nat} {limit : Option Nat} {reader' : Reader}

theorem openLevel_alike {state : State} (h : state.reader.Alike bound reader')
    (hp : (state.openLevel limit).reader.lexer.position < bound) :
    Turn.Alike bound (state.openLevel limit) ({ state with reader := reader' }.openLevel limit) := by
  simp only [openLevel, h.token_eq] at hp ⊢
  split
  · exact .done h
  · rename_i hl
    rw [if_neg hl, Turn.andThen_reader fun _ _ => rfl] at hp
    exact .andThen (h.advance hp) fun _ _ _ hr => .next hr

theorem numeral_alike {state : State} (h : state.reader.Alike bound reader')
    (hp : state.numeral.reader.lexer.position < bound) :
    Turn.Alike bound state.numeral { state with reader := reader' }.numeral := by
  rw [numeral, Turn.andThen_reader fun _ _ => Turn.operand_reader ..] at hp
  exact .andThen (h.accept hp) fun _ _ _ hr => .operand hr ..

theorem operator_alike {state : State} (h : state.reader.Alike bound reader')
    (operator : Operator) (hp : (state.operator operator).reader.lexer.position < bound) :
    Turn.Alike bound (state.operator operator)
      ({ state with reader := reader' }.operator operator) := by
  rw [State.operator, Turn.andThen_reader fun _ _ => rfl] at hp
  exact .andThen (h.advance hp) fun _ _ _ hr => .next hr

theorem closeLevel_alike {state : State} (h : state.reader.Alike bound reader')
    (hp : state.closeLevel.reader.lexer.position < bound) :
    Turn.Alike bound state.closeLevel { state with reader := reader' }.closeLevel := by
  obtain ⟨phase, level, outer, reader⟩ := state
  cases outer with
  | nil => exact .done h
  | cons next outer =>
      rw [closeLevel, Turn.andThen_reader fun _ _ => Turn.operand_reader ..] at hp
      exact .andThen (h.accept hp) fun _ _ _ hr => .operand hr ..

/-- A step that stays in front of the offset is taken alike. -/
theorem step_alike {state : State} (h : state.reader.Alike bound reader')
    (hp : (state.step limit).reader.lexer.position < bound) :
    Turn.Alike bound (state.step limit) ({ state with reader := reader' }.step limit) := by
  obtain ⟨phase, level, outer, reader⟩ := state
  cases phase with
  | operand =>
      simp only [step, h.token_eq] at hp ⊢
      split
      · rename_i hopen
        rw [if_pos hopen] at hp
        exact openLevel_alike h hp
      · rename_i hopen
        rw [if_neg hopen] at hp
        exact numeral_alike h hp
  | operator =>
      have hoperator : operator? ⟨.operator, level, outer, reader'⟩ =
          operator? ⟨.operator, level, outer, reader⟩ := by
        rw [operator?, operator?, h.token_eq]
      simp only [step, hoperator] at hp ⊢
      cases ho : operator? ⟨.operator, level, outer, reader⟩ with
      | some operator =>
          simp only [ho] at hp
          exact operator_alike h operator hp
      | none =>
          simp only [ho] at hp
          exact closeLevel_alike h hp

/-- So is a run.  No step is behind the place where the run ends. -/
theorem run_alike {state : State} (h : state.reader.Alike bound reader')
    (hp : (state.run limit).2.lexer.position < bound) :
    Reader.AnswerAlike bound (state.run limit) ({ state with reader := reader' }.run limit) := by
  fun_induction run limit state generalizing reader' with
  | case1 state next hs ih =>
      have hle : next.reader.lexer.position ≤ (next.run limit).2.lexer.position := by
        rw [run_reader]
        exact Reader.position_le_behind ..
      have hstep : (state.step limit).reader.lexer.position < bound := by
        rw [hs]
        exact Nat.lt_of_le_of_lt hle hp
      have ha := step_alike h hstep
      rw [hs] at ha
      generalize hs' : { state with reader := reader' }.step limit = turn at ha
      cases ha with
      | next hr =>
          rw [run_of_step_next hs']
          exact ih hr hp
  | case2 state answer reader hs =>
      have hstep : (state.step limit).reader.lexer.position < bound := by
        rw [hs]
        exact hp
      have ha := step_alike h hstep
      rw [hs] at ha
      generalize hs' : { state with reader := reader' }.step limit = turn at ha
      cases ha with
      | done hr =>
          rw [run_of_step_done hs']
          exact ⟨rfl, hr⟩

end State

namespace Reader

theorem wholeWithin_reader (limit : Option Nat) (reader : Reader) :
    (reader.wholeWithin limit).2 = (reader.phraseWithin limit .expression).2 :=
  (reader.perform_eq (.whole limit)).trans (reader.perform_eq (.phrase limit .expression)).symm

theorem Alike.wholeWithin {bound : Nat} {limit : Option Nat} {reader reader' : Reader}
    (h : reader.Alike bound reader') (hp : (reader.wholeWithin limit).2.lexer.position < bound) :
    AnswerAlike bound (reader.wholeWithin limit) (reader'.wholeWithin limit) := by
  rw [wholeWithin_reader] at hp
  have ha : AnswerAlike bound (reader.phraseWithin limit .expression)
      (reader'.phraseWithin limit .expression) :=
    @State.run_alike bound limit reader' (.start .expression reader) h hp
  rw [Reader.wholeWithin, Reader.wholeWithin]
  generalize reader.phraseWithin limit .expression = answer,
    reader'.phraseWithin limit .expression = answer' at ha
  obtain ⟨outcome, last⟩ := answer
  obtain ⟨outcome', last'⟩ := answer'
  obtain ⟨rfl, hlast⟩ : outcome' = outcome ∧ last.Alike bound last' := ha
  cases outcome' with
  | error fault => exact ⟨rfl, hlast⟩
  | ok value =>
      simp only [hlast.token_eq]
      split
      · exact ⟨rfl, hlast⟩
      · exact ⟨rfl, hlast⟩

end Reader

/-! ## Certain faults -/

/-- The offset at which the lexer of a calculation stands when the calculation ends. -/
def reachedWithin (limit : Option Nat) (expression : Text) : Nat :=
  match Reader.ofText expression with
  | .ok reader => (reader.wholeWithin limit).2.lexer.position
  | .error _ => (Lexer.ofText expression).next.2.position

theorem Lexer.alike_ofText {text : Text} {l : Nat} (h : l < text.length) (rest : Text) :
    (ofText text).Alike (l + 1) (ofText (text.take (l + 1) ++ rest)) := by
  have hlength : (ofText text).position + (text.take (l + 1)).length = l + 1 := by
    rw [List.length_take_of_le h]
    exact Nat.zero_add _
  exact ⟨rfl, _, text.drop (l + 1), rest, (List.take_append_drop ..).symm, rfl, hlength⟩

/-- A fault is certain with the character at which the lexer stands.  Whatever stands behind it,
the fault is the same. -/
theorem later_text_keeps_fault {limit : Option Nat} {text : Text} {fault : Fault}
    (h : evaluateWithin limit text = .error fault) (hp : reachedWithin limit text < text.length)
    (rest : Text) :
    evaluateWithin limit (text.take (reachedWithin limit text + 1) ++ rest) = .error fault := by
  have hlexer := Lexer.alike_ofText hp rest
  generalize hl : reachedWithin limit text = l at hlexer ⊢
  rw [reachedWithin] at hl
  rw [evaluateWithin] at h ⊢
  rw [Reader.ofText] at h hl ⊢
  rcases hn : (Lexer.ofText text).next with ⟨first, lexer⟩
  rcases hn' : (Lexer.ofText (text.take (l + 1) ++ rest)).next with ⟨first', lexer'⟩
  have hfirst := hlexer.next
  rw [hn, hn'] at hfirst
  rw [hn] at h hl
  cases first with
  | error fault' =>
      obtain ⟨rfl, -⟩ := hfirst (Nat.lt_succ_of_le (Nat.le_of_eq hl))
      exact h
  | ok token =>
      have hend : (Reader.wholeWithin limit ⟨token, lexer⟩).2.lexer.position < l + 1 :=
        Nat.lt_succ_of_le (Nat.le_of_eq hl)
      have hle : lexer.position ≤ (Reader.wholeWithin limit ⟨token, lexer⟩).2.lexer.position :=
        Reader.position_le_perform ⟨token, lexer⟩ (.whole limit)
      obtain ⟨rfl, hnext⟩ := hfirst (Nat.lt_of_le_of_lt hle hend)
      have hreader : Reader.Alike (l + 1) ⟨token, lexer⟩ ⟨token, lexer'⟩ := ⟨rfl, hnext⟩
      exact (hreader.wholeWithin hend).1.trans h

/-- A numeral behind a division by zero is read to its end. -/
theorem later_text_keeps_fault_quotient :
    evaluate "1/0 2?".toList = .error (.divisionByZero (.lexeme .punctuator ['/'] 1)) ∧
    reachedWithin (some openLimit) "1/0 2?".toList < "1/0 2?".toList.length ∧
    ∀ rest, evaluate ("1/0 2?".toList ++ rest) =
      .error (.divisionByZero (.lexeme .punctuator ['/'] 1)) := by
  have h : evaluate "1/0 2?".toList = .error (.divisionByZero (.lexeme .punctuator ['/'] 1)) := by
    with_unfolding_all rfl
  have hp : reachedWithin (some openLimit) "1/0 2?".toList = 5 := by
    with_unfolding_all rfl
  have hlt : reachedWithin (some openLimit) "1/0 2?".toList < "1/0 2?".toList.length := by
    rw [hp]
    decide
  refine ⟨h, hlt, ?_⟩
  intro rest
  have hkept := later_text_keeps_fault h hlt rest
  rwa [hp] at hkept

end Calculator
