import Calculator.Token.Reader

/-!
# Scanning ahead

The tokens of a text up to the end or up to the first fault, and that fault.
Scanning ahead makes no difference to what is read, since a lexer depends on
nothing but its place.  So the tokens that a reader has in front of it are
there before it accepts them, and accepting one takes it off the front
(`Reader.ahead_of_advance`).

The token at the end of the text is the last of a scan without a fault, and it
is in no other place (`Lexer.scan_split`).
-/

namespace Calculator

/-! ## Faults of a lexer -/

/-- Whether a fault is one of the text, found by a lexer. -/
def Fault.isLexical : Fault → Bool
  | unrecognizedCharacter .. | unterminatedLiteral .. => true
  | _ => false

theorem lexeme_fault {position : Nat} {text : Text} {fault : Fault}
    (h : (lexeme position text).outcome = .error fault) : fault.isLexical = true := by
  fun_induction lexeme position text with
  | case1 => cases h
  | case2 _ _ ih => exact ih h
  | case3 =>
      unfold Lexeme.literal at h
      split at h
      · cases h
        rfl
      · cases h
  | case4 =>
      unfold Lexeme.punctuator at h
      split at h
      · cases h
      · cases h
  | case5 => cases h
  | case6 =>
      cases h
      rfl

/-! ## Scans -/

namespace Lexer

theorem next_rest_lt {lexer : Lexer} {token : Token} (h : lexer.next.1 = .ok token)
    (hk : token.kind ≠ .endOfText) : lexer.next.2.rest.length < lexer.rest.length := by
  have hend : (lexeme lexer.position lexer.rest).atEnd = false := by
    rw [Reading.atEnd, show (lexeme lexer.position lexer.rest).outcome = .ok token from h]
    exact beq_eq_false_iff_ne.2 hk
  exact lexeme_rest_lt hend

/-- The tokens up to the end of the text or the first fault, and the fault. -/
def scan (lexer : Lexer) : List Token × Option Fault :=
  match _h : lexer.next.1 with
  | .error fault => ([], some fault)
  | .ok token =>
      if _hk : token.kind = .endOfText then ([token], none)
      else (token :: (scan lexer.next.2).1, (scan lexer.next.2).2)
termination_by lexer.rest.length
decreasing_by all_goals exact next_rest_lt _h _hk

theorem scan_of_error {lexer : Lexer} {fault : Fault} (h : lexer.next.1 = .error fault) :
    lexer.scan = ([], some fault) := by
  rw [scan]
  split <;> simp_all

theorem scan_of_end {lexer : Lexer} {token : Token} (h : lexer.next.1 = .ok token)
    (hk : token.kind = .endOfText) : lexer.scan = ([token], none) := by
  rw [scan]
  split <;> simp_all

theorem scan_of_token {lexer : Lexer} {token : Token} (h : lexer.next.1 = .ok token)
    (hk : token.kind ≠ .endOfText) :
    lexer.scan = (token :: lexer.next.2.scan.1, lexer.next.2.scan.2) := by
  rw [scan]
  split <;> simp_all

/-- The token at the end is the last one, if the scan gets there. -/
theorem scan_split (lexer : Lexer) :
    (∃ ts last, lexer.scan = (ts ++ [last], none) ∧ last.kind = .endOfText ∧
      ∀ token ∈ ts, token.kind ≠ .endOfText) ∨
    ∃ ts fault, lexer.scan = (ts, some fault) ∧ ∀ token ∈ ts, token.kind ≠ .endOfText := by
  fun_induction scan lexer with
  | case1 lexer fault h => exact Or.inr ⟨[], fault, rfl, by simp⟩
  | case2 lexer token h hk => exact Or.inl ⟨[], token, rfl, hk, by simp⟩
  | case3 lexer token h hk ih =>
      rcases ih with ⟨ts, last, hs, hl, ht⟩ | ⟨ts, fault, hs, ht⟩
      · rw [hs]
        exact Or.inl ⟨token :: ts, last, rfl, hl, List.forall_mem_cons.2 ⟨hk, ht⟩⟩
      · rw [hs]
        exact Or.inr ⟨token :: ts, fault, rfl, List.forall_mem_cons.2 ⟨hk, ht⟩⟩

/-- A scan stops at faults of the text only. -/
theorem scan_fault {lexer : Lexer} {fault : Fault} (h : lexer.scan.2 = some fault) :
    fault.isLexical = true := by
  fun_induction scan lexer with
  | case1 lexer fault' hn =>
      cases h
      exact lexeme_fault hn
  | case2 => cases h
  | case3 lexer token hn hk ih => exact ih h

/-- Collecting the tokens gives those of the scan, or its fault. -/
theorem drain_eq_scan {lexer : Lexer} (h : lexer.finished = false) :
    lexer.drain.1 = lexer.scan.2.elim (.ok lexer.scan.1) .error := by
  fun_induction scan lexer with
  | case1 lexer fault hn => rw [drain, dif_neg (by simp [h]), hn]; rfl
  | case2 lexer token hn hk =>
      have hf : lexer.next.2.finished = true := by
        have he : (lexeme lexer.position lexer.rest).outcome = .ok token := hn
        simp [next, Reading.atEnd, he, hk]
      rw [drain, dif_neg (by simp [h]), hn]
      simp only
      rw [drain, dif_pos hf]
      rfl
  | case3 lexer token hn hk ih =>
      have hf : lexer.next.2.finished = false := by
        have he : (lexeme lexer.position lexer.rest).outcome = .ok token := hn
        simp [next, Reading.atEnd, he, hk, h]
      rw [drain, dif_neg (by simp [h]), hn]
      simp only
      rw [ih hf]
      cases lexer.next.2.scan.2 <;> rfl

end Lexer

/-- The tokens of a text up to its end or the first fault, and the fault. -/
def scan (text : Text) : List Token × Option Fault := (Lexer.ofText text).scan

theorem tokens_eq_scan (text : Text) : tokens text = (scan text).2.elim (.ok (scan text).1) .error :=
  Lexer.drain_eq_scan rfl

theorem tokens_eq_ok_iff {text : Text} {ts : List Token} :
    tokens text = .ok ts ↔ scan text = (ts, none) := by
  rw [tokens_eq_scan]
  obtain ⟨all, stop⟩ := scan text
  cases stop <;> simp

theorem tokens_eq_error_iff {text : Text} {fault : Fault} :
    tokens text = .error fault ↔ (scan text).2 = some fault := by
  rw [tokens_eq_scan]
  obtain ⟨all, stop⟩ := scan text
  cases stop <;> simp

/-- A text without a fault has the token at its end in the last place, and only there. -/
theorem scan_end {text : Text} {ts : List Token} {last : Token}
    (h : scan text = (ts ++ [last], none)) :
    last.kind = .endOfText ∧ ∀ token ∈ ts, token.kind ≠ .endOfText := by
  rcases (Lexer.ofText text).scan_split with ⟨ts', last', hs, hl, ht⟩ | ⟨ts', fault, hs, -⟩
  · have he := congrArg Prod.fst (h.symm.trans hs)
    obtain ⟨rfl, hlast⟩ := List.append_inj' he rfl
    cases hlast
    exact ⟨hl, ht⟩
  · cases congrArg Prod.snd (h.symm.trans hs)

/-- A token of a list is the last one or stands in front of it. -/
theorem concat_split {ts us rest : List Token} {token last : Token}
    (h : ts ++ [last] = us ++ token :: rest) :
    (ts = us ∧ token = last) ∨ ∃ between, ts = us ++ token :: between := by
  rcases rest.eq_nil_or_concat with rfl | ⟨between, other, rfl⟩
  · obtain ⟨hu, ht⟩ := List.append_inj' h rfl
    cases ht
    exact Or.inl ⟨hu, rfl⟩
  · rw [List.concat_eq_append, ← List.cons_append, ← List.append_assoc] at h
    exact Or.inr ⟨between, (List.append_inj' h rfl).1⟩

/-! ## Readers -/

namespace Reader

/-- The tokens in front of a reader, the current one included, and what stops them. -/
def ahead (reader : Reader) : List Token × Option Fault :=
  if reader.token.kind = .endOfText then ([reader.token], none)
  else (reader.token :: reader.lexer.scan.1, reader.lexer.scan.2)

theorem scan_eq_ahead {lexer lexer' : Lexer} {token : Token}
    (h : lexer.next = (.ok token, lexer')) : lexer.scan = (Reader.mk token lexer').ahead := by
  have hn : lexer.next.1 = .ok token := congrArg Prod.fst h
  by_cases hk : token.kind = .endOfText
  · rw [Lexer.scan_of_end hn hk, ahead, if_pos hk]
  · rw [Lexer.scan_of_token hn hk, ahead, if_neg hk, h]

/-- A reader at the start of a text has all its tokens in front of it. -/
theorem ahead_of_ofText {text : Text} {reader : Reader} (h : ofText text = .ok reader) :
    reader.ahead = scan text := by
  rcases hn : (Lexer.ofText text).next with ⟨fault | token, lexer⟩
  · rw [ofText, hn] at h
    cases h
  · rw [ofText, hn] at h
    cases h
    exact (scan_eq_ahead hn).symm

theorem scan_of_ofText_error {text : Text} {fault : Fault} (h : ofText text = .error fault) :
    scan text = ([], some fault) := by
  rcases hn : (Lexer.ofText text).next with ⟨fault | token, lexer⟩
  · rw [ofText, hn] at h
    cases h
    exact Lexer.scan_of_error (congrArg Prod.fst hn)
  · rw [ofText, hn] at h
    cases h

/-- Accepting a token takes it off the front. -/
theorem ahead_of_advance {reader next : Reader} {token : Token}
    (hk : reader.token.kind ≠ .endOfText) (h : reader.advance = (.ok token, next)) :
    reader.ahead = (reader.token :: next.ahead.1, next.ahead.2) := by
  rcases hn : reader.lexer.next with ⟨fault | token', lexer⟩
  · rw [advance, hn] at h
    cases h
  · rw [advance, hn] at h
    cases h
    rw [ahead, if_neg hk, scan_eq_ahead hn]

/-- A token that cannot be accepted because of the one behind it is the last one. -/
theorem ahead_of_advance_error {reader next : Reader} {fault : Fault}
    (hk : reader.token.kind ≠ .endOfText) (h : reader.advance = (.error fault, next)) :
    reader.ahead = ([reader.token], some fault) := by
  rcases hn : reader.lexer.next with ⟨fault' | token, lexer⟩
  · rw [advance, hn] at h
    cases h
    rw [ahead, if_neg hk, Lexer.scan_of_error (congrArg Prod.fst hn)]
  · rw [advance, hn] at h
    cases h

theorem ahead_of_end {reader : Reader} (h : reader.token.kind = .endOfText) :
    reader.ahead = ([reader.token], none) := if_pos h

/-- The current token is always in front of a reader. -/
theorem exists_ahead_eq (reader : Reader) :
    ∃ ts, reader.ahead.1 = reader.token :: ts := by
  by_cases hk : reader.token.kind = .endOfText
  · exact ⟨[], by rw [ahead_of_end hk]⟩
  · exact ⟨_, by rw [ahead, if_neg hk]⟩

end Reader
end Calculator
