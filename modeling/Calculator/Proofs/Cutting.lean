import Calculator.Proofs.LexicalFault

/-!
# Cutting a text between lexemes

The lexemes of a text are those of its parts, if it is cut at an offset that is
inside of none of them.  Two cuts are made here.  One is at a given offset, with
the lexemes on both sides (`Lexes.exists_cut`).  The other is behind a given
token of a scan (`exists_lexes_to_token`), where the lexemes behind do not
matter and need not exist.
-/

namespace Calculator

/-- No lexeme is the end of the text. -/
theorem Lexes.kind_ne {position : Nat} {text : Text} {lexemes : List Token}
    (h : Lexes position text lexemes) : ∀ token ∈ lexemes, token.kind ≠ .endOfText := by
  induction h with
  | nil => exact nofun
  | space _ ih => exact ih
  | token hsp _ ih => exact List.forall_mem_cons.2 ⟨hsp.kind_ne, ih⟩

/-! ## Cutting at an offset -/

/-- Between two lexemes, and in front and behind all of them, a text can be cut. -/
theorem Lexes.exists_cut {position k : Nat} {text : Text} {lexemes : List Token}
    (h : Lexes position text lexemes) (hk : position ≤ k) (hk' : k ≤ position + text.length)
    (hc : ∀ token ∈ lexemes, ¬ (token.location < k ∧ (k : Int) < token.stop)) :
    ∃ front rest us vs, text = front ++ rest ∧ lexemes = us ++ vs ∧ position + front.length = k ∧
      Lexes position front us ∧ Lexes k rest vs := by
  induction h with
  | nil => exact ⟨[], [], [], [], rfl, rfl, Nat.le_antisymm hk hk', .nil, .nil⟩
  | @space position text lexemes h ih =>
      rcases Nat.eq_or_lt_of_le hk with rfl | hlt
      · exact ⟨[], ' ' :: text, [], lexemes, rfl, rfl, rfl, .nil, .space h⟩
      · rw [List.length_cons] at hk'
        obtain ⟨front, rest, us, vs, rfl, rfl, hp, hu, hv⟩ := ih hlt (by omega) hc
        refine ⟨' ' :: front, rest, us, vs, rfl, rfl, ?_, .space hu, hv⟩
        rw [List.length_cons]
        omega
  | @token position kind body span text lexemes hsp h ih =>
      rcases Nat.eq_or_lt_of_le hk with rfl | hlt
      · exact ⟨[], span ++ text, [], _, rfl, rfl, rfl, .nil, .token hsp h⟩
      · obtain ⟨hout, hc⟩ := List.forall_mem_cons.1 hc
        simp only [Token.stop] at hout
        rw [List.length_append] at hk'
        obtain ⟨front, rest, us, vs, rfl, rfl, hp, hu, hv⟩ := ih (by omega) (by omega) hc
        refine ⟨span ++ front, rest, _ :: us, vs, (List.append_assoc ..).symm, rfl, ?_,
          .token hsp.of_append hu, hv⟩
        rw [List.length_append]
        omega

/-! ## Cutting around a token -/

/-- A lexeme has its span behind the lexemes in front of it, and can be the last one. -/
theorem Lexes.exists_span {position : Nat} {text : Text} {us vs : List Token} {token : Token}
    (h : Lexes position text (us ++ token :: vs)) :
    ∃ front span rest, text = front ++ (span ++ rest) ∧ Lexes position front us ∧
      Lexes position (front ++ span) (us ++ [token]) ∧
      Spells token.kind token.text span rest ∧
      token.stop = (position + (front ++ span).length : Nat) := by
  generalize hl : us ++ token :: vs = lexemes at h
  induction h generalizing us with
  | nil => cases us <;> cases hl
  | @space position _ lexemes _ ih =>
      obtain ⟨front, span, rest, rfl, hx, hx', hsp, hs⟩ := ih hl
      refine ⟨' ' :: front, span, rest, rfl, .space hx, .space hx', hsp, ?_⟩
      rwa [List.cons_append, List.length_cons, Nat.add_comm (front ++ span).length,
        ← Nat.add_assoc]
  | @token position kind body span rest lexemes hsp _ ih =>
      cases us with
      | nil =>
          cases hl
          have hx := Lexes.token (@Spells.of_append _ _ _ [] rest hsp) (@Lexes.nil (position + _))
          rw [List.append_nil] at hx
          exact ⟨[], span, rest, rfl, .nil, hx, hsp, rfl⟩
      | cons first us =>
          cases hl
          obtain ⟨front, span', rest, rfl, hx, hx', hsp', hs⟩ := ih rfl
          refine ⟨span ++ front, span', rest, (List.append_assoc ..).symm, .token hsp.of_append hx,
            ?_, hsp', ?_⟩
          · rw [← List.append_assoc] at hsp
            rw [List.append_assoc]
            exact .token hsp.of_append hx'
          · rwa [List.append_assoc, List.length_append, ← Nat.add_assoc]

/-- The text up to a token of a scan, and with it, has the tokens up to there as its lexemes.  The
token at the end is no lexeme. -/
theorem exists_lexes_to_token {text : Text} {ts rest : List Token} {token : Token}
    {stop : Option Fault} (h : scan text = (ts ++ token :: rest, stop)) :
    ∃ front tail lexemes, text = front ++ tail ∧ Lexes 0 front lexemes ∧
      token.stop = front.length ∧
      (lexemes = ts ++ [token] ∨ lexemes = ts ∧ token.kind = .endOfText) := by
  obtain ⟨front, tail, lexemes, rfl, hx, hs⟩ := exists_lexes_stops text
  rw [h] at hs
  have hscan := (scan_append_lexes hx hs.detached).symm.trans h
  rw [hs.scan_eq] at hscan
  have hlexeme : ∀ us, lexemes = ts ++ token :: us → ∃ front' tail' lexemes,
      front ++ tail = front' ++ tail' ∧ Lexes 0 front' lexemes ∧ token.stop = front'.length ∧
      (lexemes = ts ++ [token] ∨ lexemes = ts ∧ token.kind = .endOfText) := by
    rintro us rfl
    obtain ⟨front', span, rest, rfl, -, hx', -, hstop⟩ := hx.exists_span
    rw [Nat.zero_add] at hstop
    refine ⟨front' ++ span, rest ++ tail, _, ?_, hx', hstop, Or.inl rfl⟩
    rw [List.append_assoc, List.append_assoc, List.append_assoc]
  cases hs with
  | endOfText =>
      rcases concat_split (congrArg Prod.fst hscan) with ⟨rfl, rfl⟩ | ⟨us, hu⟩
      · exact ⟨front, [], lexemes, rfl, hx, Int.add_zero _, Or.inr ⟨rfl, rfl⟩⟩
      · exact hlexeme us hu
  | stray _ => exact hlexeme rest ((List.append_nil _).symm.trans (congrArg Prod.fst hscan))
  | unclosed _ _ => exact hlexeme rest ((List.append_nil _).symm.trans (congrArg Prod.fst hscan))

end Calculator
