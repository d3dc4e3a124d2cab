import Calculator.Proofs.Coverage

/-!
# Faults as spaces

A lexer goes on behind a fault, so it can be asked until it finds the end of the
text (`Lexer.exhaust`).  A fault concerns what the lexer passed over with it: a
character that begins no token, or all from a quote to the end.  Where these
characters are replaced by spaces there is no fault left, and the tokens are the
ones that the lexer delivered (`tokens_blanked`).

What the lexer found covers the text.  So the characters of a lexeme are none
that a fault concerns, and they stay.  The character behind a lexeme may have
become a space, but a space continues no lexeme.
-/

namespace Calculator

/-! ## All that a lexer finds -/

/-- In front of the end of a text there are spaces alone. -/
theorem Covers.of_isEnd {text : Text} {outcome : Except Fault Token} {start stop : Nat}
    (h : Covers text start [outcome] stop) (he : IsEnd outcome) :
    outcome = .ok (.endOfText text.length) ∧ Covers text start [] text.length := by
  generalize ho : [outcome] = outcomes at h
  induction h with
  | nil => cases ho
  | space hc _ ih =>
      obtain ⟨hend, hcov⟩ := ih ho
      exact ⟨hend, .space hc hcov⟩
  | cons ht _ _ =>
      cases ho
      obtain ⟨token, hok, hk⟩ := he
      cases ht with
      | token _ _ _ hsp =>
          cases hok
          exact absurd hk hsp.kind_ne
      | endOfText => exact ⟨rfl, .nil⟩
      | stray _ _ => cases hok
      | unclosed _ _ _ => cases hok

namespace Lexer

/-- What a lexer finds when it is asked until it has found the end. -/
def exhaust (lexer : Lexer) : List (Except Fault Token) :=
  if _h : (lexeme lexer.position lexer.rest).atEnd = true then [lexer.next.1]
  else lexer.next.1 :: exhaust lexer.next.2
termination_by lexer.rest.length
decreasing_by exact lexeme_rest_lt (Bool.eq_false_iff.2 _h)

/-- What is found covers the text, and the end is found last and only once. -/
theorem exhaust_covers {text : Text} {lexer : Lexer} (h : lexer.Stands text) :
    ∃ found, lexer.exhaust = found ++ [.ok (.endOfText text.length)] ∧
      (∀ outcome ∈ found, ¬ IsEnd outcome) ∧
      Covers text lexer.position found text.length := by
  fun_induction exhaust lexer with
  | case1 lexer he =>
      obtain ⟨hn, hc⟩ := h.next.1.of_isEnd ((Reading.atEnd_iff _).1 he)
      exact ⟨[], congrArg ([·]) hn, nofun, hc⟩
  | case2 lexer he ih =>
      obtain ⟨hc, hn⟩ := h.next
      obtain ⟨found, hf, hends, hcs⟩ := ih hn
      exact ⟨lexer.next.1 :: found, congrArg (lexer.next.1 :: ·) hf,
        List.forall_mem_cons.2 ⟨mt (Reading.atEnd_iff _).2 he, hends⟩, hc.append hcs⟩

end Lexer

/-! ## Blanking -/

/-- Whether a reading found a fault that concerns the character at an offset. -/
def concerns (i : Nat) : Except Fault Token → Bool
  | .error (.unrecognizedCharacter location _) => location == i
  | .error (.unterminatedLiteral location) => decide (location ≤ i)
  | _ => false

@[simp] theorem concerns_ok (i : Nat) (token : Token) : concerns i (.ok token) = false := rfl

@[simp] theorem concerns_stray (i start : Nat) (text : Text) :
    concerns i (.error (.unrecognizedCharacter start text)) = decide (start = i) :=
  decide_eq_decide.2 Int.natCast_inj

@[simp] theorem concerns_unclosed (i start : Nat) :
    concerns i (.error (.unterminatedLiteral start)) = decide (start ≤ i) :=
  decide_eq_decide.2 Int.ofNat_le

/-- A text with a space for each character that a fault concerns. -/
def blanked (outcomes : List (Except Fault Token)) (text : Text) : Text :=
  text.mapIdx fun i c => if outcomes.any (concerns i) then ' ' else c

theorem getElem?_blanked (outcomes : List (Except Fault Token)) (text : Text) (i : Nat) :
    (blanked outcomes text)[i]? =
      text[i]?.map fun c => if outcomes.any (concerns i) then ' ' else c :=
  List.getElem?_mapIdx

theorem length_blanked (outcomes : List (Except Fault Token)) (text : Text) :
    (blanked outcomes text).length = text.length :=
  List.length_mapIdx

/-- Faults concern what they take. -/
theorem Covers.le_of_concerns {text : Text} {outcomes : List (Except Fault Token)}
    {start stop i : Nat} (h : Covers text start outcomes stop)
    (hi : outcomes.any (concerns i) = true) : start ≤ i := by
  induction h with
  | nil => cases hi
  | space _ _ ih => exact Nat.le_of_succ_le (ih hi)
  | cons ht _ ih =>
      rw [List.any_cons, Bool.or_eq_true] at hi
      rcases hi with hi | hi
      · cases ht with
        | token _ _ _ _ => cases hi
        | endOfText => cases hi
        | stray _ _ =>
            rw [concerns_stray] at hi
            exact Nat.le_of_eq (of_decide_eq_true hi)
        | unclosed _ _ _ =>
            rw [concerns_unclosed] at hi
            exact of_decide_eq_true hi
      · exact Nat.le_trans ht.le (ih hi)

theorem lexes_of_forall_eq_space {text : Text} (h : ∀ c ∈ text, c = ' ') (position : Nat) :
    Lexes position text [] := by
  induction text generalizing position with
  | nil => exact .nil
  | cons c text ih =>
      obtain ⟨rfl, hrest⟩ := List.forall_mem_cons.1 h
      exact .space (ih hrest (position + 1))

/-- A span spells the same where its characters stay, and the one behind it stays or becomes a
space. -/
theorem Spells.of_getElem? {text text' : Text} {token : Token} {start stop : Nat}
    (h : Spells token.kind token.text (token.span text) (token.behind text))
    (hl : token.location = start) (hs : token.stop = stop)
    (hspan : ∀ i, start ≤ i → i < stop → text'[i]? = text[i]?)
    (hbehind : ∀ c ∈ text'[stop]?, c ∈ text[stop]? ∨ c = ' ') :
    Spells token.kind token.text (token.span text') (token.behind text') := by
  have hsame : token.span text' = token.span text := by
    refine List.ext_getElem? fun i => ?_
    rw [Token.span, Token.span, List.getElem?_take, List.getElem?_take]
    split
    · rename_i hi
      rw [Token.stop] at hs
      rw [List.getElem?_drop, List.getElem?_drop, hl, Int.toNat_natCast]
      exact hspan _ (Nat.le_add_right _ _) (by omega)
    · rfl
  rw [hsame]
  refine h.of_head? ?_
  rw [Token.behind, Token.behind, hs, Int.toNat_natCast, List.head?_drop, List.head?_drop]
  intro c hc
  rcases hbehind c hc with hc | rfl
  · exact Or.inl hc
  · exact Or.inr (by decide)

/-- Whether a text, from an offset on, is another one with a space for each character that a fault
concerns. -/
def BlankedFrom (start : Nat) (outcomes : List (Except Fault Token)) (text text' : Text) : Prop :=
  ∀ i, start ≤ i → text'[i]? = text[i]?.map fun c => if outcomes.any (concerns i) then ' ' else c

namespace BlankedFrom

variable {text text' : Text} {outcomes : List (Except Fault Token)} {start stop : Nat}

theorem later {middle : Nat} (h : BlankedFrom start outcomes text text') (hle : start ≤ middle) :
    BlankedFrom middle outcomes text text' := fun i hi => h i (Nat.le_trans hle hi)

/-- The faults that follow concern nothing of a lexeme, and a space may be behind it. -/
theorem spells {middle : Nat} {token : Token}
    (h : BlankedFrom start (.ok token :: outcomes) text text')
    (hc : Covers text middle outcomes stop) (hl : token.location = start)
    (hs : token.stop = middle) (hlt : start < middle)
    (hsp : Spells token.kind token.text (token.span text) (token.behind text)) :
    Spells token.kind token.text (token.span text') (token.behind text') := by
  refine hsp.of_getElem? hl hs ?_ ?_
  · intro i hi hi'
    have hfree : outcomes.any (concerns i) = false :=
      Bool.eq_false_iff.2 fun hany => Nat.not_lt.2 (hc.le_of_concerns hany) hi'
    simpa [hfree] using h i hi
  · intro c hm
    rw [h middle (Nat.le_of_lt hlt)] at hm
    obtain ⟨c', hc', rfl⟩ := Option.map_eq_some_iff.1 hm
    split
    · exact Or.inr rfl
    · exact Or.inl hc'

/-- A character that begins no token is a space now. -/
theorem stray {c : Char}
    (h : BlankedFrom start (.error (.unrecognizedCharacter start [c]) :: outcomes) text text')
    (hc : text[start]? = some c) :
    text'[start]? = some ' ' ∧ BlankedFrom (start + 1) outcomes text text' := by
  constructor
  · simpa [hc] using h start (Nat.le_refl _)
  · intro i hi
    have hne : start ≠ i := Nat.ne_of_lt hi
    simpa [hne] using h i (Nat.le_of_succ_le hi)

/-- All behind a quote that is not matched are spaces now. -/
theorem unclosed (h : BlankedFrom start [.error (.unterminatedLiteral start)] text text') :
    ∀ c ∈ text'.drop start, c = ' ' := by
  intro c hm
  obtain ⟨i, hi⟩ := List.mem_iff_getElem?.1 hm
  rw [List.getElem?_drop, h _ (Nat.le_add_right start i)] at hi
  obtain ⟨c', -, rfl⟩ := Option.map_eq_some_iff.1 hi
  simp

end BlankedFrom

/-- Where faults are blanked, the lexemes that were found are read from an offset on, whatever is
in front of it. -/
theorem Covers.lexes_blanked {text text' : Text} {outcomes : List (Except Fault Token)}
    {start stop : Nat} (h : Covers text start outcomes stop) (hstop : stop = text.length)
    (hlength : text'.length = text.length) (he : ∀ outcome ∈ outcomes, ¬ IsEnd outcome)
    (hb : BlankedFrom start outcomes text text') :
    Lexes start (text'.drop start) (outcomes.filterMap Except.toOption) := by
  induction h with
  | nil =>
      rw [List.drop_eq_nil_of_le (Nat.le_of_eq (hlength.trans hstop.symm))]
      exact .nil
  | @space start _ _ hc _ ih =>
      have hspace := hb start (Nat.le_refl _)
      rw [hc, Option.map_some, ite_self] at hspace
      rw [drop_eq_cons_iff.2 ⟨hspace, rfl⟩]
      exact .space (ih hstop he (hb.later (Nat.le_succ _)))
  | @cons start middle _ outcome outcomes ht hcov ih =>
      obtain ⟨hend, hends⟩ := List.forall_mem_cons.1 he
      cases ht with
      | @token token _ _ hl hs hlt hsp =>
          have hle : token.stop ≤ text'.length := by
            rw [hs, hlength, ← hstop]
            exact Int.ofNat_le.2 hcov.le
          have hrest : BlankedFrom start outcomes text text' := hb
          exact (ih hstop hends (hrest.later (Nat.le_of_lt hlt))).span_cons hl hs
            (Nat.le_of_lt hlt) hle (hb.spells hcov hl hs hlt hsp)
      | endOfText => exact absurd ⟨_, rfl, rfl⟩ hend
      | stray hc _ =>
          obtain ⟨hspace, hrest⟩ := hb.stray hc
          rw [drop_eq_cons_iff.2 ⟨hspace, rfl⟩]
          exact .space (ih hstop hends hrest)
      | unclosed _ _ _ =>
          -- nothing is left to be found
          have hnil : outcomes = [] := by
            refine List.eq_nil_iff_forall_not_mem.2 fun outcome hm => ?_
            exact Nat.ne_of_lt (hcov.lt ⟨outcome, hm, hends outcome hm⟩) hstop.symm
          subst hnil
          exact lexes_of_forall_eq_space hb.unclosed start

/-- Where all that a fault concerns is replaced by spaces, a text has the tokens that its lexer
delivers behind faults, up to the first at the end, and no others. -/
theorem tokens_blanked (text : Text) :
    tokens (blanked (Lexer.ofText text).exhaust text) =
      .ok ((Lexer.ofText text).exhaust.filterMap Except.toOption) := by
  obtain ⟨found, hf, hends, hc⟩ := Lexer.exhaust_covers (Lexer.stands_ofText text)
  have hb : BlankedFrom 0 found text (blanked (Lexer.ofText text).exhaust text) := by
    intro i _
    rw [getElem?_blanked, hf, List.any_append]
    simp
  have hlength := length_blanked (Lexer.ofText text).exhaust text
  have hx := hc.lexes_blanked rfl hlength hends hb
  refine tokens_eq_ok_iff_lexes.2 ⟨found.filterMap Except.toOption, ?_, hx⟩
  rw [hlength, hf, List.filterMap_append]
  rfl

example : blanked (Lexer.ofText "1?'a".toList).exhaust "1?'a".toList = "1   ".toList := by
  decide +kernel

end Calculator
