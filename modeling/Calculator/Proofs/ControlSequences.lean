import Mathlib.Data.List.Infix
import Mathlib.Data.List.TakeWhile
import Calculator.Fault.Notice
import Calculator.Text.ControlSequence

/-!
# Texts without control sequences

Looking for a control sequence at the front of a text finds every one there is
(`ControlSequence.after?_eq_some_iff`).  So a text is left as it is exactly if it
holds none (`ControlSequence.strip_eq_self_iff`).

A character that stands in no sequence cuts a text in two: what is in front of it
and what is behind it are gone through apart (`ControlSequence.strip_append_cons`).
A line feed is such a character.

A diagnostic can hold control sequences only where it repeats the expression.  The
line feed behind the expression cuts the diagnostic in two, so what is left out of
it is what is left out of the expression (`Notice.strip_diagnostic`).
-/

namespace Calculator
namespace ControlSequence

/-! ## One sequence -/

/-- Whether a text is one control sequence. -/
def IsSequence (text : Text) : Prop :=
  ∃ parameters final, text = escapeChar :: '[' :: (parameters ++ [final]) ∧
    (∀ c ∈ parameters, isParameter c = true) ∧ final.isAlpha = true

/-- Whether a character may stand in a control sequence. -/
def mayOccur (c : Char) : Bool := c == escapeChar || c == '[' || isParameter c || c.isAlpha

namespace IsSequence

variable {s : Text}

theorem ne_nil (h : IsSequence s) : s ≠ [] := by
  obtain ⟨parameters, final, rfl, -, -⟩ := h
  exact List.cons_ne_nil _ _

theorem mayOccur_of_mem (h : IsSequence s) : ∀ c ∈ s, mayOccur c = true := by
  obtain ⟨parameters, final, rfl, hp, hf⟩ := h
  have hparameters : ∀ c ∈ parameters ++ [final], isParameter c = true ∨ c.isAlpha = true := by
    intro c hm
    rcases List.mem_append.1 hm with hm | hm
    · exact Or.inl (hp c hm)
    · exact Or.inr (List.mem_singleton.1 hm ▸ hf)
  simp only [mayOccur, Bool.or_eq_true, beq_iff_eq, or_assoc]
  intro c hm
  rcases List.mem_cons.1 hm with rfl | hm
  · exact Or.inl rfl
  · rcases List.mem_cons.1 hm with rfl | hm
    · exact Or.inr (Or.inl rfl)
    · exact Or.inr (Or.inr (hparameters c hm))

end IsSequence

/-- Letters stand behind digits. -/
theorem le_toNat_of_isAlpha {c : Char} (h : c.isAlpha = true) : 65 ≤ c.toNat := by
  rcases Bool.or_eq_true_iff.1 h with h | h
  · have hle : 'A'.val ≤ c.val := (of_decide_eq_true h).1
    exact UInt32.le_iff_toNat_le.1 hle
  · have hle : 'a'.val ≤ c.val := of_decide_eq_true (Bool.and_eq_true_iff.1 h).1
    exact Nat.le_trans (by decide) (UInt32.le_iff_toNat_le.1 hle)

/-- The letter ends a sequence: it is no parameter. -/
theorem isParameter_of_isAlpha {c : Char} (h : c.isAlpha = true) : isParameter c = false := by
  have hle := le_toNat_of_isAlpha h
  have hsemicolon : c ≠ ';' := by rintro rfl; exact absurd hle (by decide)
  have hquestion : c ≠ '?' := by rintro rfl; exact absurd hle (by decide)
  have hdigit : c.isDigit = false := by
    refine Bool.eq_false_iff.2 fun hd => ?_
    have hnine : c.toNat ≤ 57 := (Char.isDigit_iff_toNat.1 hd).2
    omega
  simp [isParameter, hsemicolon, hquestion, hdigit]

/-- The sequence found at the front of a text is the one there is. -/
theorem after?_eq_some_iff {text rest : Text} :
    after? text = some rest ↔ ∃ s, IsSequence s ∧ text = s ++ rest := by
  constructor
  · intro h
    unfold after? at h
    split at h
    · rename_i escape text
      split at h
      · rename_i hescape
        split at h
        · rename_i final behind hdrop
          split at h
          · rename_i hfinal
            cases h
            have hp : ∀ c ∈ text.takeWhile isParameter, isParameter c = true :=
              fun c => List.mem_takeWhile_imp
            have htext := List.takeWhile_append_dropWhile (p := isParameter) (l := text)
            rw [hdrop] at htext
            refine ⟨_, ⟨text.takeWhile isParameter, final, rfl, hp, hfinal⟩, ?_⟩
            simp [hescape, htext]
          · cases h
        · cases h
      · cases h
    · cases h
  · rintro ⟨s, ⟨parameters, final, rfl, hp, hf⟩, rfl⟩
    have hdrop : (parameters ++ final :: rest).dropWhile isParameter = final :: rest := by
      rw [List.dropWhile_append_of_pos hp, List.dropWhile_cons_of_neg]
      rw [isParameter_of_isAlpha hf]
      exact Bool.false_ne_true
    simp [after?, hdrop, hf]

/-- A sequence does not reach over a character that stands in none. -/
theorem after?_append_cons {c : Char} (hc : mayOccur c = false) (text rest : Text) :
    after? (text ++ c :: rest) = (after? text).map (· ++ c :: rest) := by
  rw [Option.ext_iff]
  intro behind
  rw [Option.map_eq_some_iff, after?_eq_some_iff]
  constructor
  · rintro ⟨s, hs, he⟩
    rcases List.append_eq_append_iff.1 he with ⟨beyond, rfl, hbeyond⟩ | ⟨left, rfl, rfl⟩
    · cases beyond with
      | nil =>
          rw [List.append_nil] at hs
          exact ⟨[], after?_eq_some_iff.2 ⟨text, hs, (List.append_nil text).symm⟩, hbeyond⟩
      | cons c' beyond =>
          cases hbeyond
          have hm : c ∈ text ++ c :: beyond := List.mem_append_right _ List.mem_cons_self
          cases hc.symm.trans (hs.mayOccur_of_mem c hm)
    · exact ⟨left, after?_eq_some_iff.2 ⟨s, hs, rfl⟩, rfl⟩
  · rintro ⟨left, hleft, rfl⟩
    obtain ⟨s, hs, rfl⟩ := after?_eq_some_iff.1 hleft
    exact ⟨s, hs, List.append_assoc _ _ _⟩

/-! ## All sequences -/

theorem strip_cons_of_after? {c : Char} {text : Text} (h : after? (c :: text) = none) :
    strip (c :: text) = c :: strip text := by
  rw [strip]
  split
  · rename_i heq
    cases h.symm.trans heq
  · rfl

/-- What stands in front of a character that stands in no sequence, and what stands behind it,
are gone through apart. -/
theorem strip_append_cons {c : Char} (hc : mayOccur c = false) (text rest : Text) :
    strip (text ++ c :: rest) = strip text ++ c :: strip rest := by
  fun_induction strip text with
  | case1 =>
      refine strip_cons_of_ne ?_ rest
      rintro rfl
      cases hc
  | case2 c' text left h ih =>
      have hleft : after? (c' :: text ++ c :: rest) = some (left ++ c :: rest) := by
        rw [after?_append_cons hc, h, Option.map_some]
      rw [strip_of_after? hleft, ih]
  | case3 c' text h ih =>
      have hnone : after? (c' :: (text ++ c :: rest)) = none := by
        rw [← List.cons_append, after?_append_cons hc, h, Option.map_none]
      rw [List.cons_append, strip_cons_of_after? hnone, ih, List.cons_append]

end ControlSequence

/-! ## Diagnostics -/

/-- The line of a diagnostic that stands below the expression. -/
def Notice.marks (notice : Notice) : Text :=
  List.replicate notice.location.toNat ' ' ++ notice.carets ++ ' ' :: notice.summary ++ ['\n']

theorem Notice.diagnostic_eq (notice : Notice) (expression : Text) :
    notice.diagnostic expression = expression ++ '\n' :: notice.marks := by
  simp only [diagnostic, marks, List.append_assoc, List.cons_append]

theorem Notice.escape_not_mem_marks {notice : Notice}
    (h : ControlSequence.escapeChar ∉ notice.summary) :
    ControlSequence.escapeChar ∉ notice.marks := by
  have hmark : ∀ (n : Nat) (c : Char), c ≠ ControlSequence.escapeChar →
      ControlSequence.escapeChar ∉ List.replicate n c :=
    fun n c hc hm => hc (List.eq_of_mem_replicate hm).symm
  have hspace : ControlSequence.escapeChar ≠ ' ' := by decide
  simp only [marks, carets, List.mem_append, List.mem_cons, not_or]
  exact ⟨⟨⟨hmark _ ' ' (by decide), hmark _ '^' (by decide)⟩, hspace, h⟩, by decide⟩

/-- What is left out of a diagnostic is what is left out of its expression. -/
theorem Notice.strip_diagnostic {notice : Notice}
    (h : ControlSequence.escapeChar ∉ notice.summary) (expression : Text) :
    ControlSequence.strip (notice.diagnostic expression) =
      notice.diagnostic (ControlSequence.strip expression) := by
  rw [diagnostic_eq, diagnostic_eq, ControlSequence.strip_append_cons (by decide),
    ControlSequence.strip_eq_self (escape_not_mem_marks h)]

end Calculator
