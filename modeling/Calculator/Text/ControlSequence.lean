import Calculator.Text.Basic

/-!
# Control sequences

A terminal takes an escape character together with some characters behind it as
an order, to change its colours say, and shows none of them.  The sequences
meant here are an escape character, an opening bracket, any number of
parameters, each a digit, a semicolon or a question mark, and one letter.

`ControlSequence.strip` goes through a text once, from the left, and leaves out
every sequence it meets.  An escape character that begins no sequence stays.  So
does a sequence that arises only when one is left out of its midst.

`strip_eq_self` says that a text without escape characters is left as it is.
-/

namespace Calculator
namespace ControlSequence

/-! ## One sequence -/

/-- The character that begins a sequence. -/
def escapeChar : Char := '\x1b'

/-- Whether a character may stand between the bracket and the letter. -/
def isParameter (c : Char) : Bool := c == ';' || c == '?' || c.isDigit

/-- The text behind the sequence at the front of a text, if there is one. -/
def after? : Text → Option Text
  | escape :: '[' :: text =>
      if escape = escapeChar then
        match text.dropWhile isParameter with
        | final :: rest => if final.isAlpha then some rest else none
        | [] => none
      else none
  | _ => none

/-- A sequence is not empty. -/
theorem length_after?_lt {text rest : Text} (h : after? text = some rest) :
    rest.length < text.length := by
  unfold after? at h
  split at h
  · rename_i escape text
    have hle := (List.dropWhile_sublist (l := text) isParameter).length_le
    split at h
    · split at h
      · rename_i final behind hdrop
        split at h
        · cases h
          simp only [hdrop, List.length_cons] at hle ⊢
          omega
        · cases h
      · cases h
    · cases h
  · cases h

/-- A sequence begins with an escape character. -/
theorem after?_cons_of_ne {c : Char} (h : c ≠ escapeChar) (text : Text) :
    after? (c :: text) = none := by
  unfold after?
  split
  · rename_i heq
    cases heq
    simp [h]
  · rfl

/-! ## All sequences -/

/-- A text without its control sequences. -/
def strip : Text → Text
  | [] => []
  | c :: text =>
      match _h : after? (c :: text) with
      | some rest => strip rest
      | none => c :: strip text
termination_by text => text.length
decreasing_by
  · exact length_after?_lt ‹_›
  · simp

@[simp] theorem strip_nil : strip [] = [] := by
  simp [strip]

theorem strip_of_after? {text rest : Text} (h : after? text = some rest) :
    strip text = strip rest := by
  cases text with
  | nil => cases h
  | cons c text =>
      rw [strip]
      split
      · rename_i heq
        rw [h] at heq
        cases heq
        rfl
      · rename_i heq
        rw [h] at heq
        cases heq

theorem strip_cons_of_ne {c : Char} (h : c ≠ escapeChar) (text : Text) :
    strip (c :: text) = c :: strip text := by
  rw [strip]
  split
  · rename_i heq
    rw [after?_cons_of_ne h] at heq
    cases heq
  · rfl

/-- A text without escape characters is left as it is. -/
theorem strip_eq_self {text : Text} (h : escapeChar ∉ text) : strip text = text := by
  induction text with
  | nil => exact strip_nil
  | cons c text ih =>
      simp only [List.mem_cons, not_or] at h
      rw [strip_cons_of_ne (Ne.symm h.1), ih h.2]

end ControlSequence
end Calculator
