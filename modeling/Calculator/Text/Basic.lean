/-!
# Texts

A text is its list of characters, so that an offset counts characters and not
bytes, and so that a proof about a text is an induction on a list.  Only the
outermost layer packs texts into strings.
-/

namespace Calculator

/-- A text, character by character. -/
abbrev Text := List Char

end Calculator
