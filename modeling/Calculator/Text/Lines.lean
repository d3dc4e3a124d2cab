import Calculator.Text.Basic

/-!
# Line ends

A document may end its lines with a line feed, with a carriage return, or with
both in this order.  `Lines.unify` turns each of the three into one line feed,
and `Lines.trim` drops the line ends at the end of a text.  A text without line
ends is left as it is by both.
-/

namespace Calculator
namespace Lines

/-- Every line end as one line feed. -/
def unify : Text → Text
  | [] => []
  | '\r' :: '\n' :: rest => '\n' :: unify rest
  | '\r' :: rest => '\n' :: unify rest
  | c :: rest => c :: unify rest

/-- Whether a character ends a line, alone or beside the other one that does. -/
def isEnd (c : Char) : Bool := c == '\n' || c == '\r'

/-- A text without the line ends that stand last in it. -/
def trim (text : Text) : Text := (text.reverse.dropWhile isEnd).reverse

theorem unify_eq_self {text : Text} (h : '\r' ∉ text) : unify text = text := by
  fun_induction unify text with
  | case1 => rfl
  | case2 => simp at h
  | case3 => simp at h
  | case4 c rest _ _ ih => rw [ih fun hm => h (List.mem_cons_of_mem c hm)]

theorem isEnd_eq_false_of_isDigit {c : Char} (h : c.isDigit = true) : Lines.isEnd c = false := by
  rw [Lines.isEnd, Bool.or_eq_false_iff, beq_eq_false_iff_ne, beq_eq_false_iff_ne]
  constructor <;> (rintro rfl; cases h)

theorem trim_eq_self {text : Text} (h : ∀ c ∈ text, isEnd c = false) : trim text = text := by
  have hd : text.reverse.dropWhile isEnd = text.reverse := by
    cases hr : text.reverse with
    | nil => rfl
    | cons c rest =>
        have hm : c ∈ text := List.mem_reverse.1 (hr ▸ List.mem_cons_self)
        exact List.dropWhile_cons_of_neg (Bool.eq_false_iff.1 (h c hm))
  rw [trim, hd, List.reverse_reverse]

end Lines
end Calculator
