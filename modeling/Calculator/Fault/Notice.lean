import Calculator.Number.Numeral

/-!
# Notices

A notice says in one line what is wrong at a span of an expression.  It is
shown alone, with the offset, or as a diagnostic: the expression, and below it
carets under the span and the line.
-/

namespace Calculator

/-- What is wrong, and where. -/
structure Notice where
  /-- The offset of the first character concerned. -/
  location : Int
  /-- The number of characters concerned. -/
  width : Int
  /-- What is wrong, in one line. -/
  summary : Text

namespace Notice

/-- The summary with the offset. -/
def message (notice : Notice) : Text :=
  notice.summary ++ " (at offset ".toList ++ Numeral.write notice.location ++ [')']

/-- The carets under the span.  An empty span has one all the same. -/
def carets (notice : Notice) : Text := List.replicate (max notice.width 1).toNat '^'

/-- The expression and, below it, the carets and the summary. -/
def diagnostic (notice : Notice) (expression : Text) : Text :=
  expression ++ '\n' :: List.replicate notice.location.toNat ' ' ++ notice.carets ++
    ' ' :: notice.summary ++ ['\n']

end Notice
end Calculator
