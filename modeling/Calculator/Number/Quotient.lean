/-!
# Quotients

Division keeps to whole numbers by rounding the exact quotient toward zero, so
that changing the sign of either side changes the sign of the answer and
nothing else.
-/

namespace Calculator

/-- The quotient rounded toward zero.  A divisor of zero has none. -/
def quotient? (dividend divisor : Int) : Option Int :=
  if divisor = 0 then none else some (dividend.tdiv divisor)

@[simp] theorem quotient?_zero (dividend : Int) : quotient? dividend 0 = none := rfl

theorem quotient?_of_ne_zero (dividend : Int) {divisor : Int} (h : divisor ≠ 0) :
    quotient? dividend divisor = some (dividend.tdiv divisor) := by
  simp [quotient?, h]

end Calculator
