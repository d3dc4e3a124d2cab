import Calculator.Number.Quotient

/-!
# Division

A quotient is calculated from the magnitudes of the two sides, and gets its sign
from theirs (`truncateDivide?`).  This is the quotient rounded toward zero
(`truncateDivide?_eq`).

Such a quotient leaves a remainder that is of less magnitude than the divisor, and
is zero or has the sign of the dividend (`roundsTowardZero_tdiv`).  No other number
leaves such a remainder (`RoundsTowardZero.tdiv_eq`).  So this law alone says when
there is a quotient and which number it is (`quotient?_eq_some_iff`).
-/

namespace Calculator

/-! ## Quotients of magnitudes -/

/-- The quotient of magnitudes, if the divisor is not zero. -/
def divide? (dividend divisor : Nat) : Option Nat :=
  if divisor = 0 then none else some (dividend / divisor)

/-- The quotient rounded toward zero: that of the magnitudes, with a minus sign if one side has
one. -/
def truncateDivide? (dividend divisor : Int) : Option Int :=
  (divide? dividend.natAbs divisor.natAbs).map fun quotient =>
    if decide (dividend < 0) != decide (divisor < 0) then -(quotient : Int) else quotient

/-- The rounded quotient, by the signs of the two sides. -/
theorem tdiv_eq_natAbs_div (dividend divisor : Int) :
    (if decide (dividend < 0) != decide (divisor < 0) then
        -((dividend.natAbs / divisor.natAbs : Nat) : Int)
      else (dividend.natAbs / divisor.natAbs : Nat)) = dividend.tdiv divisor := by
  have hpos : ∀ n : Nat, decide (Int.ofNat n < 0) = false := fun n =>
    decide_eq_false (Int.not_lt.2 (Int.natCast_nonneg n))
  have hneg : ∀ n : Nat, decide (Int.negSucc n < 0) = true := fun n =>
    decide_eq_true (Int.negSucc_lt_zero n)
  cases dividend with
  | ofNat a =>
      cases divisor with
      | ofNat b => rw [hpos, hpos]; rfl
      | negSucc b => rw [hpos, hneg]; rfl
  | negSucc a =>
      cases divisor with
      | ofNat b => rw [hneg, hpos]; rfl
      | negSucc b => rw [hneg, hneg]; rfl

theorem truncateDivide?_eq (dividend divisor : Int) :
    truncateDivide? dividend divisor = quotient? dividend divisor := by
  rw [truncateDivide?]
  by_cases hd : divisor = 0
  · rw [hd]
    rfl
  · rw [quotient?_of_ne_zero _ hd, divide?, if_neg (mt Int.natAbs_eq_zero.1 hd)]
    exact congrArg some (tdiv_eq_natAbs_div dividend divisor)

/-! ## The law of the remainder -/

/-- `RoundsTowardZero dividend divisor quotient`: the quotient times the divisor misses the dividend
by less than the divisor, on the side of zero. -/
structure RoundsTowardZero (dividend divisor quotient : Int) : Prop where
  /-- The remainder is of less magnitude than the divisor. -/
  remainder_lt : (dividend - quotient * divisor).natAbs < divisor.natAbs
  /-- It is zero or has the sign of the dividend. -/
  sign_remainder : dividend - quotient * divisor = 0 ∨
    (dividend - quotient * divisor).sign = dividend.sign

namespace RoundsTowardZero

variable {dividend divisor quotient : Int}

/-- Nothing is of less magnitude than zero. -/
theorem divisor_ne_zero (h : RoundsTowardZero dividend divisor quotient) : divisor ≠ 0 :=
  Int.natAbs_pos.1 (Nat.zero_lt_of_lt h.remainder_lt)

theorem remainder_nonneg (h : RoundsTowardZero dividend divisor quotient) (hd : 0 ≤ dividend) :
    0 ≤ dividend - quotient * divisor := by
  rcases h.sign_remainder with hz | hs
  · exact Int.le_of_eq hz.symm
  · exact Int.sign_nonneg_iff.1 (hs ▸ Int.sign_nonneg_iff.2 hd)

theorem remainder_nonpos (h : RoundsTowardZero dividend divisor quotient) (hd : dividend ≤ 0) :
    dividend - quotient * divisor ≤ 0 := by
  rcases h.sign_remainder with hz | hs
  · exact Int.le_of_eq hz
  · exact Int.sign_nonpos_iff.1 (hs ▸ Int.sign_nonpos_iff.2 hd)

/-- Only the rounded quotient obeys the law. -/
theorem tdiv_eq (h : RoundsTowardZero dividend divisor quotient) :
    dividend.tdiv divisor = quotient := by
  have hz := h.divisor_ne_zero
  have hlt := h.remainder_lt
  have he : dividend - quotient * divisor + divisor * quotient = dividend := by
    rw [Int.mul_comm divisor, Int.sub_add_cancel]
  -- a quotient and a remainder are unique between bounds, which depend on the side of the dividend
  rcases Int.le_total 0 dividend with hd | hd
  · have hr := h.remainder_nonneg hd
    exact ((Int.tdiv_tmod_unique hd hz).2 ⟨he, hr, by omega⟩).1
  · have hr := h.remainder_nonpos hd
    exact ((Int.tdiv_tmod_unique' hd hz).2 ⟨he, by omega, hr⟩).1

end RoundsTowardZero

/-- The rounded quotient obeys the law. -/
theorem roundsTowardZero_tdiv (dividend : Int) {divisor : Int} (h : divisor ≠ 0) :
    RoundsTowardZero dividend divisor (dividend.tdiv divisor) := by
  have hr : dividend - dividend.tdiv divisor * divisor = dividend.tmod divisor := by
    rw [Int.tmod_def, Int.mul_comm]
  constructor
  · rw [hr, Int.natAbs_tmod]
    exact Nat.mod_lt _ (Int.natAbs_pos.2 h)
  · rw [hr]
    by_cases hd : divisor ∣ dividend
    · exact Or.inl (Int.tmod_eq_zero_of_dvd hd)
    · exact Or.inr ((Int.sign_tmod ..).trans (if_neg hd))

/-! ## The quotient by its law -/

theorem quotient?_eq_none_iff {dividend divisor : Int} :
    quotient? dividend divisor = none ↔ divisor = 0 := by
  simp [quotient?]

/-- A number is the quotient exactly if it obeys the law. -/
theorem quotient?_eq_some_iff {dividend divisor quotient : Int} :
    quotient? dividend divisor = some quotient ↔
      RoundsTowardZero dividend divisor quotient := by
  constructor
  · intro h
    have hd : divisor ≠ 0 := fun hz => by simp [hz] at h
    rw [quotient?_of_ne_zero _ hd] at h
    cases h
    exact roundsTowardZero_tdiv dividend hd
  · intro h
    rw [quotient?_of_ne_zero _ h.divisor_ne_zero, h.tdiv_eq]

/-- A minus sign on one side is a minus sign of the quotient. -/
theorem quotient?_neg_left (dividend divisor : Int) :
    quotient? (-dividend) divisor = (quotient? dividend divisor).map Neg.neg := by
  by_cases hd : divisor = 0
  · rw [hd]
    rfl
  · rw [quotient?_of_ne_zero _ hd, quotient?_of_ne_zero _ hd, Int.neg_tdiv]
    rfl

theorem quotient?_neg_right (dividend divisor : Int) :
    quotient? dividend (-divisor) = (quotient? dividend divisor).map Neg.neg := by
  by_cases hd : divisor = 0
  · rw [hd]
    rfl
  · rw [quotient?_of_ne_zero _ hd, quotient?_of_ne_zero _ (mt Int.neg_eq_zero.1 hd), Int.tdiv_neg]
    rfl

/-- The quotient of the magnitudes with the sign of both sides fails for a divisor of zero only.
Otherwise it is the one number that obeys the law of the remainder, and a minus sign on either side
is a minus sign of the quotient. -/
theorem division_rounds_toward_zero (dividend divisor : Int) :
    truncateDivide? dividend divisor = quotient? dividend divisor ∧
    (quotient? dividend divisor = none ↔ divisor = 0) ∧
    (∀ quotient, quotient? dividend divisor = some quotient ↔
      RoundsTowardZero dividend divisor quotient) ∧
    quotient? (-dividend) divisor = (quotient? dividend divisor).map Neg.neg ∧
    quotient? dividend (-divisor) = (quotient? dividend divisor).map Neg.neg :=
  ⟨truncateDivide?_eq dividend divisor, quotient?_eq_none_iff, fun _ => quotient?_eq_some_iff,
    quotient?_neg_left dividend divisor, quotient?_neg_right dividend divisor⟩

end Calculator
