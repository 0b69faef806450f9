-- SUMMARY: Division of integers toward zero: the quotient is the exact one without its fraction, the remainder belongs to it, and signs go through both.
import Mathlib.Data.Rat.Floor
import Cascade.Fact.Arithmetic

/-! # Division toward zero

The quotient of two integers is made of the quotient of their magnitudes, and its
sign of a test that counts zero as positive. It is the exact quotient without its
fraction all the same, because a quotient of magnitudes that gets the wrong sign is
zero. The remainder is what the quotient leaves of the dividend, so it is as small as
a remainder of magnitudes and has the sign of the dividend. -/

namespace Cascade

/-! ## Numbers without their fractions -/

/-- A rational number rounded toward zero. -/
def towardZero (x : ℚ) : ℤ := if 0 ≤ x then ⌊x⌋ else ⌈x⌉

@[simp]
theorem towardZero_neg (x : ℚ) : towardZero (-x) = -towardZero x := by
  unfold towardZero
  rcases lt_trichotomy x 0 with negative | rfl | positive
  · rw [if_pos (neg_nonneg.mpr negative.le), if_neg negative.not_ge, Int.floor_neg]
  · simp
  · rw [if_neg (neg_lt_zero.mpr positive).not_ge, if_pos positive.le, Int.ceil_neg]

/-- Rounding the exact quotient of two integers toward zero is the division of
    integers that the library names for it. -/
theorem towardZero_div (a b : ℤ) : towardZero (a / b) = a.tdiv b := by
  have magnitudes (m n : ℕ) : towardZero ((m : ℤ) / (n : ℤ)) = (m : ℤ).tdiv n := by
    have positive : (0 : ℚ) ≤ (m : ℤ) / (n : ℤ) := by positivity
    rw [towardZero, if_pos positive, Int.cast_natCast n, Rat.floor_intCast_div_natCast,
      Int.tdiv_eq_ediv_of_nonneg (Int.natCast_nonneg m)]
  -- both sides are odd in the dividend and in the divisor
  obtain ⟨m, rfl | rfl⟩ := a.eq_nat_or_neg <;> obtain ⟨n, rfl | rfl⟩ := b.eq_nat_or_neg <;>
    simp only [Int.cast_neg, neg_div, div_neg, towardZero_neg, Int.neg_tdiv, Int.tdiv_neg,
      magnitudes]

/-! ## Quotient and remainder -/

/-- A quotient and a remainder as rounding toward zero has them: the quotient is the
    exact one without its fraction, and the remainder, which belongs to it, is smaller
    than the divisor and not of the other sign than the dividend. -/
structure TruncatedDivision (a b q r : ℤ) : Prop where
  rounded : q = towardZero (a / b)
  division : a = b * q + r
  small : |r| < |b|
  sign : r = 0 ∨ r.sign = a.sign

theorem truncatedQuotient_eq (a b : ℤ) : truncatedQuotient a b = a.tdiv b := by
  -- the division of the library goes by the constructors, of which zero is on the positive side
  cases a with
  | ofNat m =>
    cases b with
    | ofNat n => simp [truncatedQuotient]
    | negSucc n => simp [truncatedQuotient, Int.tdiv]
  | negSucc m =>
    cases b with
    | ofNat n => simp [truncatedQuotient, Int.tdiv]
    | negSucc n => simp [truncatedQuotient, Int.tdiv]

theorem truncatedRemainder_eq (a b : ℤ) : truncatedRemainder a b = a.tmod b := by
  rw [truncatedRemainder, truncatedQuotient_eq, Int.tmod_def]

theorem truncatedDivision_of_ne_zero (a : ℤ) {b : ℤ} (nonzero : b ≠ 0) :
    TruncatedDivision a b (truncatedQuotient a b) (truncatedRemainder a b) where
  rounded := by rw [truncatedQuotient_eq, towardZero_div]
  division := by
    unfold truncatedRemainder
    ring
  small := by
    rw [truncatedRemainder_eq, Int.abs_eq_natAbs, Int.abs_eq_natAbs, Int.natAbs_tmod]
    exact_mod_cast Nat.mod_lt _ (Int.natAbs_pos.mpr nonzero)
  sign := by
    rw [truncatedRemainder_eq, Int.sign_tmod]
    by_cases exact : b ∣ a
    · exact .inl (Int.tmod_eq_zero_of_dvd exact)
    · exact .inr (if_neg exact)

/-! ## Signs -/

section Signs

variable (a b : ℤ)

@[simp]
theorem truncatedQuotient_neg_left : truncatedQuotient (-a) b = -truncatedQuotient a b := by
  simp only [truncatedQuotient_eq, Int.neg_tdiv]

@[simp]
theorem truncatedQuotient_neg_right : truncatedQuotient a (-b) = -truncatedQuotient a b := by
  simp only [truncatedQuotient_eq, Int.tdiv_neg]

@[simp]
theorem truncatedRemainder_neg_left : truncatedRemainder (-a) b = -truncatedRemainder a b := by
  simp only [truncatedRemainder_eq, Int.neg_tmod]

@[simp]
theorem truncatedRemainder_neg_right : truncatedRemainder a (-b) = truncatedRemainder a b := by
  simp only [truncatedRemainder_eq, Int.tmod_neg]

end Signs

/-! ## Operators -/

theorem Arithmetic.ofName?_name (op : Arithmetic) : ofName? op.name = some op := by
  cases op <;> rfl

namespace Fact

/-- An operator that is asked for by its name is that operator. -/
theorem arithmeticNamed_name (op : Arithmetic) (l r : Fact) :
    arithmeticNamed op.name l r = arithmetic op l r := by
  rw [arithmeticNamed, op.ofName?_name]

theorem arithmetic_div (a b : ℤ) :
    arithmetic .div (.int a) (.int b)
      = if b = 0 then .error .divisionByZero else .ok (.int (truncatedQuotient a b)) := rfl

theorem arithmetic_mod (a b : ℤ) :
    arithmetic .mod (.int a) (.int b)
      = if b = 0 then .error .moduloByZero else .ok (.int (truncatedRemainder a b)) := rfl

end Fact

end Cascade
