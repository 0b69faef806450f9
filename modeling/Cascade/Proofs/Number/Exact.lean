-- SUMMARY: The exact comparison of numbers is the order of the values they stand for.
import Mathlib.Algebra.Order.Field.Power
import Mathlib.Algebra.Order.Field.Rat
import Mathlib.Algebra.Order.Ring.Cast
import Mathlib.Order.WithBot
import Mathlib.Tactic.Positivity
import Cascade.Number.Exact

/-! # Exact values in order

A finite number stands for a rational, and comparing two numbers at the lower of
their powers of two is comparing the rationals. With the infinite numbers at
the ends this is a linear order. What is not a number has no place in it. -/

namespace Cascade.Exact

/-- What a number stands for; what is not a number stands for nothing. -/
def value : Exact → WithBot (WithTop ℚ)
  | .nan => ⊥
  | .infinite true => ⊥
  | .infinite false => ((⊤ : WithTop ℚ) : WithBot (WithTop ℚ))
  | .finite m e => ((m * 2 ^ e : ℚ) : WithTop ℚ)

/-- A multiple of a lower power of two stands for the same value. -/
theorem scaled_value (m : Int) {e floor : Int} (h : floor ≤ e) :
    (scaled m e floor : ℚ) * 2 ^ floor = m * 2 ^ e := by
  have steps : ((e - floor).toNat : ℤ) = e - floor := Int.toNat_of_nonneg (by omega)
  have power : ((Nat.pow 2 (e - floor).toNat : ℕ) : ℚ) = 2 ^ (e - floor) := by
    rw [← steps, zpow_natCast]
    exact Nat.cast_pow 2 _
  have two : (2 : ℚ) ≠ 0 := by norm_num
  rw [scaled, Int.cast_mul, Int.cast_natCast, power, mul_assoc, ← zpow_add₀ two, sub_add_cancel]

theorem value_lt_finite (a p b q : Int) :
    value (.finite b q) < value (.finite a p) ↔ (b * 2 ^ q : ℚ) < a * 2 ^ p := by
  simp only [value, WithBot.coe_lt_coe, WithTop.coe_lt_coe]

/-- A number compares as greater than another one exactly if it stands for a
    greater value. -/
theorem compare?_gt {x y : Exact} (hx : x ≠ .nan) (hy : y ≠ .nan) :
    x.compare? y = some .gt ↔ y.value < x.value := by
  cases x with
  | nan => exact absurd rfl hx
  | infinite n =>
    cases y with
    | nan => exact absurd rfl hy
    | infinite m => cases n <;> cases m <;> simp [compare?, value]
    | finite b q =>
      cases n with
      | true => simp [compare?, value]
      | false =>
        have below : value (.finite b q) < value (.infinite false) :=
          WithBot.coe_lt_coe.mpr (WithTop.coe_lt_top _)
        simp [compare?, below]
  | finite a p =>
    cases y with
    | nan => exact absurd rfl hy
    | infinite m =>
      cases m with
      | true =>
        have above : value (.infinite true) < value (.finite a p) := WithBot.bot_lt_coe _
        simp [compare?, above]
      | false =>
        have below : value (.finite a p) ≤ value (.infinite false) := WithBot.coe_le_coe.mpr le_top
        simp [compare?, below.not_gt]
    | finite b q =>
      have positive : (0 : ℚ) < 2 ^ min p q := by positivity
      rw [value_lt_finite, ← scaled_value a (min_le_left p q), ← scaled_value b (min_le_right p q),
        mul_lt_mul_iff_left₀ positive, Int.cast_lt]
      simp [compare?, compare_gt_iff_gt]

end Cascade.Exact
