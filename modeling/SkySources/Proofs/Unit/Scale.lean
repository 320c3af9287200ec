import Mathlib
import SkySources.Proofs.Exact

/-!
# Numbers in another unit

A number in a unit that is smaller by a positive factor is larger by that factor
(`scale`). Infinities and a missing number stay what they are. All that the library
computes from intensities alone goes through a change of unit: sums, differences,
distances, roots of squares and comparisons. A quotient of two intensities does not
change at all, since dividing by an intensity is measured in the inverse unit
(`div_scale`).
-/

namespace SkySources.Exact

/-- The number in another unit. -/
noncomputable def scale (k : ℝ) (a : Exact) : Exact := real k * a

@[simp] theorem scale_real (k x : ℝ) : scale k (real x) = real (k * x) := rfl

theorem scale_zero (k : ℝ) : scale k 0.0 = 0.0 := by
  rw [zero_eq, scale_real, mul_zero]

section Positive
variable {k : ℝ} (hk : 0 < k) (a b : Exact)
include hk

theorem scale_infinite (s : Bool) : scale k (infinite s) = infinite s := by
  change stretch s k = infinite s
  rw [stretch, if_neg hk.ne', if_neg hk.not_gt]

/-! ## Arithmetic -/

/-- An infinity times a number does not depend on the unit of the number. -/
theorem stretch_scale (s : Bool) (x : ℝ) : stretch s (k * x) = stretch s x := by
  unfold stretch
  simp only [mul_eq_zero, hk.ne', false_or, mul_neg_iff, hk, hk.not_gt, true_and, false_and,
    or_false]

theorem scale_stretch (s : Bool) (x : ℝ) : scale k (stretch s x) = stretch s x := by
  unfold stretch
  split
  · rfl
  · split <;> exact scale_infinite hk _

theorem scale_add : scale k (a + b) = scale k a + scale k b := by
  cases a with
  | real x =>
    cases b with
    | real y => exact congrArg real (mul_add k x y)
    | infinite t => exact (scale_infinite hk t).trans (by rw [scale_infinite hk]; rfl)
    | missing => rfl
  | infinite s =>
    cases b with
    | real y =>
      rw [scale_infinite hk]
      exact scale_infinite hk s
    | infinite t =>
      rw [scale_infinite hk, scale_infinite hk]
      change scale k (if s = t then infinite s else missing) = if s = t then infinite s else missing
      split
      · exact scale_infinite hk s
      · rfl
    | missing =>
      rw [scale_infinite hk]
      rfl
  | missing => cases b <;> rfl

omit hk in
theorem scale_neg : scale k (-a) = -scale k a := mul_neg (real k) a

theorem scale_sub : scale k (a - b) = scale k a - scale k b := by
  rw [sub_eq, scale_add hk, scale_neg, sub_eq]

theorem scale_mul : scale k a * b = scale k (a * b) := by
  cases a with
  | real x =>
    cases b with
    | real y => exact congrArg real (mul_assoc k x y)
    | infinite t => exact (stretch_scale hk t x).trans (scale_stretch hk t x).symm
    | missing => rfl
  | infinite s =>
    rw [scale_infinite hk]
    cases b with
    | real y => exact (scale_stretch hk s y).symm
    | infinite t => exact (scale_infinite hk (xor s t)).symm
    | missing => rfl
  | missing => cases b <;> rfl

theorem mul_scale : a * scale k b = scale k (a * b) := by
  rw [mul_comm_eq, scale_mul hk, mul_comm_eq]

theorem scale_div : scale k a / b = scale k (a / b) := by
  cases a with
  | real x =>
    cases b with
    | real y =>
      change (if y = 0 then stretch false (k * x) else real (k * x / y)) =
        scale k (if y = 0 then stretch false x else real (x / y))
      split
      · exact (stretch_scale hk false x).trans (scale_stretch hk false x).symm
      · rw [scale_real, mul_div_assoc]
    | infinite t => exact congrArg real (mul_zero k).symm
    | missing => rfl
  | infinite s =>
    rw [scale_infinite hk]
    cases b with
    | real y =>
      change (if y < 0 then infinite !s else infinite s) =
        scale k (if y < 0 then infinite !s else infinite s)
      split <;> exact (scale_infinite hk _).symm
    | infinite t => rfl
    | missing => rfl
  | missing => cases b <;> rfl

/-- Dividing by an intensity is measured in the inverse unit. -/
theorem div_scale : a / scale k b = scale k⁻¹ (a / b) := by
  have hinv := inv_pos.2 hk
  cases a with
  | real x =>
    cases b with
    | real y =>
      change (if k * y = 0 then stretch false x else real (x / (k * y))) =
        scale k⁻¹ (if y = 0 then stretch false x else real (x / y))
      simp only [mul_eq_zero, hk.ne', false_or]
      split
      · exact (scale_stretch hinv false x).symm
      · rw [scale_real, div_mul_eq_div_div_swap, div_eq_inv_mul (x / y)]
    | infinite t =>
      rw [scale_infinite hk]
      exact congrArg real (mul_zero k⁻¹).symm
    | missing => rfl
  | infinite s =>
    cases b with
    | real y =>
      change (if k * y < 0 then infinite !s else infinite s) =
        scale k⁻¹ (if y < 0 then infinite !s else infinite s)
      simp only [mul_neg_iff, hk, hk.not_gt, true_and, false_and, or_false]
      split <;> exact (scale_infinite hinv _).symm
    | infinite t =>
      rw [scale_infinite hk]
      rfl
    | missing => rfl
  | missing => cases b <;> rfl

theorem scale_scale_inv : scale k (scale k⁻¹ a) = a := by
  cases a with
  | real x => exact congrArg real (mul_inv_cancel_left₀ hk.ne' x)
  | infinite s => rw [scale_infinite (inv_pos.2 hk), scale_infinite hk]
  | missing => rfl

/-- An intensity times a number per intensity does not depend on the unit. -/
theorem scale_mul_scale_inv : scale k a * scale k⁻¹ b = a * b := by
  rw [scale_mul hk, mul_scale (inv_pos.2 hk), scale_scale_inv hk]

theorem square_scale : Scalar.square (scale k a) = scale k (scale k (Scalar.square a)) := by
  rw [Scalar.square, scale_mul hk, mul_scale hk]
  rfl

/-- The root of a number in the squared unit. -/
theorem sqrt_scale : Scalar.sqrt (scale k (scale k a)) = scale k (Scalar.sqrt a) := by
  cases a with
  | real x =>
    have hsquare : k * (k * x) = k ^ 2 * x := by ring
    change (if k * (k * x) < 0 then missing else real √(k * (k * x))) =
      scale k (if x < 0 then missing else real √x)
    simp only [mul_neg_iff, hk, hk.not_gt, true_and, false_and, or_false]
    split
    · rfl
    · rw [scale_real, hsquare, Real.sqrt_mul (sq_nonneg k), Real.sqrt_sq hk.le]
  | infinite s =>
    rw [scale_infinite hk, scale_infinite hk]
    cases s with
    | false => exact (scale_infinite hk false).symm
    | true => rfl
  | missing => rfl

/-! ## Comparisons -/

@[simp] theorem isFinite_scale : Scalar.isFinite (scale k a) = Scalar.isFinite a := by
  cases a with
  | real x => rfl
  | infinite s => rw [scale_infinite hk]
  | missing => rfl

theorem scale_lt_scale : scale k a < scale k b ↔ a < b := by
  cases a with
  | real x =>
    cases b with
    | real y => exact mul_lt_mul_iff_right₀ hk
    | infinite t =>
      rw [scale_infinite hk]
      exact Iff.rfl
    | missing => exact Iff.rfl
  | infinite s =>
    rw [scale_infinite hk]
    cases b with
    | real y => exact Iff.rfl
    | infinite t => rw [scale_infinite hk]
    | missing => exact Iff.rfl
  | missing => cases b <;> exact Iff.rfl

theorem scale_le_scale : scale k a ≤ scale k b ↔ a ≤ b := by
  cases a with
  | real x =>
    cases b with
    | real y => exact mul_le_mul_iff_right₀ hk
    | infinite t =>
      rw [scale_infinite hk]
      exact Iff.rfl
    | missing => exact Iff.rfl
  | infinite s =>
    rw [scale_infinite hk]
    cases b with
    | real y => exact Iff.rfl
    | infinite t => rw [scale_infinite hk]
    | missing => exact Iff.rfl
  | missing => cases b <;> exact Iff.rfl

theorem isNumber_scale : Scalar.isNumber (scale k a) = Scalar.isNumber a :=
  decide_eq_decide.2 (scale_le_scale hk a a)

theorem sameValue_scale : Scalar.sameValue (scale k a) (scale k b) = Scalar.sameValue a b := by
  simp only [Scalar.sameValue, scale_le_scale hk]

theorem abs_scale : Scalar.abs (scale k a) = scale k (Scalar.abs a) := by
  have hzero : scale k a < 0.0 ↔ a < 0.0 := by
    rw [← scale_lt_scale hk a 0.0, scale_zero]
  simp only [Scalar.abs, hzero]
  split
  · exact (scale_neg a).symm
  · rfl

theorem larger_scale : Scalar.larger (scale k a) (scale k b) = scale k (Scalar.larger a b) := by
  simp only [Scalar.larger, scale_lt_scale hk]
  split <;> rfl

end Positive
end SkySources.Exact
