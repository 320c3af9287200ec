import Mathlib
import SkySources.Fit
import SkySources.Proofs.Gaussian.Height

/-!
# The normal angle of an axis

An axis has the same direction after half a turn. Over exact numbers, the angle that is
normalised is the representative of the angle modulo half a turn that lies above minus and up
to plus a quarter turn, although the division behind it rounds its quotient toward zero, so
that negative and positive angles are not reduced alike.

What is proved:
  1. `abs_sub_wholePart_lt`: what is left by the whole part is less than one, of either sign;
  2. `abs_leftOver_lt`: so less than half a turn is left by the division;
  3. `normaliseAngle_real`: and one half turn more brings it into the interval;
  4. `normaliseAngle?_normal`: the normal angle is the only one there that is half turns away,
     so it stays when it is normalised again, and after any half turns.
-/

namespace SkySources

open Exact

namespace Exact

theorem pi_eq : (Scalar.pi : Exact) = real Real.pi := rfl

theorem abs_sub_wholePart_lt (x : ℝ) : |x - wholePart x| < 1 := by
  rw [wholePart, abs_lt]
  split
  · have hle := Int.le_ceil x
    have hlt := Int.ceil_lt_add_one x
    constructor <;> linarith
  · have hle := Int.floor_le x
    have hlt := Int.lt_floor_add_one x
    constructor <;> linarith

theorem remainder_real {y : ℝ} (x : ℝ) (h : y ≠ 0) :
    Scalar.remainder (real x) (real y) = real (x - y * wholePart (x / y)) := if_neg h

end Exact

namespace Fit

/-- The representative of an angle modulo half a turn that lies above minus and up to plus a
quarter turn. -/
noncomputable def axisAngle (theta : ℝ) : ℝ := toIocMod Real.pi_pos (-half Real.pi) theta

/-- What the division of an angle by half a turn leaves. -/
noncomputable def leftOver (theta : ℝ) : ℝ := theta - Real.pi * wholePart (theta / Real.pi)

theorem abs_leftOver_lt (theta : ℝ) : |leftOver theta| < Real.pi := by
  have hpi := Real.pi_pos
  have heq : leftOver theta = Real.pi * (theta / Real.pi - wholePart (theta / Real.pi)) := by
    rw [leftOver, mul_sub, mul_div_cancel₀ theta hpi.ne']
  rw [heq, abs_mul, abs_of_pos hpi]
  exact mul_lt_of_lt_one_right hpi (abs_sub_wholePart_lt _)

/-- A number in the interval that differs from an angle by half turns is its representative. -/
theorem axisAngle_eq {theta phi : ℝ} (k : ℤ) (hlow : -(Real.pi / 2) < phi)
    (hhigh : phi ≤ Real.pi / 2) (h : theta = phi + k * Real.pi) : axisAngle theta = phi := by
  refine (toIocMod_eq_iff Real.pi_pos).2 ⟨?_, k, ?_⟩
  · rw [half_def]
    exact ⟨hlow, by linarith⟩
  · rw [zsmul_eq_mul]
    exact h

theorem axisAngle_add_mul_pi (theta : ℝ) (k : ℤ) :
    axisAngle (theta + k * Real.pi) = axisAngle theta := by
  rw [axisAngle, ← zsmul_eq_mul]
  exact toIocMod_add_zsmul Real.pi_pos _ theta k

theorem axisAngle_axisAngle (theta : ℝ) : axisAngle (axisAngle theta) = axisAngle theta :=
  toIocMod_toIocMod Real.pi_pos _ _ theta

/-- An angle is half turns away from its representative. -/
theorem exists_eq_axisAngle_add (theta : ℝ) : ∃ k : ℤ, theta = axisAngle theta + k * Real.pi := by
  refine ⟨toIocDiv Real.pi_pos (-half Real.pi) theta, ?_⟩
  rw [axisAngle, ← zsmul_eq_mul, toIocMod_add_toIocDiv_zsmul]

/-- Over exact numbers the angle that is normalised is the representative. -/
theorem normaliseAngle_real (theta : ℝ) : normaliseAngle (real theta) = real (axisAngle theta) := by
  have hpi := Real.pi_pos
  obtain ⟨hlow, hhigh⟩ := abs_lt.1 (abs_leftOver_lt theta)
  have hrest : Scalar.remainder (real theta) (real Real.pi) = real (leftOver theta) :=
    remainder_real theta hpi.ne'
  simp only [normaliseAngle, pi_eq, hrest, two_eq, neg_real, div_real _ two_ne_zero, lt_real,
    le_real, sub_real, add_real]
  -- the whole part of the quotient counts the half turns that the division takes off
  have htheta : theta = leftOver theta + wholePart (theta / Real.pi) * Real.pi := by
    rw [leftOver]
    ring
  split
  · next habove =>
    refine congrArg real (axisAngle_eq (wholePart (theta / Real.pi) + 1) ?_ ?_ ?_).symm
    · linarith
    · linarith
    · push_cast
      linarith
  · next habove =>
    rw [not_lt] at habove
    split
    · next hbelow =>
      refine congrArg real (axisAngle_eq (wholePart (theta / Real.pi) - 1) ?_ ?_ ?_).symm
      · linarith
      · linarith
      · push_cast
        linarith
    · next hbelow =>
      refine congrArg real (axisAngle_eq (wholePart (theta / Real.pi)) ?_ habove htheta).symm
      linarith [not_le.1 hbelow]

/-! ## The only normal angle -/

/-- The second angle is a normal one of the first: it lies above minus and up to plus a quarter
turn, and is half turns away. -/
structure IsNormal (theta phi : ℝ) : Prop where
  above : -(Real.pi / 2) < phi
  upTo : phi ≤ Real.pi / 2
  halfTurns : ∃ k : ℤ, theta = phi + k * Real.pi

theorem isNormal_axisAngle (theta : ℝ) : IsNormal theta (axisAngle theta) := by
  obtain ⟨hlow, hhigh⟩ := toIocMod_mem_Ioc Real.pi_pos (-half Real.pi) theta
  rw [half_def] at hlow hhigh
  refine ⟨?_, ?_, exists_eq_axisAngle_add theta⟩
  · rw [axisAngle, half_def]
    exact hlow
  · rw [axisAngle, half_def]
    linarith

/-- An angle has no normal one but its representative. -/
theorem isNormal_iff {theta phi : ℝ} : IsNormal theta phi ↔ phi = axisAngle theta := by
  refine ⟨fun h => ?_, fun h => ?_⟩
  · obtain ⟨k, hk⟩ := h.halfTurns
    exact (axisAngle_eq k h.above h.upTo hk).symm
  · rw [h]
    exact isNormal_axisAngle theta

theorem normaliseAngle?_real (theta : ℝ) :
    normaliseAngle? (real theta) = some (real (axisAngle theta)) := by
  rw [normaliseAngle?, isFinite_real, Bool.not_true, Bool.and_false, normaliseAngle_real]
  rfl

/-- Every real angle can be normalised, and what comes out is its only normal angle. Normalising
that again changes nothing, and neither does any number of half turns before. -/
theorem normaliseAngle?_normal (theta : ℝ) : ∃ phi : ℝ,
    normaliseAngle? (real theta) = some (real phi) ∧
      (∀ psi, IsNormal theta psi ↔ psi = phi) ∧
      normaliseAngle? (real phi) = some (real phi) ∧
      ∀ k : ℤ, normaliseAngle? (real (theta + k * Real.pi)) = some (real phi) := by
  refine ⟨axisAngle theta, normaliseAngle?_real theta, fun psi => isNormal_iff, ?_, ?_⟩
  · rw [normaliseAngle?_real, axisAngle_axisAngle]
  · intro k
    rw [normaliseAngle?_real, axisAngle_add_mul_pi]

end Fit
end SkySources
