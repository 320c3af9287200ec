import Mathlib
import SkySources.Gaussian
import SkySources.Proofs.Exact

/-!
# Gaussians of real parameters

Over exact numbers, a Gaussian whose parameters are real numbers and whose axes are not zero
has a real value everywhere. Everything that is computed of it is then computed in the real
numbers, where the laws of arithmetic hold.

What is proved:
  1. `form_exact`, `value_exact`: the form in the exponent and the value are real;
  2. `evalReal_turned`: the form is that of the ellipse of the axes, turned by the angle;
  3. `evalReal_ellipse_eq_zero`: so it vanishes at the centre only.
-/

namespace SkySources

open Exact

/-- Half of a real number. -/
noncomputable def half (x : ℝ) : ℝ := x / (2 : ℕ)

theorem half_def (x : ℝ) : half x = x / 2 := by
  rw [half, Nat.cast_ofNat]

namespace Exact

theorem half_eq : (0.5 : Exact) = real (1 / 2) := by
  rw [ofScientific_eq]
  norm_num

theorem quarter_eq : (0.25 : Exact) = real (1 / 4) := by
  rw [ofScientific_eq]
  norm_num

variable (x y : ℝ)

@[simp] theorem square_real : Scalar.square (real x) = real (x ^ 2) :=
  congrArg real (pow_two x).symm

@[simp] theorem cube_real : Scalar.cube (real x) = real (x ^ 3) :=
  congrArg real (pow_three' x).symm

@[simp] theorem sin_real : Scalar.sin (real x) = real (Real.sin x) := rfl
@[simp] theorem cos_real : Scalar.cos (real x) = real (Real.cos x) := rfl
@[simp] theorem exp_real : Scalar.exp (real x) = real (Real.exp x) := rfl

end Exact

/-! ## Forms -/

namespace QuadraticForm

/-- The form of exact numbers with real coefficients. -/
def exact (q : QuadraticForm ℝ) : QuadraticForm Exact := ⟨real q.a, real q.b, real q.c⟩

/-- The value of a form with real coefficients. -/
def evalReal (q : QuadraticForm ℝ) (dx dy : ℝ) : ℝ :=
  q.a * dx ^ 2 + (q.b + q.b) * dx * dy + q.c * dy ^ 2

theorem eval_exact (q : QuadraticForm ℝ) (dx dy : ℝ) :
    q.exact.eval (real dx) (real dy) = real (q.evalReal dx dy) := by
  simp only [eval, exact, two_eq, square_real, mul_real, add_real, evalReal, two_mul]

end QuadraticForm

namespace Gaussian

/-- The Gaussian of exact numbers with real parameters. -/
def exact (g : Gaussian ℝ) : Gaussian Exact := g.map real

/-- No axis of a Gaussian is zero. -/
structure HasAxes (g : Gaussian ℝ) : Prop where
  major : g.semimajor ≠ 0
  minor : g.semiminor ≠ 0

/-- The form of an ellipse that is turned by an angle, from the inverse squares of its axes. -/
noncomputable def turned (major minor theta : ℝ) : QuadraticForm ℝ :=
  { a := half (Real.cos theta ^ 2 * major + Real.sin theta ^ 2 * minor)
    b := half (Real.sin theta * Real.cos theta * (major - minor))
    c := half (Real.sin theta ^ 2 * major + Real.cos theta ^ 2 * minor) }

/-- The form in the exponent of a Gaussian. -/
noncomputable def ellipse (g : Gaussian ℝ) : QuadraticForm ℝ :=
  turned (1 / g.semimajor ^ 2) (1 / g.semiminor ^ 2) g.theta

/-- The height of the bell of a form over a point. -/
noncomputable def bump (q : QuadraticForm ℝ) (dx dy : ℝ) : ℝ := Real.exp (-q.evalReal dx dy)

/-- The height of a Gaussian over a point. -/
noncomputable def height (g : Gaussian ℝ) (x y : ℝ) : ℝ :=
  g.amplitude * bump g.ellipse (x - g.xCentre) (y - g.yCentre)

variable {g : Gaussian ℝ}

theorem form_exact (h : g.HasAxes) : g.exact.form = g.ellipse.exact := by
  have hmajor : g.semimajor ^ 2 ≠ 0 := pow_ne_zero 2 h.major
  have hminor : g.semiminor ^ 2 ≠ 0 := pow_ne_zero 2 h.minor
  simp only [form, exact, map, half_eq, quarter_eq, one_eq, two_eq, square_real, sin_real,
    cos_real, div_real _ hmajor, div_real _ hminor, mul_real, add_real, sub_real,
    QuadraticForm.exact, ellipse, turned, half_def, Real.sin_two_mul]
  congr 2 <;> ring

theorem bell_exact (g : Gaussian ℝ) (q : QuadraticForm ℝ) (x y : ℝ) :
    g.exact.bell q.exact (real x) (real y) = real (bump q (x - g.xCentre) (y - g.yCentre)) := by
  simp only [bell, exact, map, sub_real, QuadraticForm.eval_exact, neg_real, exp_real, bump]

/-- A Gaussian with axes has a real value everywhere. -/
theorem value_exact (h : g.HasAxes) (x y : ℝ) :
    g.exact.value (real x) (real y) = real (g.height x y) := by
  rw [value, form_exact h, valueWith, bell_exact]
  rfl

/-! ## The ellipse -/

/-- Along the turned axes the form is a sum of two squares. -/
theorem evalReal_turned (major minor theta dx dy : ℝ) : (turned major minor theta).evalReal dx dy =
    1 / 2 * (major * (Real.cos theta * dx + Real.sin theta * dy) ^ 2 +
      minor * (Real.cos theta * dy - Real.sin theta * dx) ^ 2) := by
  simp only [QuadraticForm.evalReal, turned, half_def]
  ring

theorem evalReal_ellipse_nonneg (g : Gaussian ℝ) (dx dy : ℝ) : 0 ≤ g.ellipse.evalReal dx dy := by
  rw [ellipse, evalReal_turned]
  positivity

/-- The form vanishes at the centre only. -/
theorem evalReal_ellipse_eq_zero (h : g.HasAxes) {dx dy : ℝ} (h0 : g.ellipse.evalReal dx dy = 0) :
    dx = 0 ∧ dy = 0 := by
  have hmajor : 0 < 1 / g.semimajor ^ 2 := one_div_pos.2 (sq_pos_of_ne_zero h.major)
  have hminor : 0 < 1 / g.semiminor ^ 2 := one_div_pos.2 (sq_pos_of_ne_zero h.minor)
  rw [ellipse, evalReal_turned] at h0
  -- both squares vanish, so both coordinates along the axes do
  obtain ⟨hu, hv⟩ := (add_eq_zero_iff_of_nonneg (by positivity) (by positivity)).1
    ((mul_eq_zero_iff_left (by norm_num)).1 h0)
  have hu := pow_eq_zero_iff two_ne_zero |>.1 ((mul_eq_zero_iff_left hmajor.ne').1 hu)
  have hv := pow_eq_zero_iff two_ne_zero |>.1 ((mul_eq_zero_iff_left hminor.ne').1 hv)
  have hone := Real.sin_sq_add_cos_sq g.theta
  constructor
  · linear_combination Real.cos g.theta * hu - Real.sin g.theta * hv - dx * hone
  · linear_combination Real.sin g.theta * hu + Real.cos g.theta * hv - dy * hone

end Gaussian
end SkySources
