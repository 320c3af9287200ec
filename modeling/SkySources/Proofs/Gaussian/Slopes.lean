import Mathlib
import SkySources.Proofs.Gaussian.Height

/-!
# The derivatives of a Gaussian

A Gaussian is changed one parameter at a time (`Parameter.set`). Over exact numbers, what is
computed for a parameter is the derivative of the value along that parameter. The angle and
the axes only act through the three coefficients of the form in the exponent, so for these
it is enough to know the derivatives of the coefficients (`hasDerivAt_form`).

What is proved:
  1. `formSlope_turned`, `formSlope_theta`: how the coefficients change with the axes and
     with the angle;
  2. `slopes_exact`, `derivatives_exact`: what is computed is real;
  3. `hasDerivAt_height`: how the height over a point changes along each parameter;
  4. `derivatives_isSlope`: so every derivative that is computed is that of the value.
-/

namespace SkySources

open Exact Filter Topology

namespace Exact

/-- Around a real number the values of a function are real, and its derivative there is
the given number. -/
def IsSlope (f : ℝ → Exact) (d : Exact) (t : ℝ) : Prop :=
  ∃ (f' : ℝ → ℝ) (d' : ℝ), (∀ᶠ u in 𝓝 t, f u = real (f' u)) ∧ d = real d' ∧ HasDerivAt f' d' t

end Exact

namespace Gaussian

/-- What a Gaussian is changed by. -/
inductive Parameter where
  | amplitude
  | xCentre
  | yCentre
  | semimajor
  | semiminor
  | theta
  deriving DecidableEq, Repr

namespace Parameter
variable {α : Type}

/-- The number of a Gaussian for a parameter. -/
def get (g : Gaussian α) : Parameter → α
  | amplitude => g.amplitude
  | xCentre => g.xCentre
  | yCentre => g.yCentre
  | semimajor => g.semimajor
  | semiminor => g.semiminor
  | theta => g.theta

/-- The Gaussian with another number for one parameter. -/
def set (g : Gaussian α) (x : α) : Parameter → Gaussian α
  | amplitude => { g with amplitude := x }
  | xCentre => { g with xCentre := x }
  | yCentre => { g with yCentre := x }
  | semimajor => { g with semimajor := x }
  | semiminor => { g with semiminor := x }
  | theta => { g with theta := x }

end Parameter

/-! ## The form along its parameters -/

/-- The coefficients of a form change at the given rates. -/
structure FormSlope (q : ℝ → QuadraticForm ℝ) (d : QuadraticForm ℝ) (t : ℝ) : Prop where
  a : HasDerivAt (fun u => (q u).a) d.a t
  b : HasDerivAt (fun u => (q u).b) d.b t
  c : HasDerivAt (fun u => (q u).c) d.c t

/-- The slopes of a Gaussian with real parameters. -/
noncomputable def rates (g : Gaussian ℝ) : Slopes ℝ :=
  let sin := Real.sin g.theta
  let cos := Real.cos g.theta
  let difference := 1 / g.semimajor ^ 2 - 1 / g.semiminor ^ 2
  { form := g.ellipse
    alongMajor := ⟨-cos ^ 2 / g.semimajor ^ 3, -(sin * cos) / g.semimajor ^ 3,
      -sin ^ 2 / g.semimajor ^ 3⟩
    alongMinor := ⟨-sin ^ 2 / g.semiminor ^ 3, sin * cos / g.semiminor ^ 3,
      -cos ^ 2 / g.semiminor ^ 3⟩
    alongTheta := ⟨-(sin * cos * difference), half ((cos ^ 2 - sin ^ 2) * difference),
      sin * cos * difference⟩ }

theorem hasDerivAt_inv_sq {s : ℝ} (hs : s ≠ 0) :
    HasDerivAt (fun u : ℝ => 1 / u ^ 2) (-2 / s ^ 3) s := by
  have h := (hasDerivAt_pow 2 s).inv (pow_ne_zero 2 hs)
  simp only [← one_div] at h
  refine h.congr_deriv ?_
  field_simp
  norm_num [mul_comm]

theorem hasDerivAt_half {f : ℝ → ℝ} {f' t : ℝ} (h : HasDerivAt f f' t) :
    HasDerivAt (fun u => half (f u)) (half f') t :=
  h.div_const _

/-- The form depends linearly on the inverse squares of the axes, so it changes like them. -/
theorem formSlope_turned {major minor : ℝ → ℝ} {major' minor' t : ℝ}
    (hmajor : HasDerivAt major major' t) (hminor : HasDerivAt minor minor' t) (theta : ℝ) :
    FormSlope (fun u => turned (major u) (minor u) theta) (turned major' minor' theta) t where
  a := hasDerivAt_half ((hmajor.const_mul _).add (hminor.const_mul _))
  b := hasDerivAt_half ((hmajor.sub hminor).const_mul _)
  c := hasDerivAt_half ((hmajor.const_mul _).add (hminor.const_mul _))

theorem formSlope_major {s : ℝ} (hs : s ≠ 0) (minor theta : ℝ) :
    FormSlope (fun u => turned (1 / u ^ 2) minor theta)
      ⟨-Real.cos theta ^ 2 / s ^ 3, -(Real.sin theta * Real.cos theta) / s ^ 3,
        -Real.sin theta ^ 2 / s ^ 3⟩ s := by
  have h := formSlope_turned (hasDerivAt_inv_sq hs) (hasDerivAt_const s minor) theta
  have hslope : turned (-2 / s ^ 3) 0 theta =
      ⟨-Real.cos theta ^ 2 / s ^ 3, -(Real.sin theta * Real.cos theta) / s ^ 3,
        -Real.sin theta ^ 2 / s ^ 3⟩ := by
    rw [turned, half_def, half_def, half_def]
    congr 1 <;> ring
  rwa [hslope] at h

theorem formSlope_minor {s : ℝ} (hs : s ≠ 0) (major theta : ℝ) :
    FormSlope (fun u => turned major (1 / u ^ 2) theta)
      ⟨-Real.sin theta ^ 2 / s ^ 3, Real.sin theta * Real.cos theta / s ^ 3,
        -Real.cos theta ^ 2 / s ^ 3⟩ s := by
  have h := formSlope_turned (hasDerivAt_const s major) (hasDerivAt_inv_sq hs) theta
  have hslope : turned 0 (-2 / s ^ 3) theta =
      ⟨-Real.sin theta ^ 2 / s ^ 3, Real.sin theta * Real.cos theta / s ^ 3,
        -Real.cos theta ^ 2 / s ^ 3⟩ := by
    rw [turned, half_def, half_def, half_def]
    congr 1 <;> ring
  rwa [hslope] at h

theorem formSlope_theta (major minor theta : ℝ) :
    FormSlope (fun u => turned major minor u)
      ⟨-(Real.sin theta * Real.cos theta * (major - minor)),
        half ((Real.cos theta ^ 2 - Real.sin theta ^ 2) * (major - minor)),
        Real.sin theta * Real.cos theta * (major - minor)⟩ theta := by
  have hsin := Real.hasDerivAt_sin theta
  have hcos := Real.hasDerivAt_cos theta
  have hsin2 := hsin.fun_pow 2
  have hcos2 := hcos.fun_pow 2
  constructor
  · refine (hasDerivAt_half ((hcos2.mul_const major).add (hsin2.mul_const minor))).congr_deriv ?_
    rw [half_def]
    ring
  · refine (hasDerivAt_half ((hsin.fun_mul hcos).mul_const (major - minor))).congr_deriv ?_
    rw [half_def, half_def]
    ring
  · refine (hasDerivAt_half ((hsin2.mul_const major).add (hcos2.mul_const minor))).congr_deriv ?_
    rw [half_def]
    ring

namespace Slopes

/-- Slopes of exact numbers that are real. -/
def exact (s : Slopes ℝ) : Slopes Exact :=
  ⟨s.form.exact, s.alongMajor.exact, s.alongMinor.exact, s.alongTheta.exact⟩

end Slopes

/-- These are the slopes that are computed. -/
theorem slopes_exact {g : Gaussian ℝ} (h : g.HasAxes) : g.exact.slopes = g.rates.exact := by
  have hmajor := pow_ne_zero 2 h.major
  have hminor := pow_ne_zero 2 h.minor
  have hmajor3 := pow_ne_zero 3 h.major
  have hminor3 := pow_ne_zero 3 h.minor
  rw [slopes, form_exact h]
  simp only [exact, map, half_eq, one_eq, two_eq, square_real, cube_real, sin_real, cos_real,
    neg_real, mul_real, sub_real, div_real _ hmajor, div_real _ hminor, div_real _ hmajor3,
    div_real _ hminor3, rates, Slopes.exact, QuadraticForm.exact, half_def, Real.sin_two_mul,
    Real.cos_two_mul']
  congr 3 <;> ring

/-! ## The value along its parameters -/

/-- A bell whose exponent changes. -/
theorem hasDerivAt_bell {e : ℝ → ℝ} {e' t : ℝ} (h : HasDerivAt e e' t) (amplitude : ℝ) :
    HasDerivAt (fun u => amplitude * Real.exp (-e u)) (-amplitude * Real.exp (-e t) * e') t := by
  refine (h.fun_neg.exp.const_mul amplitude).congr_deriv ?_
  ring

theorem hasDerivAt_form {q : ℝ → QuadraticForm ℝ} {d : QuadraticForm ℝ} {t : ℝ}
    (h : FormSlope q d t) (dx dy : ℝ) :
    HasDerivAt (fun u => (q u).evalReal dx dy) (d.evalReal dx dy) t :=
  ((h.a.mul_const (dx ^ 2)).add (((h.b.fun_add h.b).mul_const dx).mul_const dy)).add
    (h.c.mul_const (dy ^ 2))

/-- The form along its first coordinate. -/
theorem hasDerivAt_column (q : QuadraticForm ℝ) (x dy t : ℝ) :
    HasDerivAt (fun u => q.evalReal (x - u) dy) (-(2 * (q.a * (x - t) + q.b * dy))) t := by
  have h := (hasDerivAt_id t).const_sub x
  refine ((((h.fun_pow 2).const_mul q.a).add ((h.const_mul (q.b + q.b)).mul_const dy)).add_const
    (q.c * dy ^ 2)).congr_deriv ?_
  simp only [id]
  ring

/-- The form along its second coordinate. -/
theorem hasDerivAt_row (q : QuadraticForm ℝ) (dx y t : ℝ) :
    HasDerivAt (fun u => q.evalReal dx (y - u)) (-(2 * (q.b * dx + q.c * (y - t)))) t := by
  have h := (hasDerivAt_id t).const_sub y
  refine (((h.const_mul ((q.b + q.b) * dx)).const_add (q.a * dx ^ 2)).add
    ((h.fun_pow 2).const_mul q.c)).congr_deriv ?_
  simp only [id]
  ring

/-- The derivatives of the height of a Gaussian over a point. -/
noncomputable def partials (g : Gaussian ℝ) (x y : ℝ) : Gaussian ℝ :=
  let dx := x - g.xCentre
  let dy := y - g.yCentre
  let bell := bump g.ellipse dx dy
  { amplitude := bell
    xCentre := (g.amplitude + g.amplitude) * bell * (g.ellipse.a * dx + g.ellipse.b * dy)
    yCentre := (g.amplitude + g.amplitude) * bell * (g.ellipse.b * dx + g.ellipse.c * dy)
    semimajor := -g.amplitude * bell * g.rates.alongMajor.evalReal dx dy
    semiminor := -g.amplitude * bell * g.rates.alongMinor.evalReal dx dy
    theta := -g.amplitude * bell * g.rates.alongTheta.evalReal dx dy }

/-- These are the derivatives that are computed. -/
theorem derivatives_exact {g : Gaussian ℝ} (h : g.HasAxes) (x y : ℝ) :
    g.exact.derivatives (real x) (real y) = (g.partials x y).exact := by
  rw [derivatives, slopes_exact h, derivativesWith]
  simp only [Slopes.exact, bell_exact, rates, partials]
  simp only [exact, map, QuadraticForm.exact, sub_real, mul_real, add_real, neg_real, two_eq,
    QuadraticForm.eval, square_real, QuadraticForm.evalReal, two_mul]

/-- The height changes along each parameter at the rate that is given for it. -/
theorem hasDerivAt_height {g : Gaussian ℝ} (h : g.HasAxes) (x y : ℝ) (k : Parameter) :
    HasDerivAt (fun u => (k.set g u).height x y) (k.get (g.partials x y)) (k.get g) := by
  cases k with
  | amplitude => exact hasDerivAt_mul_const (bump g.ellipse (x - g.xCentre) (y - g.yCentre))
  | xCentre =>
    refine (hasDerivAt_bell (hasDerivAt_column g.ellipse x (y - g.yCentre) g.xCentre)
      g.amplitude).congr_deriv ?_
    simp only [Parameter.get, partials, bump]
    ring
  | yCentre =>
    refine (hasDerivAt_bell (hasDerivAt_row g.ellipse (x - g.xCentre) y g.yCentre)
      g.amplitude).congr_deriv ?_
    simp only [Parameter.get, partials, bump]
    ring
  | semimajor =>
    exact hasDerivAt_bell (hasDerivAt_form (formSlope_major h.major (1 / g.semiminor ^ 2) g.theta)
      (x - g.xCentre) (y - g.yCentre)) g.amplitude
  | semiminor =>
    exact hasDerivAt_bell (hasDerivAt_form (formSlope_minor h.minor (1 / g.semimajor ^ 2) g.theta)
      (x - g.xCentre) (y - g.yCentre)) g.amplitude
  | theta =>
    exact hasDerivAt_bell (hasDerivAt_form (formSlope_theta (1 / g.semimajor ^ 2)
      (1 / g.semiminor ^ 2) g.theta) (x - g.xCentre) (y - g.yCentre)) g.amplitude

/-- An axis that is not zero may be changed a little. -/
theorem eventually_hasAxes {g : Gaussian ℝ} (h : g.HasAxes) (k : Parameter) :
    ∀ᶠ u in 𝓝 (k.get g), (k.set g u).HasAxes := by
  cases k with
  | semimajor => exact (eventually_ne_nhds h.major).mono fun u hu => ⟨hu, h.minor⟩
  | semiminor => exact (eventually_ne_nhds h.minor).mono fun u hu => ⟨h.major, hu⟩
  | amplitude => exact .of_forall fun _ => ⟨h.major, h.minor⟩
  | xCentre => exact .of_forall fun _ => ⟨h.major, h.minor⟩
  | yCentre => exact .of_forall fun _ => ⟨h.major, h.minor⟩
  | theta => exact .of_forall fun _ => ⟨h.major, h.minor⟩

/-- Wherever a Gaussian is evaluated, what is computed for each of its parameters is the
derivative of its value along that parameter. Only the axes must not be zero. -/
theorem derivatives_isSlope (g : Gaussian ℝ) (hmajor : g.semimajor ≠ 0) (hminor : g.semiminor ≠ 0)
    (x y : ℝ) (k : Parameter) :
    IsSlope (fun u => (k.set g u).exact.value (real x) (real y))
      (k.get (g.exact.derivatives (real x) (real y))) (k.get g) := by
  have h : g.HasAxes := ⟨hmajor, hminor⟩
  refine ⟨fun u => (k.set g u).height x y, k.get (g.partials x y), ?_, ?_,
    hasDerivAt_height h x y k⟩
  · exact (eventually_hasAxes h k).mono fun u hu => value_exact hu x y
  · rw [derivatives_exact h]
    cases k <;> rfl

/-- A Gaussian at a slant, with a negative axis. -/
noncomputable def slanted : Gaussian ℝ := ⟨(2 : ℕ), 0, -1, -(3 : ℕ), 1, 1⟩

/-- The derivatives of the Gaussian beside its centre. -/
theorem derivatives_isSlope_slanted : slanted.semimajor ≠ 0 ∧ slanted.semiminor ≠ 0 ∧
    ∀ k : Parameter, IsSlope (fun u => (k.set slanted u).exact.value (real 2) (real 1))
      (k.get (slanted.exact.derivatives (real 2) (real 1))) (k.get slanted) := by
  have hmajor : slanted.semimajor ≠ 0 := by norm_num [slanted]
  have hminor : slanted.semiminor ≠ 0 := by norm_num [slanted]
  exact ⟨hmajor, hminor, derivatives_isSlope slanted hmajor hminor 2 1⟩

end Gaussian
end SkySources
