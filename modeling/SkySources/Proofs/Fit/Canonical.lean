import Mathlib
import SkySources.Fit
import SkySources.Proofs.Fit.Angle
import SkySources.Proofs.Gaussian.Height

/-!
# Gaussians in standard form

The parameters of a Gaussian are not unique: an axis counts without its sign, the axes may
change places after a quarter turn, and half a turn changes nothing. The standard form picks
one vector of parameters. In terms of twice the angle (`turned_eq`) the form in the exponent
is made of the sum of the two inverse squares, and of their difference in a direction, so it
can be read from both sides.

What is proved:
  1. `canonical_exact`, `ellipse_standard`: over real parameters the standard form is again
     real, and has the same ellipse;
  2. `height_determines`: the heights determine the amplitude, the centre and the ellipse;
  3. `IsStandard.eq_of_ellipse_eq`: the ellipse determines the axes and the angle in standard
     form, unless it is a circle;
  4. `canonical_faithful`: so the standard form has the same values, and Gaussians of the
     same values have the same one.
-/

namespace SkySources

open Exact Fit

namespace Gaussian

/-- The standard form of a Gaussian with real parameters. -/
noncomputable def standard (g : Gaussian ℝ) : Gaussian ℝ :=
  if |g.semimajor| < |g.semiminor| then
    { g with
      semimajor := |g.semiminor|
      semiminor := |g.semimajor|
      theta := axisAngle (g.theta + half Real.pi) }
  else
    { g with
      semimajor := |g.semimajor|
      semiminor := |g.semiminor|
      theta := axisAngle g.theta }

theorem canonical_exact (g : Gaussian ℝ) : canonical g.exact = g.standard.exact := by
  simp only [canonical, exact, map, abs_real, lt_real, pi_eq, two_eq, div_real _ two_ne_zero,
    add_real, normaliseAngle_real, standard, half_def]
  split <;> rfl

/-! ## The same ellipse -/

/-- The coefficients of a turned ellipse, in terms of twice the angle. -/
theorem turned_eq (major minor theta : ℝ) : turned major minor theta =
    { a := 1 / 4 * ((major + minor) + (major - minor) * Real.cos (2 * theta))
      b := 1 / 4 * ((major - minor) * Real.sin (2 * theta))
      c := 1 / 4 * ((major + minor) - (major - minor) * Real.cos (2 * theta)) } := by
  have hsin := Real.sin_sq theta
  have hcos := Real.cos_sq theta
  rw [turned, QuadraticForm.mk.injEq, half_def, half_def, half_def, hsin, hcos,
    Real.sin_two_mul]
  refine ⟨?_, ?_, ?_⟩ <;> ring

/-- After a quarter turn the axes have changed places. -/
theorem turned_add_quarter (major minor theta : ℝ) :
    turned major minor (theta + half Real.pi) = turned minor major theta := by
  have htwice : 2 * (theta + half Real.pi) = 2 * theta + Real.pi := by
    rw [half_def]
    ring
  rw [turned_eq, turned_eq, htwice, Real.cos_add_pi, Real.sin_add_pi, QuadraticForm.mk.injEq]
  refine ⟨?_, ?_, ?_⟩ <;> ring

/-- Half turns change nothing. -/
theorem turned_axisAngle (major minor theta : ℝ) :
    turned major minor (axisAngle theta) = turned major minor theta := by
  obtain ⟨k, hk⟩ := exists_eq_axisAngle_add theta
  have htwice : 2 * theta = 2 * axisAngle theta + k * (2 * Real.pi) := by linarith
  rw [turned_eq, turned_eq, htwice, Real.cos_add_int_mul_two_pi, Real.sin_add_int_mul_two_pi]

theorem ellipse_standard (g : Gaussian ℝ) : g.standard.ellipse = g.ellipse := by
  rw [standard]
  split
  · simp only [ellipse, sq_abs, turned_axisAngle, turned_add_quarter]
  · simp only [ellipse, sq_abs, turned_axisAngle]

variable {g h : Gaussian ℝ}

theorem standard_amplitude (g : Gaussian ℝ) : g.standard.amplitude = g.amplitude := by
  rw [standard]
  split <;> rfl

theorem standard_xCentre (g : Gaussian ℝ) : g.standard.xCentre = g.xCentre := by
  rw [standard]
  split <;> rfl

theorem standard_yCentre (g : Gaussian ℝ) : g.standard.yCentre = g.yCentre := by
  rw [standard]
  split <;> rfl

theorem height_standard (g : Gaussian ℝ) (x y : ℝ) : g.standard.height x y = g.height x y := by
  rw [height, height, ellipse_standard, standard_amplitude, standard_xCentre, standard_yCentre]

theorem HasAxes.standard (hg : g.HasAxes) : g.standard.HasAxes := by
  rw [Gaussian.standard]
  split
  · exact ⟨abs_ne_zero.2 hg.minor, abs_ne_zero.2 hg.major⟩
  · exact ⟨abs_ne_zero.2 hg.major, abs_ne_zero.2 hg.minor⟩

/-! ## From the heights to the ellipse -/

theorem bump_le_one (g : Gaussian ℝ) (dx dy : ℝ) : bump g.ellipse dx dy ≤ 1 :=
  Real.exp_le_one_iff.2 (neg_nonpos.2 (evalReal_ellipse_nonneg g dx dy))

theorem bump_centre (q : QuadraticForm ℝ) : bump q 0 0 = 1 := by
  rw [bump, QuadraticForm.evalReal, Real.exp_eq_one_iff]
  ring

theorem bump_nonneg (q : QuadraticForm ℝ) (dx dy : ℝ) : 0 ≤ bump q dx dy := (Real.exp_pos _).le

/-- A bell is as high as its top at its centre only. -/
theorem bump_eq_one (hg : g.HasAxes) {dx dy : ℝ} (h1 : bump g.ellipse dx dy = 1) :
    dx = 0 ∧ dy = 0 :=
  evalReal_ellipse_eq_zero hg (neg_eq_zero.1 ((Real.exp_eq_one_iff _).1 h1))

theorem height_centre (g : Gaussian ℝ) : g.height g.xCentre g.yCentre = g.amplitude := by
  rw [height, sub_self, sub_self, bump_centre, mul_one]

theorem abs_height_le (g : Gaussian ℝ) (x y : ℝ) : |g.height x y| ≤ |g.amplitude| := by
  rw [height, abs_mul, abs_of_nonneg (bump_nonneg _ _ _)]
  exact mul_le_of_le_one_right (abs_nonneg _) (bump_le_one g _ _)

/-- A form is determined by the bell over it. -/
theorem form_eq_of_bump_eq {q r : QuadraticForm ℝ} (h : ∀ dx dy, bump q dx dy = bump r dx dy) :
    q = r := by
  have heval (dx dy : ℝ) : q.evalReal dx dy = r.evalReal dx dy :=
    neg_injective (Real.exp_injective (h dx dy))
  have ha := heval 1 0
  have hc := heval 0 1
  have hb := heval 1 1
  simp only [QuadraticForm.evalReal] at ha hb hc
  obtain ⟨a, b, c⟩ := q
  obtain ⟨a', b', c'⟩ := r
  rw [QuadraticForm.mk.injEq]
  refine ⟨?_, ?_, ?_⟩ <;> linarith

/-- The heights determine the amplitude, the centre and the ellipse. -/
theorem height_determines (hh : h.HasAxes) (hamp : g.amplitude ≠ 0)
    (heq : ∀ x y, g.height x y = h.height x y) : g.amplitude = h.amplitude ∧
      g.xCentre = h.xCentre ∧ g.yCentre = h.yCentre ∧ g.ellipse = h.ellipse := by
  -- each of the two is at most as high as the other
  have habs : |g.amplitude| = |h.amplitude| := by
    refine le_antisymm ?_ ?_
    · rw [← height_centre g, heq]
      exact abs_height_le h _ _
    · rw [← height_centre h, ← heq]
      exact abs_height_le g _ _
  -- so the second one is at its top over the centre of the first
  have htop : bump h.ellipse (g.xCentre - h.xCentre) (g.yCentre - h.yCentre) = 1 := by
    have hcentre := congrArg abs (heq g.xCentre g.yCentre)
    rw [height_centre, height, abs_mul, ← habs, abs_of_nonneg (bump_nonneg _ _ _)] at hcentre
    exact mul_left_cancel₀ (abs_ne_zero.2 hamp) (hcentre.symm.trans (mul_one _).symm)
  obtain ⟨hx, hy⟩ := bump_eq_one hh htop
  rw [sub_eq_zero] at hx hy
  have hamplitude : g.amplitude = h.amplitude := by
    have hcentre := heq g.xCentre g.yCentre
    rw [height_centre, hx, hy, height_centre] at hcentre
    exact hcentre
  refine ⟨hamplitude, hx, hy, form_eq_of_bump_eq fun dx dy => ?_⟩
  have hat := heq (g.xCentre + dx) (g.yCentre + dy)
  rw [height, height, ← hx, ← hy, ← hamplitude, add_sub_cancel_left, add_sub_cancel_left] at hat
  exact mul_left_cancel₀ hamp hat

/-! ## From the ellipse to its axes -/

/-- The axes are positive, the first one is longer, and the angle is normal. -/
structure IsStandard (g : Gaussian ℝ) : Prop where
  minor_pos : 0 < g.semiminor
  longer : g.semiminor < g.semimajor
  angle : axisAngle g.theta = g.theta

theorem isStandard_standard (hg : g.HasAxes) (hne : |g.semimajor| ≠ |g.semiminor|) :
    g.standard.IsStandard := by
  rw [standard]
  split
  · next hlt => exact ⟨abs_pos.2 hg.major, hlt, axisAngle_axisAngle _⟩
  · next hle =>
    exact ⟨abs_pos.2 hg.minor, lt_of_le_of_ne (not_lt.1 hle) hne.symm, axisAngle_axisAngle _⟩

/-- Inverse squares of positive numbers are ordered the other way. -/
theorem one_div_sq_lt {s t : ℝ} (hs : 0 < s) (h : s < t) : 1 / t ^ 2 < 1 / s ^ 2 :=
  one_div_lt_one_div_of_lt (pow_pos hs 2) (pow_lt_pow_left₀ h hs.le two_ne_zero)

theorem one_div_sq_injective {s t : ℝ} (hs : 0 < s) (ht : 0 < t) (h : 1 / s ^ 2 = 1 / t ^ 2) :
    s = t := by
  rw [one_div, one_div] at h
  exact (pow_left_inj₀ hs.le ht.le two_ne_zero).1 (inv_injective h)

/-- Angles whose doubles have the same sine and cosine are half turns apart. -/
theorem axisAngle_eq_of_double {theta phi : ℝ} (hcos : Real.cos (2 * theta) = Real.cos (2 * phi))
    (hsin : Real.sin (2 * theta) = Real.sin (2 * phi)) : axisAngle theta = axisAngle phi := by
  obtain ⟨k, hk⟩ := Real.Angle.angle_eq_iff_two_pi_dvd_sub.1 (Real.Angle.cos_sin_inj hcos hsin)
  rw [show theta = phi + k * Real.pi by linarith, axisAngle_add_mul_pi]

/-- The coefficients of a turned ellipse determine its axes, shorter inverse square first, and
the sine and cosine of twice its angle. -/
theorem turned_injective {major minor theta major' minor' theta' : ℝ} (hlt : major < minor)
    (hlt' : major' < minor') (h : turned major minor theta = turned major' minor' theta') :
    major = major' ∧ minor = minor' ∧ Real.cos (2 * theta) = Real.cos (2 * theta') ∧
      Real.sin (2 * theta) = Real.sin (2 * theta') := by
  rw [turned_eq, turned_eq, QuadraticForm.mk.injEq] at h
  obtain ⟨ha, hb, hc⟩ := h
  have hsum : major + minor = major' + minor' := by linarith
  have hcos : (minor - major) * Real.cos (2 * theta) =
      (minor' - major') * Real.cos (2 * theta') := by linarith
  have hsin : (minor - major) * Real.sin (2 * theta) =
      (minor' - major') * Real.sin (2 * theta') := by linarith
  -- the two sides are the legs of a right triangle, and the differences its longest side
  have hsq : (minor - major) ^ 2 = (minor' - major') ^ 2 := by
    have hone := Real.sin_sq_add_cos_sq (2 * theta)
    have hone' := Real.sin_sq_add_cos_sq (2 * theta')
    calc (minor - major) ^ 2
        = ((minor - major) * Real.sin (2 * theta)) ^ 2 +
            ((minor - major) * Real.cos (2 * theta)) ^ 2 := by
          linear_combination -(minor - major) ^ 2 * hone
      _ = ((minor' - major') * Real.sin (2 * theta')) ^ 2 +
            ((minor' - major') * Real.cos (2 * theta')) ^ 2 := by rw [hsin, hcos]
      _ = (minor' - major') ^ 2 := by linear_combination (minor' - major') ^ 2 * hone'
  have hdiff : minor - major = minor' - major' :=
    (pow_left_inj₀ (sub_pos.2 hlt).le (sub_pos.2 hlt').le two_ne_zero).1 hsq
  rw [← hdiff] at hcos hsin
  have hne : minor - major ≠ 0 := (sub_pos.2 hlt).ne'
  refine ⟨by linarith, by linarith, mul_left_cancel₀ hne hcos, mul_left_cancel₀ hne hsin⟩

/-- In standard form the ellipse determines the axes and the angle. -/
theorem IsStandard.eq_of_ellipse_eq (hg : g.IsStandard) (hh : h.IsStandard)
    (heq : g.ellipse = h.ellipse) : g.semimajor = h.semimajor ∧ g.semiminor = h.semiminor ∧
      g.theta = h.theta := by
  obtain ⟨hmajor, hminor, hcos, hsin⟩ := turned_injective (one_div_sq_lt hg.minor_pos hg.longer)
    (one_div_sq_lt hh.minor_pos hh.longer) heq
  refine ⟨?_, one_div_sq_injective hg.minor_pos hh.minor_pos hminor, ?_⟩
  · exact one_div_sq_injective (hg.minor_pos.trans hg.longer) (hh.minor_pos.trans hh.longer) hmajor
  · rw [← hg.angle, ← hh.angle]
    exact axisAngle_eq_of_double hcos hsin

/-! ## The same values -/

/-- A Gaussian that is not flat, and whose axes differ. -/
structure IsOblong (g : Gaussian ℝ) : Prop extends HasAxes g where
  amplitude : g.amplitude ≠ 0
  axes : |g.semimajor| ≠ |g.semiminor|

/-- Oblong Gaussians of the same heights have the same standard form. -/
theorem standard_eq (hg : g.IsOblong) (hh : h.IsOblong)
    (heq : ∀ x y, g.height x y = h.height x y) : g.standard = h.standard := by
  obtain ⟨hamplitude, hx, hy, hellipse⟩ := height_determines hh.toHasAxes hg.amplitude heq
  have hstandard : g.standard.ellipse = h.standard.ellipse := by
    rw [ellipse_standard, ellipse_standard, hellipse]
  obtain ⟨hmajor, hminor, htheta⟩ := (isStandard_standard hg.toHasAxes hg.axes).eq_of_ellipse_eq
    (isStandard_standard hh.toHasAxes hh.axes) hstandard
  rw [← standard_amplitude g, ← standard_amplitude h] at hamplitude
  rw [← standard_xCentre g, ← standard_xCentre h] at hx
  rw [← standard_yCentre g, ← standard_yCentre h] at hy
  rw [mk.injEq]
  exact ⟨hamplitude, hx, hy, hmajor, hminor, htheta⟩

theorem canonical_value (hg : g.HasAxes) (x y : ℝ) :
    (canonical g.exact).value (real x) (real y) = g.exact.value (real x) (real y) := by
  rw [canonical_exact, value_exact hg.standard, value_exact hg, height_standard]

/-- The standard form of a Gaussian with axes has the same values; and oblong Gaussians have the
same values everywhere exactly if they have the same standard form. -/
theorem canonical_faithful :
    (∀ g : Gaussian ℝ, g.HasAxes → ∀ x y : ℝ,
      (canonical g.exact).value (real x) (real y) = g.exact.value (real x) (real y)) ∧
    ∀ g h : Gaussian ℝ, g.IsOblong → h.IsOblong →
      ((∀ x y : ℝ, g.exact.value (real x) (real y) = h.exact.value (real x) (real y)) ↔
        canonical g.exact = canonical h.exact) := by
  refine ⟨fun g hg x y => canonical_value hg x y, fun g h hg hh => ?_⟩
  refine ⟨fun heq => ?_, fun heq x y => ?_⟩
  · rw [canonical_exact, canonical_exact, standard_eq hg hh fun x y => ?_]
    have hvalue := heq x y
    rw [value_exact hg.toHasAxes, value_exact hh.toHasAxes] at hvalue
    exact Exact.real.inj hvalue
  · rw [← canonical_value hg.toHasAxes, ← canonical_value hh.toHasAxes, heq]

/-- A Gaussian whose second axis is the longer one, beyond a quarter turn. -/
noncomputable def crossed : Gaussian ℝ := 
  ⟨(2 : ℕ), 1, -1, (2 : ℕ), (3 : ℕ), 1 + half Real.pi⟩

/-- The same Gaussian with its longer axis first, and a negative one. -/
noncomputable def upright : Gaussian ℝ := ⟨(2 : ℕ), 1, -1, -(3 : ℕ), (2 : ℕ), 1⟩

theorem ellipse_crossed : crossed.ellipse = upright.ellipse := by
  simp only [ellipse, crossed, upright, turned_add_quarter, neg_sq]

/-- Both have the same standard form, with the values of either. -/
theorem canonical_faithful_crossed : crossed.IsOblong ∧ upright.IsOblong ∧
    (∀ x y : ℝ, (canonical crossed.exact).value (real x) (real y) =
      crossed.exact.value (real x) (real y)) ∧
    canonical crossed.exact = canonical upright.exact := by
  have hcrossed : crossed.IsOblong := by
    refine ⟨⟨?_, ?_⟩, ?_, ?_⟩ <;> norm_num [crossed]
  have hupright : upright.IsOblong := by
    refine ⟨⟨?_, ?_⟩, ?_, ?_⟩ <;> norm_num [upright]
  refine ⟨hcrossed, hupright, canonical_faithful.1 crossed hcrossed.toHasAxes,
    (canonical_faithful.2 crossed upright hcrossed hupright).1 fun x y => ?_⟩
  rw [value_exact hcrossed.toHasAxes, value_exact hupright.toHasAxes, height, height,
    ellipse_crossed]
  rfl

end Gaussian
end SkySources
