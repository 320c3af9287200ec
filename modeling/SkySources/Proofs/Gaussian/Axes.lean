import Mathlib
import SkySources.Gaussian.Fault
import SkySources.Proofs.Fit.Canonical
import SkySources.Proofs.Gaussian.Slopes

/-!
# Gaussians along their axes

The form in the exponent is written with the sine and cosine of the angle and of twice the
angle. Seen from the centre in the directions of the two axes it is a sum of two squares, one
for each axis, where the first axis points from the direction of growing columns towards that
of growing rows.

What is proved:
  1. `column_eq`, `row_eq`: the coordinates along the axes are those of the point;
  2. `height_eq`: the height over a point, in these coordinates;
  3. `isTop_iff`: the height is furthest from zero over the centre, and only there;
  4. `formFault_exact`, `pointFault_exact`: real parameters with axes have no fault;
  5. `value_along_axes`: all of it, for single points, for lists of points and for grids.
-/

namespace SkySources.Gaussian

open Exact

/-! ## Coordinates -/

section Coordinates
variable (g : Gaussian ℝ) (x y : ℝ)

/-- How far a point lies from the centre in the direction of the angle. -/
noncomputable def along : ℝ :=
  (x - g.xCentre) * Real.cos g.theta + (y - g.yCentre) * Real.sin g.theta

/-- How far a point lies from the centre in the direction a quarter turn after the angle. -/
noncomputable def across : ℝ :=
  (y - g.yCentre) * Real.cos g.theta - (x - g.xCentre) * Real.sin g.theta

/-- Both coordinates lead from the centre to the column of the point. -/
theorem column_eq :
    x = g.xCentre + g.along x y * Real.cos g.theta - g.across x y * Real.sin g.theta := by
  have hone := Real.sin_sq_add_cos_sq g.theta
  rw [along, across]
  linear_combination -(x - g.xCentre) * hone

/-- Both coordinates lead from the centre to the row of the point. -/
theorem row_eq :
    y = g.yCentre + g.along x y * Real.sin g.theta + g.across x y * Real.cos g.theta := by
  have hone := Real.sin_sq_add_cos_sq g.theta
  rw [along, across]
  linear_combination -(y - g.yCentre) * hone

/-- The height falls off like a bell along each axis, by its length. -/
theorem height_eq : g.height x y = g.amplitude *
    Real.exp (-((g.along x y / g.semimajor) ^ 2 + (g.across x y / g.semiminor) ^ 2) / 2) := by
  rw [height, bump, ellipse, evalReal_turned, along, across]
  congr 2
  ring

end Coordinates

/-! ## The top -/

/-- No height is further from zero than that over a point. -/
def IsTop (g : Gaussian ℝ) (x y : ℝ) : Prop := ∀ x' y', |g.height x' y'| ≤ |g.height x y|

theorem isTop_iff {g : Gaussian ℝ} (h : g.HasAxes) (hamplitude : g.amplitude ≠ 0) {x y : ℝ} :
    g.IsTop x y ↔ x = g.xCentre ∧ y = g.yCentre := by
  constructor
  · intro htop
    -- the bell over the point is not lower than its top, so it is at its top
    have hcentre := htop g.xCentre g.yCentre
    rw [height_centre, height, abs_mul, abs_of_nonneg (bump_nonneg _ _ _)] at hcentre
    have hone : 1 ≤ bump g.ellipse (x - g.xCentre) (y - g.yCentre) :=
      le_of_mul_le_mul_left (by rwa [mul_one]) (abs_pos.2 hamplitude)
    obtain ⟨hx, hy⟩ := bump_eq_one h (le_antisymm (bump_le_one g _ _) hone)
    exact ⟨sub_eq_zero.1 hx, sub_eq_zero.1 hy⟩
  · rintro ⟨rfl, rfl⟩ x' y'
    rw [height_centre]
    exact abs_height_le g x' y'

/-! ## Faults -/

theorem overflows_real (u v : ℝ) : overflows (real u) (real v) = false := rfl

theorem axisFault_real {s : ℝ} (hs : s ≠ 0) : axisFault (real s) = none := by
  have hpos : ¬s ^ 2 ≤ 0 := not_le.2 (sq_pos_of_ne_zero hs)
  simp only [axisFault, square_real, overflows_real, Bool.false_eq_true, if_false,
    Scalar.sameValue, zero_eq, le_real, hpos, decide_false, Bool.false_and]

theorem formFault_exact {g : Gaussian ℝ} (h : g.HasAxes) : g.exact.formFault = none := by
  have hmajor : axisFault g.exact.semimajor = none := axisFault_real h.major
  have hminor : axisFault g.exact.semiminor = none := axisFault_real h.minor
  rw [formFault, hmajor, hminor]
  rfl

theorem pointFault_exact (g : Gaussian ℝ) (x y : ℝ) :
    g.exact.pointFault (real x) (real y) = none := by
  simp only [pointFault, exact, map, sub_real, square_real, overflows_real, Bool.or_self,
    Bool.false_eq_true, if_false]

/-- Wherever they are evaluated, real parameters with axes have values. -/
theorem values?_exact {g : Gaussian ℝ} (h : g.HasAxes) (points : List (ℝ × ℝ)) :
    g.exact.values? (points.map fun p => (real p.1, real p.2)) =
      .ok (points.map fun p => real (g.height p.1 p.2)) := by
  have hpoints : ((points.map fun p => (real p.1, real p.2)).findSome? fun p =>
      g.exact.pointFault p.1 p.2) = none := by
    rw [List.findSome?_eq_none_iff, List.forall_mem_map]
    exact fun p _ => pointFault_exact g p.1 p.2
  rw [values?, formFault_exact h, Option.orElse_none, hpoints, List.map_map]
  refine congrArg Except.ok (List.map_congr_left fun p _ => ?_)
  exact value_exact h p.1 p.2

/-- A grid has the value of the Gaussian at each pixel, with the column as `x` and the row
as `y`. -/
theorem get_onGrid {g : Gaussian ℝ} (h : g.HasAxes) {rows cols : Nat} (p : Pixel rows cols) :
    (g.exact.onGrid rows cols).get p = real (g.height p.col.val p.row.val) := by
  rw [onGrid, Grid.get_ofFn, ofNat_eq, ofNat_eq]
  exact value_exact h _ _

/-! ## Values -/

/-- Going `u` from the centre in the direction of the angle, and `v` in the direction a quarter
turn further, one finds the value `A exp(-((u / s)² + (v / t)²) / 2)`, whatever the amplitude,
the angle and the two axes `s` and `t` are that are not zero. Every point is reached so. The
absolute value is largest at the centre and nowhere else, unless it is zero everywhere. Lists
of points and grids of any shape have these values, too. -/
theorem value_along_axes (g : Gaussian ℝ) (hmajor : g.semimajor ≠ 0) (hminor : g.semiminor ≠ 0) :
    (∀ x y : ℝ,
      (x = g.xCentre + g.along x y * Real.cos g.theta - g.across x y * Real.sin g.theta ∧
        y = g.yCentre + g.along x y * Real.sin g.theta + g.across x y * Real.cos g.theta) ∧
      g.exact.value (real x) (real y) = real (g.amplitude *
        Real.exp (-((g.along x y / g.semimajor) ^ 2 + (g.across x y / g.semiminor) ^ 2) / 2))) ∧
    (g.amplitude ≠ 0 → ∀ x y : ℝ,
      (∀ x' y' : ℝ, Scalar.abs (g.exact.value (real x') (real y')) ≤
          Scalar.abs (g.exact.value (real x) (real y))) ↔ x = g.xCentre ∧ y = g.yCentre) ∧
    (∀ points : List (ℝ × ℝ), g.exact.values? (points.map fun p => (real p.1, real p.2)) =
      .ok (points.map fun p => g.exact.value (real p.1) (real p.2))) ∧
    ∀ rows cols : Nat, ∃ grid, g.exact.onGrid? rows cols = .ok grid ∧
      ∀ p : Pixel rows cols, grid.get p = g.exact.value (real p.col.val) (real p.row.val) := by
  have h : g.HasAxes := ⟨hmajor, hminor⟩
  refine ⟨fun x y => ?_, fun hamplitude x y => ?_, fun points => ?_, fun rows cols => ?_⟩
  · exact ⟨⟨column_eq g x y, row_eq g x y⟩, by rw [value_exact h, height_eq]⟩
  · simp only [value_exact h, abs_real, le_real]
    exact isTop_iff h hamplitude
  · rw [values?_exact h]
    simp only [value_exact h]
  · refine ⟨g.exact.onGrid rows cols, ?_, fun p => ?_⟩
    · rw [onGrid?, formFault_exact h]
      rfl
    · rw [get_onGrid h, value_exact h]

/-- The Gaussian at a slant: one deviation along its major axis, at its centre, and on a grid of
three rows and two columns. -/
theorem value_along_axes_slanted : slanted.semimajor ≠ 0 ∧ slanted.semiminor ≠ 0 ∧
    slanted.amplitude ≠ 0 ∧
    slanted.exact.value (real (3 * Real.cos 1)) (real (3 * Real.sin 1 - 1)) =
      real (2 * Real.exp (-1 / 2)) ∧
    (∀ x y : ℝ, Scalar.abs (slanted.exact.value (real x) (real y)) ≤
      Scalar.abs (slanted.exact.value (real 0) (real (-1)))) ∧
    ∃ grid : Grid 3 2 Exact, slanted.exact.onGrid? 3 2 = .ok grid ∧
      grid.get ⟨2, 1⟩ = slanted.exact.value (real 1) (real 2) := by
  have hmajor : slanted.semimajor ≠ 0 := by norm_num [slanted]
  have hminor : slanted.semiminor ≠ 0 := by norm_num [slanted]
  have hamplitude : slanted.amplitude ≠ 0 := by norm_num [slanted]
  obtain ⟨hvalue, htop, -, hgrid⟩ := value_along_axes slanted hmajor hminor
  have hone := Real.sin_sq_add_cos_sq 1
  have halong : slanted.along (3 * Real.cos 1) (3 * Real.sin 1 - 1) = 3 := by
    simp only [along, slanted]
    linear_combination 3 * hone
  have hacross : slanted.across (3 * Real.cos 1) (3 * Real.sin 1 - 1) = 0 := by
    simp only [across, slanted]
    ring
  refine ⟨hmajor, hminor, hamplitude, ?_, (htop hamplitude 0 (-1)).2 ⟨rfl, rfl⟩, ?_⟩
  · rw [(hvalue _ _).2, halong, hacross]
    norm_num [slanted]
  · obtain ⟨grid, hok, hget⟩ := hgrid 3 2
    refine ⟨grid, hok, ?_⟩
    rw [hget]
    norm_num

end SkySources.Gaussian
