import Mathlib
import SkySources.Solver
import SkySources.Proofs.Gaussian.Slopes
import SkySources.Proofs.Moments
import SkySources.Proofs.Residuals.Methods

/-!
# The objective of a descent

A descent is given half the sum of the squared residuals as its objective, and the products of
the residuals with their derivatives as its gradient. Over exact numbers the one is the slope
of the other, whatever the layout of the blocks: a block only says which observations are
looked at together, and both sides take them in the same order (`values_eq`, `jacobian_eq`).

What is proved:
  1. `cost_exact`, `gradient_exact`: cost and gradient of real observations are sums of real
     numbers, one term for each observation;
  2. `hasDerivAt_halfSquares`: the chain rule over these sums;
  3. `objective_consistent`: the gradient is the slope of the cost along each parameter, and
     the cost vanishes exactly where the Gaussian passes through every observation.
-/

namespace SkySources

open Exact Gaussian

/-- The observation of exact numbers that has real entries. -/
def Observation.exact (o : Observation ℝ) : Observation Exact := ⟨real o.x, real o.y, real o.value⟩

namespace Gaussian.Parameter

/-- The place of a parameter in the list of all six. -/
def index : Parameter → Nat
  | amplitude => 0
  | xCentre => 1
  | yCentre => 2
  | semimajor => 3
  | semiminor => 4
  | theta => 5

variable {α β : Type}

theorem get_map (f : α → β) (g : Gaussian α) (k : Parameter) : k.get (g.map f) = f (k.get g) := by
  cases k <;> rfl

theorem set_get (g : Gaussian α) (k : Parameter) : k.set g (k.get g) = g := by
  cases k <;> rfl

theorem getElem?_toList (g : Gaussian α) (k : Parameter) : g.toList[k.index]? = some (k.get g) := by
  cases k <;> rfl

theorem set_toList (g : Gaussian α) (x : α) (k : Parameter) :
    g.toList.set k.index x = (k.set g x).toList := by
  cases k <;> rfl

theorem exact_set (g : Gaussian ℝ) (u : ℝ) (k : Parameter) :
    (k.set g u).exact = k.set g.exact (real u) := by
  cases k <;> rfl

end Gaussian.Parameter

namespace Residuals

/-! ## Whatever the blocks are -/

section Layout
variable {α : Type} [Scalar α] (p : Residuals α) (g : Gaussian α)

theorem values_eq : p.values g = misses g p.points := by
  rw [Residuals.points, misses, List.map_flatMap]
  rfl

theorem jacobian_eq (hp : p.differencing.isAnalytic = true) :
    p.jacobian g = slopesAt g p.points := by
  rw [jacobian, hp, Residuals.points, slopesAt, List.map_flatMap]
  rfl

theorem get_columns (k : Parameter) : k.get (p.columns g) = (p.jacobian g).map k.get := by
  cases k <;> rfl

end Layout

/-! ## Real observations -/

/-- What a Gaussian with real parameters misses at an observation. -/
noncomputable def missReal (g : Gaussian ℝ) (o : Observation ℝ) : ℝ := g.height o.x o.y - o.value

/-- Half the sum of the squares of real numbers. -/
noncomputable def halfSquares (rs : List ℝ) : ℝ := half (rs.map fun r => r * r).sum

section Real
variable {p : Residuals Exact} {points : List (Observation ℝ)} {g : Gaussian ℝ}

theorem dot_real {ι : Type} (xs : List ι) (f f' : ι → ℝ) :
    dot (xs.map fun i => real (f i)) (xs.map fun i => real (f' i)) =
      real (xs.map fun i => f i * f' i).sum := by
  rw [← Sum.pairwise_real, List.map_map, dot, List.zipWith_map, List.zipWith_self]
  rfl

theorem values_exact (hpoints : p.points = points.map Observation.exact) (h : g.HasAxes) :
    p.values g.exact = (points.map (missReal g)).map real := by
  rw [values_eq, hpoints, misses, List.map_map, List.map_map]
  apply List.map_congr_left
  intro o _
  have hvalue : g.exact.valueWith g.exact.form (real o.x) (real o.y) = real (g.height o.x o.y) :=
    value_exact h o.x o.y
  simp only [Function.comp_apply, Observation.exact, hvalue, sub_real, missReal]

theorem cost_exact (hpoints : p.points = points.map Observation.exact) (h : g.HasAxes) :
    p.cost g.exact = real (halfSquares (points.map (missReal g))) := by
  have hdot : dot (p.values g.exact) (p.values g.exact) =
      real (points.map fun o => missReal g o * missReal g o).sum := by
    rw [values_exact hpoints h, List.map_map]
    exact dot_real points _ _
  rw [cost, hdot, half_eq, mul_real, one_div_mul_eq_div, ← half_def, halfSquares, List.map_map]
  rfl

theorem gradient_exact (hpoints : p.points = points.map Observation.exact)
    (hp : p.differencing.isAnalytic = true) (h : g.HasAxes) (k : Parameter) :
    k.get (p.gradient g.exact) =
      real (points.map fun o => k.get (g.partials o.x o.y) * missReal g o).sum := by
  have hcolumn : k.get (p.columns g.exact) =
      points.map fun o => real (k.get (g.partials o.x o.y)) := by
    rw [get_columns, jacobian_eq p _ hp, hpoints, slopesAt, List.map_map, List.map_map]
    apply List.map_congr_left
    intro o _
    have hderivatives : g.exact.derivativesWith g.exact.slopes (real o.x) (real o.y) =
        (g.partials o.x o.y).exact := derivatives_exact h o.x o.y
    simp only [Function.comp_apply, Observation.exact, hderivatives]
    exact k.get_map real _
  rw [gradient, Parameter.get_map, hcolumn, values_exact hpoints h, List.map_map]
  exact dot_real points _ _

/-! ## The chain rule -/

theorem hasDerivAt_sum_map {ι : Type} {f : ι → ℝ → ℝ} {f' : ι → ℝ} {t : ℝ} (xs : List ι)
    (h : ∀ i ∈ xs, HasDerivAt (f i) (f' i) t) :
    HasDerivAt (fun u => (xs.map fun i => f i u).sum) (xs.map f').sum t := by
  induction xs with
  | nil => exact hasDerivAt_const t 0
  | cons i xs ih =>
    simp only [List.map_cons, List.sum_cons]
    exact (h i List.mem_cons_self).add (ih fun j hj => h j (List.mem_cons_of_mem i hj))

theorem hasDerivAt_halfSquares {ι : Type} {f : ι → ℝ → ℝ} {f' : ι → ℝ} {t : ℝ} (xs : List ι)
    (h : ∀ i ∈ xs, HasDerivAt (f i) (f' i) t) :
    HasDerivAt (fun u => halfSquares (xs.map fun i => f i u))
      (xs.map fun i => f' i * f i t).sum t := by
  have hsquares := hasDerivAt_half (hasDerivAt_sum_map xs fun i hi => (h i hi).mul (h i hi))
  simp only [halfSquares, List.map_map]
  refine hsquares.congr_deriv ?_
  -- both factors of a square change at the same rate
  have hterm (i : ι) : f' i * f i t + f i t * f' i = 2 * (f' i * f i t) := by ring
  simp only [hterm, half_def, List.sum_map_mul_left]
  exact mul_div_cancel_left₀ _ two_ne_zero

theorem hasDerivAt_cost (h : g.HasAxes) (points : List (Observation ℝ)) (k : Parameter) :
    HasDerivAt (fun u => halfSquares (points.map (missReal (k.set g u))))
      (points.map fun o => k.get (g.partials o.x o.y) * missReal g o).sum (k.get g) := by
  have hmiss (o : Observation ℝ) :
      HasDerivAt (fun u => missReal (k.set g u) o) (k.get (g.partials o.x o.y)) (k.get g) :=
    (hasDerivAt_height h o.x o.y k).sub_const o.value
  have hsum := hasDerivAt_halfSquares points fun o _ => hmiss o
  rwa [Parameter.set_get] at hsum

theorem halfSquares_nonneg (rs : List ℝ) : 0 ≤ halfSquares rs := by
  have hsum : 0 ≤ (rs.map fun r => r * r).sum := by
    apply List.sum_nonneg
    intro x hx
    obtain ⟨r, -, rfl⟩ := List.mem_map.1 hx
    exact mul_self_nonneg r
  rw [halfSquares, half_def]
  exact div_nonneg hsum zero_le_two

theorem halfSquares_eq_zero_iff (rs : List ℝ) : halfSquares rs = 0 ↔ ∀ r ∈ rs, r = 0 := by
  induction rs with
  | nil => simp [halfSquares, half_def]
  | cons r rs ih =>
    have hcons : halfSquares (r :: rs) = r * r / 2 + halfSquares rs := by
      simp only [halfSquares, half_def, List.map_cons, List.sum_cons]
      ring
    have hhead : 0 ≤ r * r / 2 := div_nonneg (mul_self_nonneg r) zero_le_two
    rw [hcons, add_eq_zero_iff_of_nonneg hhead (halfSquares_nonneg rs), ih, List.forall_mem_cons,
      div_eq_zero_iff, or_iff_left two_ne_zero, mul_self_eq_zero]

end Real

/-! ## The objective -/

/-- Residuals make a consistent objective at a Gaussian, for some observations: the cost is half
the sum of the squared residuals, its slope along each parameter is the entry of the gradient for
it, and it says whether the Gaussian passes through the observations. A descent sees the
parameters, and the gradient, as lists. -/
structure IsConsistent (p : Residuals Exact) (points : List (Observation ℝ)) (g : Gaussian ℝ) :
    Prop where
  halves : ∃ rs : List ℝ, p.values g.exact = rs.map real ∧ p.cost g.exact = real (halfSquares rs)
  slope : ∀ k : Parameter,
    IsSlope (fun u => p.cost (k.set g u).exact) (k.get (p.gradient g.exact)) (k.get g)
  value : ∀ (k : Parameter) (u : ℝ),
    p.objective.value (g.exact.toList.set k.index (real u)) = p.cost (k.set g u).exact
  entry : ∀ k : Parameter,
    (p.objective.gradient g.exact.toList)[k.index]? = some (k.get (p.gradient g.exact))
  nonneg : 0.0 ≤ p.cost g.exact
  zero_iff : p.cost g.exact = 0.0 ↔
    ∀ o ∈ points, g.exact.value (real o.x) (real o.y) = real o.value

section Consistent
variable {points : List (Observation ℝ)} {g : Gaussian ℝ}

theorem isConsistent {p : Residuals Exact} (hp : p.differencing.isAnalytic = true)
    (hpoints : p.points = points.map Observation.exact) (h : g.HasAxes) :
    p.IsConsistent points g where
  halves := ⟨_, values_exact hpoints h, cost_exact hpoints h⟩
  slope k := by
    refine ⟨_, _, ?_, gradient_exact hpoints hp h k, hasDerivAt_cost h points k⟩
    exact (eventually_hasAxes h k).mono fun u hu => cost_exact hpoints hu
  value k u := by
    rw [Parameter.set_toList, ← Parameter.exact_set]
    rfl
  entry k := Parameter.getElem?_toList (p.gradient g.exact) k
  nonneg := by
    rw [cost_exact hpoints h, zero_eq, le_real]
    exact halfSquares_nonneg _
  zero_iff := by
    rw [cost_exact hpoints h, zero_eq, Exact.real.injEq, halfSquares_eq_zero_iff,
      List.forall_mem_map]
    refine forall₂_congr fun o _ => ?_
    rw [value_exact h, Exact.real.injEq, missReal, sub_eq_zero]

theorem observed_exact (points : List (Observation ℝ)) :
    observed (points.map fun o => real o.x) (points.map fun o => real o.y)
      (points.map fun o => real o.value) = points.map Observation.exact := by
  rw [observed, List.zip_map', List.zip_map', List.map_map]
  rfl

end Consistent

/-- Real observations, however many and wherever they are, make a consistent objective at every
Gaussian whose axes are not zero. This holds for both methods with the derivatives of the
Gaussian itself, which differ in their blocks, and it would hold for any other blocks. -/
theorem objective_consistent (points : List (Observation ℝ)) (g : Gaussian ℝ)
    (hmajor : g.semimajor ≠ 0) (hminor : g.semiminor ≠ 0) :
    (∀ d : Differencing, d.isAnalytic = true →
      ∃ p, ofColumns? d (points.map fun o => real o.x) (points.map fun o => real o.y)
          (points.map fun o => real o.value) = some p ∧ p.IsConsistent points g) ∧
    ∀ p : Residuals Exact, p.differencing.isAnalytic = true →
      p.points = points.map Observation.exact → p.IsConsistent points g := by
  have h : g.HasAxes := ⟨hmajor, hminor⟩
  refine ⟨fun d hd => ?_, fun p hp hpoints => isConsistent hp hpoints h⟩
  refine ⟨ofObservations d (points.map Observation.exact), ?_, isConsistent hd ?_ h⟩
  · rw [ofColumns?_eq (by simp) (by simp), observed_exact]
  · exact points_ofObservations d _

/-- Three pixels in two rows. -/
noncomputable def scattered : List (Observation ℝ) := [⟨0, 0, 1⟩, ⟨1, 0, -1⟩, ⟨0, 1, 0⟩]

/-- The objective at a Gaussian at a slant, with a block for each row and with one block. -/
theorem objective_consistent_scattered : slanted.semimajor ≠ 0 ∧ slanted.semiminor ≠ 0 ∧
    (Differencing.analytic.isAnalytic = true ∧
      Differencing.analyticSingleBlock.isAnalytic = true) ∧
    (∃ p, ofColumns? .analytic (scattered.map fun o => real o.x)
      (scattered.map fun o => real o.y) (scattered.map fun o => real o.value) = some p ∧
        p.IsConsistent scattered slanted) ∧
    ∃ p, ofColumns? .analyticSingleBlock (scattered.map fun o => real o.x)
      (scattered.map fun o => real o.y) (scattered.map fun o => real o.value) = some p ∧
        p.IsConsistent scattered slanted := by
  have hmajor : slanted.semimajor ≠ 0 := by norm_num [slanted]
  have hminor : slanted.semiminor ≠ 0 := by norm_num [slanted]
  obtain ⟨hmethods, -⟩ := objective_consistent scattered slanted hmajor hminor
  exact ⟨hmajor, hminor, ⟨rfl, rfl⟩, hmethods .analytic rfl, hmethods .analyticSingleBlock rfl⟩

end Residuals
end SkySources
