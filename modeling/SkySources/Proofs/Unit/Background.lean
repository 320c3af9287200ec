import Mathlib
import SkySources.Proofs.Estimate
import SkySources.Proofs.Median.Bins
import SkySources.Proofs.Moments
import SkySources.Proofs.Unit.Scale

/-!
# The background in another unit

Mean, deviation and median of intensities are intensities, so they change with the
unit, for every way of finding the median: a list keeps its order, and the bins move
along with the values. The test for flatness does not change with the unit, though: it
is relative to the mean, but takes no mean to be smaller than one. So the estimate
changes with the unit if no deviation on the way lies between the tolerances that the
two units give (`IsClear`), and only then (`estimate_unit_dependent`).

What is proved, with exact numbers:
  1. `Moments.mean_scale`, `Moments.deviation_scale`, `Median.of_scale`: the estimates of
     a list;
  2. `isFlat_scale`: a clear sample is flat in both units, or in none;
  3. `report_scale`: the estimate of an image;
  4. `named?_scale`: also for methods that have no median.
-/

namespace SkySources

open Exact

variable {k : ℝ} (hk : 0 < k)

/-! ## Means and deviations -/

namespace Moments
variable {total : List Exact → Exact}
  (htotal : ∀ xs : List Exact, total (xs.map (scale k)) = scale k (total xs))
include hk htotal

theorem mean_scale (xs : List Exact) : mean total (xs.map (scale k)) = scale k (mean total xs) := by
  rw [mean, mean, htotal, List.length_map, scale_div hk]

theorem deviation_scale (xs : List Exact) :
    deviation total (xs.map (scale k)) = scale k (deviation total xs) := by
  have hsquares (m : Exact) : (xs.map (scale k)).map (fun x => Scalar.square (x - scale k m)) =
      ((xs.map fun x => Scalar.square (x - m)).map (scale k)).map (scale k) := by
    rw [List.map_map, List.map_map, List.map_map]
    apply List.map_congr_left
    intro x _
    simp only [Function.comp_apply, ← scale_sub hk, square_scale hk]
  unfold deviation
  simp only
  rw [List.isEmpty_map, mean_scale hk htotal, hsquares, mean_scale hk htotal,
    mean_scale hk htotal, sqrt_scale hk]
  split
  · exact (scale_zero k).symm
  · rfl

end Moments

/-! ## Medians -/

namespace Median
include hk

theorem running_scale (xs : List Exact) :
    Sum.running (xs.map (scale k)) = scale k (Sum.running xs) :=
  Sum.running_map (scale_add hk) (scale_zero k) xs

theorem middle_scale (xs : List Exact) : middle (xs.map (scale k)) = scale k (middle xs) := by
  unfold middle
  rw [List.length_map, List.getElem?_map, List.getElem?_map]
  cases xs[(xs.length - 1) / 2]? with
  | none => rfl
  | some low =>
    cases xs[xs.length / 2]? with
    | none => rfl
    | some high =>
      simp only [Option.map_some, ← scale_add hk, scale_div hk]
      split <;> rfl

/-- A list keeps its order. -/
theorem ascending_scale (xs : List Exact) :
    ascending (xs.map (scale k)) = (ascending xs).map (scale k) := by
  rw [ascending, ascending, List.map_mergeSort]
  intro x _ y _
  exact decide_eq_decide.2 (scale_le_scale hk x y).symm

theorem exact_scale (xs : List Exact) : exact (xs.map (scale k)) = scale k (exact xs) := by
  rw [exact, exact, List.all_map]
  simp only [Function.comp_def, isNumber_scale hk, ascending_scale hk, middle_scale hk]
  split <;> rfl

namespace Bins

/-- Bins that move along with the values; a unit has more or fewer of them. -/
noncomputable def rescale (k : ℝ) (b : Bins Exact) : Bins Exact :=
  ⟨Exact.scale k b.lower, Exact.scale k⁻¹ b.scale, b.count⟩

theorem spanning_rescale (mean deviation : Exact) (count : Nat) :
    spanning (Exact.scale k mean) (Exact.scale k deviation) count =
      (spanning mean deviation count).rescale k := by
  rw [spanning, ← scale_sub hk, mul_scale hk, div_scale hk]
  rfl

variable (b : Bins Exact)

theorem isBelow_rescale (x : Exact) :
    decide (Exact.scale k x < (b.rescale k).lower) = decide (x < b.lower) :=
  decide_eq_decide.2 (scale_lt_scale hk x b.lower)

/-- A value stays in its bin. -/
theorem slot_rescale (x : Exact) : (b.rescale k).slot (Exact.scale k x) = b.slot x := by
  rw [slot, slot, rescale, ← scale_sub hk, scale_mul_scale_inv hk]

theorem isIn_rescale (i : Nat) (x : Exact) :
    (b.rescale k).isIn i (Exact.scale k x) = b.isIn i x := by
  rw [isIn, isIn, isBelow_rescale hk, slot_rescale hk]

theorem counts_rescale (xs : List Exact) :
    (b.rescale k).counts (xs.map (Exact.scale k)) = b.counts xs := by
  rw [counts_eq, counts_eq]
  simp only [List.countP_map, Function.comp_def, isIn_rescale hk]
  rfl

theorem ranked?_rescale (rank : Nat) (xs : List Exact) :
    (b.rescale k).ranked? rank (xs.map (Exact.scale k)) = b.ranked? rank xs := by
  have hbelow : ((b.rescale k).below (xs.map (Exact.scale k))).length = (b.below xs).length := by
    rw [below, below, List.filter_map, List.length_map]
    simp only [Function.comp_def, isBelow_rescale hk]
  rw [ranked?, ranked?, hbelow, counts_rescale hk]

theorem centre_rescale (i : Nat) : (b.rescale k).centre i = Exact.scale k (b.centre i) := by
  have hinv := div_scale (inv_pos.2 hk) (Scalar.ofNat i + 0.5) b.scale
  rw [inv_inv] at hinv
  rw [centre, centre, rescale, hinv, scale_add hk]

end Bins

theorem binned_scale (count : Nat) (xs : List Exact) :
    binned count (xs.map (scale k)) = scale k (binned count xs) := by
  have hzero (d : Exact) : Scalar.sameValue (scale k d) 0.0 = Scalar.sameValue d 0.0 := by
    rw [← sameValue_scale hk d 0.0, scale_zero]
  simp only [binned, Moments.mean_scale hk (running_scale hk),
    Moments.deviation_scale hk (running_scale hk), hzero, Bins.spanning_rescale hk, List.length_map,
    Bins.ranked?_rescale hk]
  split
  · rfl
  · cases (Bins.spanning _ _ count).ranked? (middleRank xs.length) xs with
    | none => exact (scale_add hk _ _).symm
    | some i => exact Bins.centre_rescale hk _ i

/-- A median changes with the unit, however it is found. -/
theorem of_scale (method : Method) (bins : Nat) (xs : List Exact) :
    of method bins (xs.map (scale k)) = scale k (of method bins xs) := by
  cases method with
  | exact => exact exact_scale hk xs
  | binapprox => exact binned_scale hk bins xs
  | zero => exact (scale_zero k).symm

end Median

/-! ## Rounds -/

namespace Background
variable {c : Clipping Exact}

/-- A sample in another unit. -/
noncomputable abbrev Sample.scale (k : ℝ) (s : Sample Exact) : Sample Exact :=
  s.map (Exact.scale k) (Exact.scale k)

/-- An estimate in another unit. -/
noncomputable abbrev scale (k : ℝ) (b : Background Exact) : Background Exact :=
  b.map (Exact.scale k) (Exact.scale k)

/-- The report of an estimate in another unit. -/
noncomputable abbrev Report.scale (k : ℝ) (r : Report Exact) : Report Exact :=
  r.map (Exact.scale k) (Exact.scale k)

/-- The deviation does not lie between what counts as nothing beside the mean in one
unit and in the other. -/
def Sample.IsClear (k : ℝ) (s : Sample Exact) : Prop :=
  s.sigma ≤ 1e-12 * Scalar.larger (Scalar.abs s.mean) (real k⁻¹) ↔
    s.sigma ≤ 1e-12 * Scalar.larger (Scalar.abs s.mean) 1.0

include hk

/-- In another unit, no mean is taken to be smaller than one of that unit. -/
theorem isFlat_scale_iff (s : Sample Exact) : (s.scale k).isFlat = true ↔
    s.sigma ≤ 1e-12 * Scalar.larger (Scalar.abs s.mean) (real k⁻¹) := by
  have hone : (1.0 : Exact) = Exact.scale k (real k⁻¹) := by
    rw [scale_real, mul_inv_cancel₀ hk.ne', one_eq]
  rw [Sample.isFlat, decide_eq_true_iff]
  change Exact.scale k s.sigma ≤
    1e-12 * Scalar.larger (Scalar.abs (Exact.scale k s.mean)) 1.0 ↔ _
  rw [hone, abs_scale hk, larger_scale hk, mul_scale hk, scale_le_scale hk]

theorem isFlat_scale {s : Sample Exact} (h : s.IsClear k) : (s.scale k).isFlat = s.isFlat := by
  rw [Bool.eq_iff_iff, isFlat_scale_iff hk, Sample.isFlat, decide_eq_true_iff]
  exact h

/-- A sample whose mean is not small in either unit is clear. -/
theorem isClear_of_one_le {m : ℝ} {s : Sample Exact} (hm : s.mean = real m) (h : 1 ≤ |m|)
    (h' : 1 ≤ k * |m|) : s.IsClear k := by
  rw [Sample.IsClear, hm, one_eq, abs_real, larger_real, larger_real, max_eq_left h,
    max_eq_left ((inv_le_iff_one_le_mul₀' hk).2 h')]

theorem pairwise_scale (xs : List Exact) :
    Sum.pairwise (xs.map (Exact.scale k)) = Exact.scale k (Sum.pairwise xs) :=
  Sum.pairwise_map (scale_add hk) (scale_zero k) xs

/-- A change of unit carries over to the estimate of a sample. -/
theorem carries_scale : Carries c (Exact.scale k) (Exact.scale k) where
  isFinite := isFinite_scale hk
  zero := scale_zero k
  missing := rfl
  sample xs _ := by
    rw [Sample.of, Sample.of, Moments.mean_scale hk (pairwise_scale hk),
      Moments.deviation_scale hk (pairwise_scale hk), Median.of_scale hk]
    rfl
  near x median sigma := by
    rw [← scale_sub hk, abs_scale hk, mul_scale hk, scale_le_scale hk]

/-- The estimate of an image in another unit. -/
theorem report_scale (data : List Exact) (hclear : ∀ s ∈ weighed c data, s.IsClear k) :
    report c (data.map (Exact.scale k)) = (report c data).scale k :=
  report_map (carries_scale hk) data fun s hs => isFlat_scale hk (hclear s hs)

/-- Whether there is a fault does not depend on the unit. -/
theorem fault_scale (bins : Int) (data : List Exact) (hclear : ∀ s ∈ weighed c data, s.IsClear k) :
    fault c bins (data.map (Exact.scale k)) = fault c bins data := by
  have hzero (d : Exact) : Scalar.sameValue (Exact.scale k d) 0.0 = Scalar.sameValue d 0.0 := by
    rw [← sameValue_scale hk d 0.0, scale_zero]
  have hkept : ((report c data).scale k).kept = (report c data).kept.map (Exact.scale k) := rfl
  simp only [fault, Median.binFault, report_scale hk data hclear, hkept,
    finite_map (carries_scale (c := c) hk), List.isEmpty_map, hzero,
    Moments.deviation_scale hk (Median.running_scale hk)]

/-- The estimate for a method given by its name, in another unit. -/
theorem named?_scale (c : Clipping Exact) (method : String) (bins : Int) (data : List Exact)
    (hclear : ∀ m, Median.Method.ofName? method = some m →
      ∀ s ∈ weighed { c with method := m, bins := bins.toNat } data, s.IsClear k) :
    named? c method bins (data.map (Exact.scale k)) =
      (named? c method bins data).map (Report.scale k) := by
  unfold named?
  cases hm : Median.Method.ofName? method with
  | some m =>
    have hclear := hclear m hm
    simp only [fault_scale hk bins data hclear, report_scale hk data hclear]
    split <;> rfl
  | none =>
    simp only [finite_map (carries_scale (c := c) hk), List.isEmpty_map]
    split
    · next hempty =>
      -- without a finite value no sample is looked at
      have hnone : weighed c data = [] := if_pos hempty
      rw [report_scale hk data (by simp [hnone])]
      rfl
    · rfl

omit hk

/-! ## Two values -/

theorem mean_pair (x y : ℝ) : Moments.mean Sum.pairwise [real x, real y] = real ((x + y) / 2) := by
  rw [← Moments.level_pair]
  exact Moments.mean_real Sum.pairwise_real (List.cons_ne_nil x [y])

theorem deviation_pair (x y : ℝ) :
    Moments.deviation Sum.pairwise [real x, real y] = real (|x - y| / 2) := by
  rw [← Moments.spread_pair]
  exact Moments.deviation_real Sum.pairwise_real (List.cons_ne_nil x [y])

/-- Clipping without a round, which estimates from all values. -/
noncomputable def unclipped : Clipping Exact :=
  { numSigma := real 1, rounds := 0, method := .zero, bins := 1000, minCount := 2 }

/-- Two values are taken for flat if they differ by less than the tolerance. -/
theorem isFlat_pair (c : Clipping Exact) {x : ℝ} (hx : 0 ≤ x) :
    (Sample.of c [real 0, real x]).isFlat = decide (x / 2 ≤ 1e-12 * max (x / 2) 1) := by
  have htolerance : (1e-12 : Exact) = real 1e-12 := ofScientific_eq _ _ _
  have hhalf : |x / 2| = x / 2 := abs_of_nonneg (by positivity)
  simp only [Sample.isFlat, Sample.of, mean_pair, deviation_pair, zero_add, zero_sub, abs_neg,
    abs_of_nonneg hx, abs_real, hhalf, one_eq, htolerance, larger_real, mul_real, le_real]

theorem reliable_pair {x : ℝ} (hx : 0 ≤ x) :
    (named? unclipped "zero" 1000 [real 0, real x]).map (·.background.reliable) =
      .ok (!decide (x / 2 ≤ 1e-12 * max (x / 2) 1)) := by
  have hmethod : Median.Method.ofName? "zero" = some .zero := by decide
  have hfinite : finite [real 0, real x] = [real 0, real x] := rfl
  have hsmall : (Sample.of unclipped [real 0, real x]).isSmall unclipped = false := rfl
  rw [← isFlat_pair unclipped hx]
  simp only [named?, hmethod]
  change (Except.ok (report unclipped [real 0, real x])).map (·.background.reliable) = _
  simp only [Except.map, report, hfinite, hsmall, List.isEmpty_cons, Bool.false_eq_true, if_false]
  cases (Sample.of unclipped [real 0, real x]).isFlat <;> rfl

/-- Whether the estimate from two values is reliable depends on the unit that they are
given in: zero and one make an estimate, and the same values in a unit that is larger by
ten to the thirteenth are taken for flat. -/
theorem estimate_unit_dependent :
    (named? unclipped "zero" 1000 [real 0, real 1]).map (·.background.reliable) = .ok true ∧
      (named? unclipped "zero" 1000 ([real 0, real 1].map (Exact.scale 1e-13))).map
        (·.background.reliable) = .ok false := by
  constructor
  · rw [reliable_pair zero_le_one]
    norm_num
  · have hscaled : [real 0, real 1].map (Exact.scale 1e-13) = [real 0, real 1e-13] := by simp
    rw [hscaled, reliable_pair (by norm_num)]
    norm_num

end Background
end SkySources
