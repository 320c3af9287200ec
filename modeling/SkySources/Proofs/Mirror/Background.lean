import Mathlib
import SkySources.Proofs.Estimate
import SkySources.Proofs.Exact
import SkySources.Proofs.Median
import SkySources.Proofs.Noise
import SkySources.Proofs.Sum

/-!
# The background of a negated image

Level and median of negated values are negated, and noise, counts and rounds are
the same. It takes a median that is sorted out or zero: bins are open at one end
only, so a binned median is not symmetric.

What is proved, with `mirror` for the result on negated values:
  1. `mean_neg`, `deviation_neg`: means change their sign, deviations do not;
  2. `exact_neg`: the middle of the reversed order is the middle of the order;
  3. `carries_neg`: so negation carries over to the estimate of a sample;
  4. `report_mirror`: and to the whole estimate.
-/

namespace SkySources

open Exact

/-! ## Means and deviations -/

namespace Moments

theorem mean_neg (xs : List Exact) :
    mean Sum.pairwise (xs.map Neg.neg) = -mean Sum.pairwise xs := by
  rw [mean, mean, Sum.pairwise_map (fun a b => (neg_add_neg a b).symm) neg_zero_eq, neg_div_eq,
    List.length_map]

theorem deviation_neg (xs : List Exact) :
    deviation Sum.pairwise (xs.map Neg.neg) = deviation Sum.pairwise xs := by
  have hsquares (m : Exact) : (xs.map Neg.neg).map (fun x => Scalar.square (x - -m)) =
      xs.map fun x => Scalar.square (x - m) := by
    rw [List.map_map]
    simp only [Function.comp_def, sub_neg_eq_neg, square_neg_eq]
  unfold deviation
  simp only
  rw [List.isEmpty_map, mean_neg, hsquares]

end Moments

/-! ## Medians -/

namespace Median

/-- Negated numbers in ascending order are the numbers in descending order. -/
theorem mergeSort_neg (ys : List ℝ) :
    (ys.map Neg.neg).mergeSort (· ≤ ·) = ((ys.mergeSort (· ≤ ·)).map Neg.neg).reverse := by
  apply List.Perm.eq_of_pairwise' (r := (· ≤ ·))
  · exact List.pairwise_mergeSort' _ _
  · rw [List.pairwise_reverse, List.pairwise_map]
    exact (List.pairwise_mergeSort' (· ≤ ·) ys).imp neg_le_neg
  · have hneg : ((ys.mergeSort (· ≤ ·)).map Neg.neg).Perm (ys.map Neg.neg) :=
      (List.mergeSort_perm ys _).map _
    exact (List.mergeSort_perm _ _).trans (hneg.symm.trans (List.reverse_perm _).symm)

/-- In an order that is reversed and negated, the middle is negated. -/
theorem middle_reverse_neg (xs : List Exact) :
    middle (xs.map Neg.neg).reverse = -middle xs := by
  unfold middle
  rw [List.length_reverse, List.length_map]
  rcases Nat.eq_zero_or_pos xs.length with h0 | hpos
  · rw [List.length_eq_zero_iff.1 h0]
    rfl
  · have hlow : (xs.length - 1) / 2 < xs.length := by omega
    have hhigh : xs.length / 2 < xs.length := by omega
    -- the lower middle entry becomes the upper one
    have hswap : xs.length - 1 - (xs.length - 1) / 2 = xs.length / 2 := by omega
    have hswap' : xs.length - 1 - xs.length / 2 = (xs.length - 1) / 2 := by omega
    rw [List.getElem?_reverse (by rwa [List.length_map]),
      List.getElem?_reverse (by rwa [List.length_map]), List.length_map, hswap, hswap',
      List.getElem?_map, List.getElem?_map, List.getElem?_eq_getElem hlow,
      List.getElem?_eq_getElem hhigh]
    simp only [Option.map_some]
    split
    · next hodd =>
      have hsame : xs.length / 2 = (xs.length - 1) / 2 := by omega
      simp only [hsame]
    · rw [neg_add_neg, neg_div_eq, add_comm_eq]

/-- The middle of negated numbers is negated. -/
theorem exact_neg {xs : List Exact} (h : ∀ a ∈ xs, Scalar.isFinite a = true) :
    exact (xs.map Neg.neg) = -exact xs := by
  obtain ⟨ys, rfl⟩ := exists_map_real h
  have hnumbers (zs : List ℝ) : (zs.map real).all Scalar.isNumber = true := by
    rw [List.all_map, List.all_eq_true]
    intro x _
    exact decide_eq_true (le_refl x)
  have hneg : (ys.map real).map Neg.neg = (ys.map Neg.neg).map real := by
    rw [List.map_map, List.map_map]
    rfl
  -- finite numbers are sorted as real numbers, where the order is total
  rw [exact, exact, hneg, if_pos (hnumbers _), if_pos (hnumbers _), ascending_real, mergeSort_neg,
    ascending_real, ← middle_reverse_neg, List.map_reverse, List.map_map, List.map_map]
  rfl

theorem of_neg {method : Method} (hm : method ≠ .binapprox) (bins : Nat) {xs : List Exact}
    (h : ∀ a ∈ xs, Scalar.isFinite a = true) :
    of method bins (xs.map Neg.neg) = -of method bins xs := by
  cases method with
  | exact => exact exact_neg h
  | binapprox => exact absurd rfl hm
  | zero => exact neg_zero_eq.symm

end Median

/-! ## Rounds -/

namespace Background

/-- The sample of the negated values. -/
noncomputable def Sample.mirror (s : Sample Exact) : Sample Exact :=
  ⟨s.values.map Neg.neg, -s.mean, s.sigma, -s.median⟩

/-- The estimate from negated values. -/
noncomputable def mirror (b : Background Exact) : Background Exact :=
  { b with mean := -b.mean, median := -b.median }

/-- The report of the estimate from negated values. -/
noncomputable def Report.mirror (r : Report Exact) : Report Exact :=
  ⟨r.background.mirror, r.kept.map Neg.neg, r.collapse⟩

variable {c : Clipping Exact} (hm : c.method ≠ .binapprox)

theorem isFlat_mirror (s : Sample Exact) : s.mirror.isFlat = s.isFlat := by
  simp only [Sample.isFlat, Sample.mirror, abs_neg_eq]

include hm

theorem sample_mirror {xs : List Exact} (h : ∀ a ∈ xs, Scalar.isFinite a = true) :
    Sample.of c (xs.map Neg.neg) = (Sample.of c xs).mirror := by
  rw [Sample.of, Sample.of, Moments.mean_neg, Moments.deviation_neg, Median.of_neg hm c.bins h]
  rfl

/-- The exact median needs finite values, which stay so from round to round. -/
theorem carries_neg : Carries c Neg.neg id where
  isFinite := isFinite_neg
  zero := neg_zero_eq
  missing := rfl
  sample _ := sample_mirror hm
  near x median sigma := by rw [sub_neg_eq_neg, abs_neg_eq, id]

/-- The estimate from negated values. -/
theorem report_mirror (data : List Exact) :
    report c (data.map Neg.neg) = (report c data).mirror :=
  report_map (carries_neg hm) data fun s _ => isFlat_mirror s

omit hm

/-! ## Noise -/

/-- No estimate has a negative deviation. -/
theorem isNoise_report (c : Clipping Exact) (data : List Exact) :
    IsNoise (report c data).background.sigma :=
  sigma_report (.inl (by rw [zero_eq, le_real])) isNoise_sqrt (.inr rfl) c data

end Background
end SkySources
