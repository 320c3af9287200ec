import Mathlib
import SkySources.Proofs.Median.Binned

/-!
# How close the binned median comes to the exact one

The exact median lies halfway between the two middle entries of a list, which are one and the
same if the list has an odd number of values. The binned median is the middle of the bin with
the lower middle entry, so it is half the width of a bin away from that entry at most. If the
two middle entries are equal, this is the distance from the exact median as well. Otherwise
half the distance between them comes on top, and once they are more than two bins apart the
binned median never is within half the width of a bin.

What is proved:
  1. `exact_of_hasRank`: the exact median, from the two middle entries;
  2. `exists_binned_near`: the binned median of every list is near the lower middle entry;
  3. `named?_binapprox_near`: so how close it comes to the exact median;
  4. `named?_binapprox_far`: two values for which it is further away than that.
-/

namespace SkySources.Median

open Exact Moments

/-! ## The exact median -/

/-- The rank of the upper middle entry of so many. -/
def upperRank (n : Nat) : Nat := n / 2 + 1

theorem exists_hasRank_upper {xs : List ℝ} (hne : xs ≠ []) :
    ∃ v, HasRank xs (upperRank xs.length) v := by
  have hpos := List.length_pos_iff.2 hne
  unfold upperRank
  exact exists_hasRank (Nat.succ_pos _) (by omega)

section Middle
variable {xs : List ℝ} {low high : ℝ} (hlow : HasRank xs (middleRank xs.length) low)
  (hhigh : HasRank xs (upperRank xs.length) high)
include hlow hhigh

theorem low_le_high : low ≤ high := by
  apply hlow.le_of_le hhigh
  unfold middleRank upperRank
  omega

/-- An odd number of values has one middle entry. -/
theorem low_eq_high (hodd : xs.length % 2 = 1) : low = high := by
  have hrank : upperRank xs.length = middleRank xs.length := by
    unfold middleRank upperRank
    omega
  rw [hrank] at hhigh
  exact hlow.eq hhigh

/-- The exact median lies halfway between the two middle entries. -/
theorem exact_of_hasRank : exact (xs.map real) = real ((low + high) / 2) := by
  have hindex : middleRank xs.length - 1 = (xs.length - 1) / 2 := by
    unfold middleRank
    omega
  have hlower := hlow.2
  have hupper := hhigh.2
  rw [hindex] at hlower
  rw [upperRank, Nat.add_sub_cancel] at hupper
  simp only [exact_real, middle, List.length_map, List.length_mergeSort, List.getElem?_map,
    hlower, hupper, Option.map_some]
  split
  · next hodd => rw [← low_eq_high hlow hhigh hodd, add_self_div_two]
  · rw [add_real, two_eq, div_real _ two_ne_zero]

end Middle

/-! ## The binned median -/

/-- The binned median is within half the width of a bin of the lower middle entry. -/
theorem exists_binned_near {xs : List ℝ} {low : ℝ} (hlow : HasRank xs (middleRank xs.length) low)
    {count : Nat} (hcount : 1 ≤ count) :
    ∃ b, binned count (xs.map real) = real b ∧ |b - low| ≤ spread xs / count := by
  rcases (spread_nonneg xs).eq_or_lt with hflat | hspread
  · -- without a deviation the mean is taken, and all values are equal to it
    refine ⟨level xs, ?_, ?_⟩
    · rw [binned_real (List.ne_nil_of_mem hlow.mem), if_pos hflat.symm]
    · rw [abs_sub_comm, ← hflat, zero_div, hflat]
      exact hlow.abs_sub_level_le
  · obtain ⟨i, -, hle, hlt, -, hbinned⟩ := exists_binned_middle hspread hcount hlow
    exact ⟨_, hbinned, abs_midpoint_sub_le hle hlt⟩

theorem named?_exact (count : Int) (xs : List Exact) : named? "exact" count xs = .ok (exact xs) := by
  have hmethod : Method.ofName? "exact" = some .exact := by decide
  simp only [named?, hmethod, of]

theorem named?_binapprox {xs : List Exact} (hne : xs ≠ []) (count : Nat) :
    named? "binapprox" count xs = .ok (binned count xs) := by
  have hmethod : Method.ofName? "binapprox" = some .binapprox := by decide
  simp only [named?, hmethod, binned?_eq_ok hne]

/-! ## The distance -/

section Distance
variable {b low high e : ℝ} (hnear : |b - low| ≤ e)
include hnear

theorem abs_sub_half_le (hle : low ≤ high) : |b - (low + high) / 2| ≤ e + (high - low) / 2 := by
  obtain ⟨hbelow, habove⟩ := abs_le.1 hnear
  rw [abs_le]
  constructor <;> linarith

theorem lt_abs_sub_half (hfar : 4 * e < high - low) : e < |b - (low + high) / 2| := by
  obtain ⟨-, habove⟩ := abs_le.1 hnear
  rw [lt_abs]
  right
  linarith

end Distance

/-- The binned median of every list of numbers is within half the width of a bin of the lower
middle entry. The exact one lies halfway to the upper middle entry: so the two medians are
within half the width of a bin of each other if the middle entries are equal, in particular if
the number of values is odd, and otherwise by half their distance further apart at most. If
the middle entries are more than two bins apart, the two medians are not that close. -/
theorem named?_binapprox_near {xs : List ℝ} (hne : xs ≠ []) {count : Nat} (hcount : 1 ≤ count) :
    ∃ low high b, HasRank xs (middleRank xs.length) low ∧ HasRank xs (upperRank xs.length) high ∧
      low ≤ high ∧ (xs.length % 2 = 1 → low = high) ∧
      named? "exact" count (xs.map real) = .ok (real ((low + high) / 2)) ∧
      named? "binapprox" count (xs.map real) = .ok (real b) ∧
      |b - low| ≤ spread xs / count ∧
      (low = high → |b - (low + high) / 2| ≤ spread xs / count) ∧
      |b - (low + high) / 2| ≤ spread xs / count + (high - low) / 2 ∧
      (4 * (spread xs / count) < high - low → spread xs / count < |b - (low + high) / 2|) := by
  obtain ⟨low, hlow⟩ := exists_hasRank_middle hne
  obtain ⟨high, hhigh⟩ := exists_hasRank_upper hne
  obtain ⟨b, hb, hnear⟩ := exists_binned_near hlow hcount
  have hexact : named? "exact" count (xs.map real) = .ok (real ((low + high) / 2)) := by
    rw [named?_exact, exact_of_hasRank hlow hhigh]
  have hbinned : named? "binapprox" count (xs.map real) = .ok (real b) := by
    rw [named?_binapprox (by simpa using hne), hb]
  have hle := low_le_high hlow hhigh
  have hequal (heq : low = high) : |b - (low + high) / 2| ≤ spread xs / count := by
    rwa [← heq, add_self_div_two]
  exact ⟨low, high, b, hlow, hhigh, hle, low_eq_high hlow hhigh, hexact, hbinned, hnear, hequal,
    abs_sub_half_le hnear hle, lt_abs_sub_half hnear⟩

/-- Three values in a thousand bins. -/
theorem named?_binapprox_near_three : [0, 1, 5] ≠ ([] : List ℝ) ∧ 1 ≤ 1000 ∧
    ∃ m b, named? "exact" 1000 [real 0, real 1, real 5] = .ok (real m) ∧
      named? "binapprox" 1000 [real 0, real 1, real 5] = .ok (real b) ∧
      |b - m| ≤ spread [0, 1, 5] / (1000 : ℕ) := by
  have hne : [0, 1, 5] ≠ ([] : List ℝ) := List.cons_ne_nil _ _
  have hcount : 1 ≤ 1000 := by decide
  obtain ⟨low, high, b, -, -, -, hodd, hexact, hbinned, -, hequal, -⟩ :=
    named?_binapprox_near hne hcount
  exact ⟨hne, hcount, _, b, hexact, hbinned, hequal (hodd rfl)⟩

/-- The middle entries of zero and one are a thousand bins apart: the binned median stays
next to zero, and the exact one is a half. -/
theorem named?_binapprox_far : ∃ b, named? "exact" 1000 [real 0, real 1] = .ok (real (1 / 2)) ∧
    named? "binapprox" 1000 [real 0, real 1] = .ok (real b) ∧
      spread [0, 1] / (1000 : ℕ) < |b - 1 / 2| := by
  have hsorted : ([0, 1] : List ℝ).mergeSort (· ≤ ·) = [0, 1] := by
    apply List.mergeSort_of_pairwise
    simp
  have hlow : HasRank [0, 1] (middleRank 2) 0 := ⟨by decide, by rw [hsorted]; rfl⟩
  have hhigh : HasRank [0, 1] (upperRank 2) 1 := ⟨by decide, by rw [hsorted]; rfl⟩
  have hcount : 1 ≤ 1000 := by decide
  obtain ⟨b, hb, hnear⟩ := exists_binned_near hlow hcount
  have hexact := exact_of_hasRank hlow hhigh
  rw [zero_add] at hexact
  have hfar : 4 * (spread [0, 1] / (1000 : ℕ)) < (1 : ℝ) - 0 := by
    rw [spread_zero_one]
    norm_num
  have hdistance := lt_abs_sub_half hnear hfar
  rw [zero_add] at hdistance
  refine ⟨b, ?_, ?_, hdistance⟩
  · rw [named?_exact]
    exact congrArg Except.ok hexact
  · exact (named?_binapprox (List.cons_ne_nil _ _) 1000).trans (congrArg Except.ok hb)

end SkySources.Median
