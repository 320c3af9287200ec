import Mathlib
import SkySources.Proofs.Exact
import SkySources.Proofs.Sum

/-!
# Mean and deviation of real numbers

With exact numbers every way of adding up is the sum of the list, so mean and deviation
are those of the textbook (`level`, `spread`).

What is proved:
  1. `pairwise_real`, `running_real`: sums of finite numbers;
  2. `mean_real`, `deviation_real`: their mean and deviation;
  3. `sum_sq_sub`: squared distances from any point, by the distance of the mean from it;
  4. `spread_filter_le`: without values that are further from the mean than the deviation,
     the deviation is not larger.
-/

namespace SkySources

open Exact

/-! ## Sums -/

namespace Sum

theorem foldl_real (xs : List ℝ) (start : ℝ) :
    (xs.map real).foldl (· + ·) (real start) = real (start + xs.sum) := by
  induction xs generalizing start with
  | nil => rw [List.sum_nil, add_zero]; rfl
  | cons x xs ih =>
    rw [List.map_cons, List.foldl_cons, add_real, ih, List.sum_cons, add_assoc]

theorem running_real (xs : List ℝ) : running (xs.map real) = real xs.sum := by
  rw [running, zero_eq, foldl_real, zero_add]

theorem absorb_real (xs : List ℝ) (a b c d e f g h : ℝ) :
    Lanes.absorb ⟨real a, real b, real c, real d, real e, real f, real g, real h⟩ (xs.map real) =
      real (a + b + c + d + (e + f + g + h) + xs.sum) := by
  induction hn : xs.length using Nat.strong_induction_on generalizing xs a b c d e f g h with
  | _ n ih =>
    by_cases hshort : xs.length < 8
    · rw [absorb_of_short _ (by rwa [List.length_map])]
      have htotal : Lanes.total ⟨real a, real b, real c, real d, real e, real f, real g, real h⟩ =
          real (a + b + (c + d) + (e + f + (g + h))) := rfl
      rw [htotal, foldl_real]
      congr 1
      ring
    · obtain ⟨a', b', c', d', e', f', g', h', rest, rfl⟩ := exists_eight (not_lt.1 hshort)
      simp only [List.map_cons, Lanes.absorb, add_real]
      rw [ih rest.length (by simp only [← hn, List.length_cons]; omega) rest _ _ _ _ _ _ _ _ rfl]
      simp only [List.sum_cons]
      congr 1
      ring

theorem block_real (xs : List ℝ) : block (xs.map real) = real xs.sum := by
  by_cases hshort : xs.length < 8
  · rw [block_of_short (by rwa [List.length_map]), running_real]
  · obtain ⟨a, b, c, d, e, f, g, h, rest, rfl⟩ := exists_eight (not_lt.1 hshort)
    change Lanes.absorb _ (rest.map real) = _
    rw [absorb_real]
    simp only [List.sum_cons]
    congr 1
    ring

theorem pairwise_real (xs : List ℝ) : pairwise (xs.map real) = real xs.sum := by
  induction hn : xs.length using Nat.strong_induction_on generalizing xs with
  | _ n ih =>
    rw [pairwise.eq_1, List.length_map]
    split
    · exact block_real xs
    · have hhalf : half xs.length < xs.length ∧ 0 < half xs.length := by
        unfold half
        omega
      rw [← List.map_take, ← List.map_drop,
        ih _ (by rw [List.length_take]; omega) (xs.take (half xs.length)) rfl,
        ih _ (by rw [List.length_drop]; omega) (xs.drop (half xs.length)) rfl, add_real,
        List.sum_take_add_sum_drop]

end Sum

/-! ## Means and deviations -/

namespace Moments

/-- The mean of real numbers; zero if there are none. -/
noncomputable def level (xs : List ℝ) : ℝ := xs.sum / xs.length

/-- The standard deviation of real numbers, all of which are counted; zero if there are none. -/
noncomputable def spread (xs : List ℝ) : ℝ :=
  √((xs.map fun x => (x - level xs) ^ 2).sum / xs.length)

theorem sum_sq_nonneg (xs : List ℝ) (a : ℝ) : 0 ≤ (xs.map fun x => (x - a) ^ 2).sum := by
  apply List.sum_nonneg
  intro y hy
  obtain ⟨x, -, rfl⟩ := List.mem_map.1 hy
  exact sq_nonneg (x - a)

section Real
variable {total : List Exact → Exact} (htotal : ∀ xs : List ℝ, total (xs.map real) = real xs.sum)
  {xs : List ℝ}
include htotal

theorem mean_real (hne : xs ≠ []) : mean total (xs.map real) = real (level xs) := by
  have hlength : (xs.length : ℝ) ≠ 0 := by simpa using hne
  rw [mean, htotal, List.length_map, ofNat_eq, div_real _ hlength, level]

theorem deviation_real (hne : xs ≠ []) : deviation total (xs.map real) = real (spread xs) := by
  have hsquares : (xs.map real).map (fun x => Scalar.square (x - real (level xs))) =
      (xs.map fun x => (x - level xs) ^ 2).map real := by
    rw [List.map_map, List.map_map]
    apply List.map_congr_left
    intro x _
    rw [Function.comp_apply, Function.comp_apply, sub_real, Scalar.square, mul_real, sq]
  have hlength : (xs.length : ℝ) ≠ 0 := by simpa using hne
  unfold deviation
  simp only [List.isEmpty_map, List.isEmpty_iff, hne, if_false, mean_real htotal hne, hsquares]
  rw [mean, htotal, List.length_map, List.length_map, ofNat_eq, div_real _ hlength,
    sqrt_real (div_nonneg (sum_sq_nonneg xs _) (Nat.cast_nonneg _)), spread]

end Real

/-- The order of the numbers does not matter. -/
theorem level_perm {xs ys : List ℝ} (h : xs.Perm ys) : level xs = level ys := by
  rw [level, level, h.sum_eq, h.length_eq]

theorem spread_perm {xs ys : List ℝ} (h : xs.Perm ys) : spread xs = spread ys := by
  rw [spread, spread, level_perm h, (h.map _).sum_eq, h.length_eq]

/-! ## Squared distances -/

section Distances
variable (xs : List ℝ)

theorem spread_nonneg : 0 ≤ spread xs := Real.sqrt_nonneg _

theorem length_mul_level : xs.length * level xs = xs.sum := by
  rcases eq_or_ne xs [] with rfl | hne
  · simp
  · have hlength : (xs.length : ℝ) ≠ 0 := by simpa using hne
    rw [level, mul_div_cancel₀ _ hlength]

theorem length_mul_spread_sq :
    xs.length * spread xs ^ 2 = (xs.map fun x => (x - level xs) ^ 2).sum := by
  rcases eq_or_ne xs [] with rfl | hne
  · simp
  · have hlength : (xs.length : ℝ) ≠ 0 := by simpa using hne
    rw [spread, Real.sq_sqrt (div_nonneg (sum_sq_nonneg xs _) (Nat.cast_nonneg _)),
      mul_div_cancel₀ _ hlength]

/-- The squared distances from a point exceed those from the mean by the squared distance
of the mean from the point, for each value. -/
theorem sum_sq_sub (a : ℝ) : (xs.map fun x => (x - a) ^ 2).sum =
    xs.length * (spread xs ^ 2 + (level xs - a) ^ 2) := by
  have hexpand (x : ℝ) : (x - a) ^ 2 =
      (x - level xs) ^ 2 + (2 * (level xs - a) * x + (a ^ 2 - level xs ^ 2)) := by ring
  have hlinear : (xs.map fun x => 2 * (level xs - a) * x).sum =
      2 * (level xs - a) * (xs.length * level xs) := by
    rw [List.sum_map_mul_left, List.map_id', length_mul_level]
  simp only [hexpand, List.sum_map_add, hlinear, List.map_const', List.sum_replicate,
    nsmul_eq_mul]
  rw [mul_add, length_mul_spread_sq]
  ring

end Distances

theorem spread_nil : spread [] = 0 := by simp [spread]

theorem level_pair (x y : ℝ) : level [x, y] = (x + y) / 2 := by norm_num [level]

theorem spread_pair (x y : ℝ) : spread [x, y] = |x - y| / 2 := by
  have hsquares : ([x, y].map fun a => (a - level [x, y]) ^ 2).sum / 2 = (|x - y| / 2) ^ 2 := by
    rw [level_pair, div_pow, sq_abs, List.map_cons, List.map_singleton, List.sum_pair]
    ring
  change √(_ / ((2 : ℕ) : ℝ)) = _
  rw [Nat.cast_ofNat, hsquares, Real.sqrt_sq (by positivity)]

/-! ## Values far from the mean -/

/-- Without values that are further from the mean than the deviation, the deviation is not
larger: around the old mean it is not, and around the own mean it is least. -/
theorem spread_filter_le {xs : List ℝ} {p : ℝ → Bool}
    (h : ∀ x ∈ xs, p x = false → spread xs ≤ |x - level xs|) :
    spread (xs.filter p) ≤ spread xs := by
  rcases eq_or_ne (xs.filter p) [] with hnil | hne
  · rw [hnil, spread_nil]
    exact spread_nonneg xs
  set kept := xs.filter p
  set lost := xs.filter fun x => !p x
  have hperm : (kept ++ lost).Perm xs := List.filter_append_perm p xs
  have hlength : (kept.length + lost.length : ℝ) = xs.length := by
    rw [← hperm.length_eq, List.length_append, Nat.cast_add]
  have hsum : (kept.map fun x => (x - level xs) ^ 2).sum + (lost.map fun x => (x - level xs) ^ 2).sum =
      xs.length * spread xs ^ 2 := by
    rw [length_mul_spread_sq, ← (hperm.map _).sum_eq, List.map_append, List.sum_append]
  have hlost : lost.length * spread xs ^ 2 ≤ (lost.map fun x => (x - level xs) ^ 2).sum := by
    have hle := List.card_nsmul_le_sum (lost.map fun x => (x - level xs) ^ 2) (spread xs ^ 2)
    rw [List.length_map, nsmul_eq_mul] at hle
    apply hle
    intro y hy
    obtain ⟨x, hx, rfl⟩ := List.mem_map.1 hy
    obtain ⟨hx, hp⟩ := List.mem_filter.1 hx
    rw [← sq_abs (x - level xs)]
    exact pow_le_pow_left₀ (spread_nonneg xs) (h x hx (by simpa using hp)) 2
  have hkept := sum_sq_sub kept (level xs)
  have hpos : (0 : ℝ) < kept.length := by exact_mod_cast List.length_pos_iff.2 hne
  have hsq : kept.length * spread kept ^ 2 ≤ kept.length * spread xs ^ 2 := by
    have hmean : 0 ≤ kept.length * (level kept - level xs) ^ 2 := by positivity
    rw [mul_add] at hkept
    rw [← hlength, add_mul] at hsum
    linarith
  exact (pow_le_pow_iff_left₀ (spread_nonneg _) (spread_nonneg _) two_ne_zero).1
    (le_of_mul_le_mul_left hsq hpos)

end Moments
end SkySources
