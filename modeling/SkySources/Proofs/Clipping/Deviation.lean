import Mathlib
import SkySources.Proofs.Clipping.Kept

/-!
# Clipping and the deviation

A limit of at least two deviations from the median cuts only values that are further than
one deviation from the mean, since the median is within one deviation of it. So no cut makes
the deviation larger, and more rounds do not either. It takes a median of the values; a
median that is always zero may be anywhere.

What is proved, with exact numbers:
  1. `spread_trimmed_le`: one cut;
  2. `spread_iterate_le`: the cuts that are made;
  3. `named?_sigma_antitone`: the deviation of an estimate, for every budget of rounds.
-/

namespace SkySources.Background

open Exact Moments

theorem real_two_mul_le {a : Exact} (ha : real 2 ≤ a) {x : ℝ} (hx : 0 < x) :
    real (2 * x) ≤ a * real x := by
  cases a with
  | real y => exact mul_le_mul_of_nonneg_right ((le_real 2 y).1 ha) hx.le
  | infinite s =>
    obtain rfl : s = false := ha
    change real (2 * x) ≤ stretch false x
    rw [stretch, if_neg hx.ne', if_neg hx.not_gt]
    rfl
  | missing => exact ha

section Limit
variable {c : Clipping Exact} (hzero : c.method ≠ .zero) (hlimit : real 2 ≤ c.numSigma)
  {xs : List ℝ}

theorem spread_pos_of_not_isFlat (h : ¬IsFlat xs) : 0 < spread xs := by
  rw [IsFlat, not_le] at h
  refine lt_of_le_of_lt ?_ h
  positivity

include hzero hlimit

/-- What is cut is further than one deviation from the mean. -/
theorem spread_trimmed_le (hne : xs ≠ []) (hpos : 0 < spread xs) :
    spread (trimmed c xs) ≤ spread xs := by
  obtain ⟨m, hm, hnear⟩ := Median.exists_of_real c.method c.bins hne
  refine spread_filter_le fun x _ hcut => ?_
  by_contra hclose
  have hdistance : |x - m| ≤ 2 * spread xs :=
    calc |x - m| ≤ |x - level xs| + |level xs - m| := abs_sub_le x (level xs) m
      _ ≤ spread xs + spread xs := add_le_add (not_le.1 hclose).le (by
          rw [abs_sub_comm]
          exact hnear hzero)
      _ = 2 * spread xs := (two_mul _).symm
  refine absurd hcut (Bool.not_eq_false _ ▸ ?_)
  rw [isNear, decide_eq_true_iff, hm, sub_real, abs_real]
  exact real_le_of_le hdistance (real_two_mul_le hlimit hpos)

/-- More cuts do not make the deviation larger. -/
theorem spread_iterate_le (hmin : 1 ≤ c.minCount) (h : Sound c (xs.map real)) {budget n : Nat}
    (hn : Makes c budget n (xs.map real)) {m : Nat} (hm : m ≤ n) :
    spread ((trimmed c)^[n] xs) ≤ spread ((trimmed c)^[m] xs) := by
  have hstep (i : Nat) (hi : i < n) :
      spread ((trimmed c)^[i + 1] xs) ≤ spread ((trimmed c)^[i] xs) := by
    have hsound := hn.sound h hi.le
    rw [iterate_cut_real] at hsound
    rw [Function.iterate_succ_apply']
    exact spread_trimmed_le hzero hlimit (fun hnil => hsound.ne_nil hmin (by rw [hnil]; rfl))
      (spread_pos_of_not_isFlat ((sound_iff hmin).1 hsound).2)
  have hcuts (i : Nat) (hmi : m ≤ i) (hi : i ≤ n) :
      spread ((trimmed c)^[i] xs) ≤ spread ((trimmed c)^[m] xs) := by
    induction i, hmi using Nat.le_induction with
    | base => exact le_rfl
    | succ i hmi ih => exact (hstep i hi).trans (ih (Nat.le_of_succ_le hi))
  exact hcuts n hm le_rfl

/-- If there are enough finite values, there is an estimate on every budget of rounds; its
deviation is at most that of all finite values, and not larger on a larger budget. -/
theorem named?_sigma_antitone (hmin : 1 ≤ c.minCount) (data : List Exact)
    (hcount : c.minCount ≤ (reals data).length) :
    ∃ sigma : Nat → ℝ,
      (∀ k, ∃ r, named? { c with rounds := k } c.method.name c.bins data = .ok r ∧
        r.background.sigma = real (sigma k)) ∧
      (∀ k, sigma k ≤ spread (reals data)) ∧ Antitone sigma := by
  have hok (k : Nat) : named? { c with rounds := k } c.method.name c.bins data =
      .ok (report { c with rounds := k } data) := named?_name (c := { c with rounds := k }) hmin data
  by_cases hflat : IsFlat (reals data)
  · refine ⟨fun _ => spread (reals data), fun k => ⟨_, hok k, ?_⟩, fun _ => le_rfl,
      antitone_const⟩
    exact (keeps_of_flat (c := { c with rounds := k }) hmin hcount hflat).rests.sigma
  · have hsound : Sound c ((reals data).map real) := (sound_iff hmin).2 ⟨hcount, hflat⟩
    have hfinite : Sound c (finite data) := by rwa [finite_eq]
    choose n hn hR using exists_reportAfter (hfinite.ne_nil hmin) hfinite
    have hne (k : Nat) : (trimmed c)^[n k] (reals data) ≠ [] := by
      have hleft := ((hn k).sound hfinite le_rfl).ne_nil hmin
      rwa [iterate_cut_finite, Ne, List.map_eq_nil_iff] at hleft
    rw [finite_eq] at hn
    refine ⟨fun k => spread ((trimmed c)^[n k] (reals data)), fun k => ⟨_, hok k, ?_⟩, fun k => ?_,
      fun j k hjk => ?_⟩
    · rw [hR k]
      exact (rests_reportAfter (hne k) _).sigma
    · exact spread_iterate_le hzero hlimit hmin hsound (hn k) (m := 0) (Nat.zero_le _)
    · exact spread_iterate_le hzero hlimit hmin hsound (hn k) ((hn j).le_of_le (hn k) hjk)

end Limit

/-- Standard clipping has a median of the values and a limit of three deviations. A cut of an
outlier of an outlier makes the deviation smaller, and a cut that is given up leaves it. -/
theorem named?_sigma_antitone_outlying : (Clipping.standard : Clipping Exact).method ≠ .zero ∧
    real 2 ≤ (Clipping.standard : Clipping Exact).numSigma ∧
    1 ≤ (Clipping.standard : Clipping Exact).minCount ∧
    (Clipping.standard : Clipping Exact).minCount ≤ (reals outlying).length ∧
    ∃ sigma : Nat → ℝ,
      (∀ k, ∃ r, named? { Clipping.standard with rounds := k } "exact" 1000 outlying = .ok r ∧
        r.background.sigma = real (sigma k)) ∧
      (∀ k, sigma k ≤ spread (reals outlying)) ∧ Antitone sigma ∧
      sigma 0 = √(3584 / 9) ∧ ∀ k, sigma (k + 1) = √7 := by
  have hmin := one_le_minCount_standard (α := Exact)
  have hzero : (Clipping.standard : Clipping Exact).method ≠ .zero := by decide
  have hlimit : real 2 ≤ (Clipping.standard : Clipping Exact).numSigma := by
    rw [numSigma_standard, le_real]
    norm_num
  obtain ⟨sigma, hsigma, hle, hantitone⟩ :=
    named?_sigma_antitone hzero hlimit hmin outlying enough_outlying
  have heq (k : Nat) : sigma k = spread ((trimmed Clipping.standard)^[min k 1] (reals outlying)) := by
    obtain ⟨r, hr, hdeviation⟩ := hsigma k
    obtain rfl := eq_report_outlying hr
    have hne : (trimmed Clipping.standard)^[min k 1] (reals outlying) ≠ [] := by
      have hleft := ((makes_outlying k).sound sound_outlying le_rfl).ne_nil hmin
      rwa [iterate_cut_finite, Ne, List.map_eq_nil_iff] at hleft
    rw [report_outlying, (rests_reportAfter hne _).sigma] at hdeviation
    exact (Exact.real.inj hdeviation).symm
  refine ⟨hzero, hlimit, hmin, enough_outlying, sigma, hsigma, hle, hantitone, ?_, fun k => ?_⟩
  · rw [heq]
    exact spread_outlying
  · rw [heq, Nat.min_eq_right (Nat.le_add_left 1 k), Function.iterate_one, trimmed_outlying,
      spread_eight]

end SkySources.Background
