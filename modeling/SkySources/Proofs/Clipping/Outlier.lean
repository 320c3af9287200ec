import Mathlib
import SkySources.Proofs.Clipping.Kept

/-!
# A single outlier

One value that is very far from all others makes the deviation large, in proportion to its
distance, but with at least seven other values not so large that the outlier is within three
deviations of the median. The median stays among the other values, and these are all kept. So
the first round cuts the outlier alone, and from then on the rounds are those of the other
values.

What is proved, with exact numbers, for values to which a further one is added (`Adds`):
  1. `Adds.sq_mul_spread_sq`: the deviation, from that of the values and the distance of the
     further one from their mean;
  2. `Adds.abs_middle_sub_le`: a middle is among the values;
  3. `Adds.trimmed_eq`: a cut takes away the further value alone, if that is far off (`farOff`);
  4. `named?_insertIdx_outlier`: the estimate is that of the values, after one round more.
-/

namespace SkySources.Background

open Exact Moments

/-- The numbers with a further one somewhere among them. -/
structure Adds (xs : List ℝ) (outlier : ℝ) (ys : List ℝ) : Prop where
  perm : ys.Perm (outlier :: xs)
  sublist : xs.Sublist ys

theorem adds_insertIdx (xs : List ℝ) (outlier : ℝ) {i : Nat} (hi : i ≤ xs.length) :
    Adds xs outlier (xs.insertIdx i outlier) :=
  ⟨List.perm_insertIdx outlier xs hi, List.sublist_insertIdx xs i outlier⟩

/-- A distance from the mean that no number exceeds. -/
noncomputable def reach (xs : List ℝ) : ℝ := √xs.length * spread xs

/-- A distance from the mean from which on a further number is cut away. -/
noncomputable def farOff (xs : List ℝ) : ℝ :=
  (xs.length + 1) * ((2 * (xs.length + 1) + 9 : ℕ) * reach xs + |level xs| + 1)

theorem reach_nonneg (xs : List ℝ) : 0 ≤ reach xs :=
  mul_nonneg (Real.sqrt_nonneg _) (spread_nonneg xs)

theorem reach_sq (xs : List ℝ) : reach xs ^ 2 = xs.length * spread xs ^ 2 := by
  rw [reach, mul_pow, Real.sq_sqrt (Nat.cast_nonneg _)]

theorem abs_sub_level_le_reach {xs : List ℝ} {x : ℝ} (hx : x ∈ xs) :
    |x - level xs| ≤ reach xs := by
  refine abs_le_of_sq_le_sq ?_ (reach_nonneg xs)
  rw [reach_sq, length_mul_spread_sq]
  refine List.single_le_sum (fun y hy => ?_) _ (List.mem_map_of_mem hx)
  obtain ⟨x, -, rfl⟩ := List.mem_map.1 hy
  exact sq_nonneg _

/-- What is far off is further than a multiple of the reach, of the mean and of one. -/
theorem lt_of_farOff_lt {xs : List ℝ} {d : ℝ} (h : farOff xs < d) :
    (xs.length + 1) * ((2 * (xs.length + 1) + 9) * reach xs) < d ∧
      (xs.length + 1) * |level xs| < d ∧ (xs.length + 1 : ℝ) < d := by
  have hreach : 0 ≤ (xs.length + 1 : ℝ) * ((2 * (xs.length + 1) + 9) * reach xs) :=
    mul_nonneg (by positivity) (mul_nonneg (by positivity) (reach_nonneg xs))
  have hlevel : 0 ≤ (xs.length + 1 : ℝ) * |level xs| := by positivity
  have hone : (0 : ℝ) < xs.length + 1 := by positivity
  rw [farOff, mul_add, mul_add, mul_one] at h
  push_cast at h
  exact ⟨by linarith, by linarith, by linarith⟩

/-- Among so many numbers, nine times the squared deviation is below the square of what is left
of a large distance. It takes `n ^ 2 - 9 * (n - 1)` to be positive, which it is from eight on. -/
theorem nine_mul_lt {n d r : ℝ} (hn : 8 ≤ n) (hr : 0 ≤ r) (hfar : n * ((2 * n + 9) * r) < d) :
    r ≤ d ∧ 9 * (n * r ^ 2 + (n - 1) * d ^ 2) < (n * (d - r)) ^ 2 := by
  have hn0 : 0 ≤ n := by linarith
  have hclose : r ≤ d := by
    have hfactor : 1 ≤ n * (2 * n + 9) := by nlinarith
    have hmul := mul_le_mul_of_nonneg_right hfactor hr
    linarith
  have hnear : 0 ≤ n * ((2 * n + 9) * r) := mul_nonneg hn0 (mul_nonneg (by linarith) hr)
  have hgrowth : n * ((2 * n + 9) * r) * d < d * d :=
    mul_lt_mul_of_pos_right hfar (hnear.trans_lt hfar)
  have hrest : 9 * n * r * r ≤ 9 * n * r * d := mul_le_mul_of_nonneg_left hclose (by positivity)
  have hcount : 1 * (d * d) ≤ (n ^ 2 - 9 * (n - 1)) * (d * d) :=
    mul_le_mul_of_nonneg_right (by nlinarith) (mul_self_nonneg d)
  have hsquare : 0 ≤ (n * r) ^ 2 := sq_nonneg _
  exact ⟨hclose, by linarith⟩

namespace Adds
variable {xs ys : List ℝ} {outlier : ℝ} (h : Adds xs outlier ys)
include h

/-! ## Mean and deviation -/

theorem length_eq : ys.length = xs.length + 1 := by
  rw [h.perm.length_eq, List.length_cons]

theorem mul_level_sub : (xs.length + 1) * (level ys - level xs) = outlier - level xs := by
  have hsum : (xs.length + 1) * level ys = outlier + xs.length * level xs := by
    have hlevel := length_mul_level ys
    rw [h.length_eq, h.perm.sum_eq, List.sum_cons, ← length_mul_level xs] at hlevel
    exact_mod_cast hlevel
  linarith

theorem sq_mul_spread_sq : ((xs.length + 1) * spread ys) ^ 2 =
    (xs.length + 1) * reach xs ^ 2 + xs.length * (outlier - level xs) ^ 2 := by
  have hsum : (outlier - level xs) ^ 2 + reach xs ^ 2 =
      (xs.length + 1) * (spread ys ^ 2 + (level ys - level xs) ^ 2) := by
    have hys := sum_sq_sub ys (level xs)
    rw [(h.perm.map _).sum_eq, List.map_cons, List.sum_cons, ← length_mul_spread_sq, ← reach_sq,
      h.length_eq] at hys
    exact_mod_cast hys
  have hlevel := h.mul_level_sub
  calc ((xs.length + 1) * spread ys) ^ 2
      = (xs.length + 1) * ((xs.length + 1) * (spread ys ^ 2 + (level ys - level xs) ^ 2)) -
          ((xs.length + 1) * (level ys - level xs)) ^ 2 := by ring
    _ = (xs.length + 1) * ((outlier - level xs) ^ 2 + reach xs ^ 2) - (outlier - level xs) ^ 2 := by
        rw [← hsum, hlevel]
    _ = (xs.length + 1) * reach xs ^ 2 + xs.length * (outlier - level xs) ^ 2 := by ring

/-- The deviation grows with the distance of the further number. -/
theorem two_mul_abs_le (hlength : 4 ≤ xs.length) :
    2 * |outlier - level xs| ≤ (xs.length + 1) * spread ys := by
  have hn : (4 : ℝ) ≤ xs.length := by exact_mod_cast hlength
  have hsq : (2 * |outlier - level xs|) ^ 2 ≤ ((xs.length + 1) * spread ys) ^ 2 := by
    rw [h.sq_mul_spread_sq, mul_pow, sq_abs]
    have hfour := mul_le_mul_of_nonneg_right hn (sq_nonneg (outlier - level xs))
    have hreach : 0 ≤ (xs.length + 1) * reach xs ^ 2 := by positivity
    linarith
  exact (pow_le_pow_iff_left₀ (by positivity)
    (mul_nonneg (by positivity) (spread_nonneg ys)) two_ne_zero).1 hsq

/-- But not as much as the distance does, if there are enough numbers. -/
theorem three_mul_spread_lt (hlength : 7 ≤ xs.length)
    (hfar : (xs.length + 1) * ((2 * (xs.length + 1) + 9) * reach xs) < |outlier - level xs|) :
    3 * spread ys < |outlier - level xs| - reach xs := by
  have hn : (8 : ℝ) ≤ xs.length + 1 := by
    have hcast : (7 : ℝ) ≤ xs.length := by exact_mod_cast hlength
    linarith
  obtain ⟨hle, hmargin⟩ := nine_mul_lt hn (reach_nonneg xs) hfar
  have hsq : ((xs.length + 1) * (3 * spread ys)) ^ 2 = 9 * ((xs.length + 1) * reach xs ^ 2 +
      (xs.length + 1 - 1) * |outlier - level xs| ^ 2) := by
    rw [sq_abs, add_sub_cancel_right, ← h.sq_mul_spread_sq]
    ring
  rw [← hsq] at hmargin
  have hlt := lt_of_pow_lt_pow_left₀ 2
    (mul_nonneg (by linarith) (sub_nonneg.2 hle)) hmargin
  exact lt_of_mul_lt_mul_left hlt (by linarith)

theorem not_isFlat (hlength : 4 ≤ xs.length) (hfar : farOff xs < |outlier - level xs|) :
    ¬IsFlat ys := by
  obtain ⟨-, hlevel, hone⟩ := lt_of_farOff_lt hfar
  have hgrowth := h.two_mul_abs_le hlength
  have hn : (0 : ℝ) < xs.length + 1 := by positivity
  have hmean : (xs.length + 1) * |level ys| ≤ (xs.length + 1) * spread ys :=
    calc (xs.length + 1) * |level ys|
        = |(xs.length + 1) * level xs + (outlier - level xs)| := by
          rw [← h.mul_level_sub, ← mul_add, add_sub_cancel, abs_mul, abs_of_pos hn]
      _ ≤ |(xs.length + 1) * level xs| + |outlier - level xs| := abs_add_le _ _
      _ = (xs.length + 1) * |level xs| + |outlier - level xs| := by rw [abs_mul, abs_of_pos hn]
      _ ≤ (xs.length + 1) * spread ys := by linarith
  have hunit : (xs.length + 1) * 1 ≤ (xs.length + 1) * spread ys := by linarith
  have hmax : max |level ys| 1 ≤ spread ys :=
    max_le (le_of_mul_le_mul_left hmean hn) (le_of_mul_le_mul_left hunit hn)
  have hpos : 0 < spread ys := one_pos.trans_le ((le_max_right _ _).trans hmax)
  rw [IsFlat, not_le]
  linarith

/-! ## Median and cut -/

theorem exists_of_countP {p : ℝ → Bool} (hlength : 2 ≤ xs.length)
    (hp : ys.length ≤ 2 * ys.countP p) : ∃ x ∈ xs, p x = true := by
  rw [h.length_eq, h.perm.countP_eq, List.countP_cons] at hp
  apply List.countP_pos_iff.1
  split at hp <;> omega

/-- A middle lies between two of the other numbers. -/
theorem abs_middle_sub_le (hlength : 2 ≤ xs.length) {m : ℝ} (hm : Median.IsMiddle ys m) :
    |m - level xs| ≤ reach xs := by
  obtain ⟨a, ha, ham⟩ := h.exists_of_countP hlength hm.below
  obtain ⟨b, hb, hmb⟩ := h.exists_of_countP hlength hm.above
  have hbetween : |m - level xs| ≤ max |a - level xs| |b - level xs| :=
    abs_le_max_abs_abs (by linarith [of_decide_eq_true ham]) (by linarith [of_decide_eq_true hmb])
  exact hbetween.trans (max_le (abs_sub_level_le_reach ha) (abs_sub_level_le_reach hb))

theorem filter_eq {p : ℝ → Bool} (hp : ∀ x ∈ xs, p x = true) (hout : p outlier = false) :
    ys.filter p = xs := by
  have hall : xs.filter p = xs := List.filter_eq_self.2 hp
  have hsublist : xs.Sublist (ys.filter p) := by
    have hfilter := h.sublist.filter p
    rwa [hall] at hfilter
  refine (hsublist.eq_of_length ?_).symm
  rw [(h.perm.filter p).length_eq, List.filter_cons_of_neg (by simp [hout]), hall]

variable {c : Clipping Exact} (hmethod : c.method = .exact) (hlimit : c.numSigma = real 3)
include hmethod hlimit

/-- A cut takes away the further number, if it is far off, and no other one. -/
theorem trimmed_eq (hlength : 7 ≤ xs.length) (hfar : farOff xs < |outlier - level xs|) :
    trimmed c ys = xs := by
  have hne : ys ≠ [] := by
    rintro rfl
    cases h.length_eq
  obtain ⟨m, hm, hmiddle⟩ := Median.exists_exact_real hne
  have hmedian : Median.of c.method c.bins (ys.map real) = real m := by rw [hmethod]; exact hm
  have hnear := isNear_iff hmedian hlimit
  have hclose := h.abs_middle_sub_le (by omega) hmiddle
  obtain ⟨hreach, -, -⟩ := lt_of_farOff_lt hfar
  refine h.filter_eq (fun x hx => (hnear x).2 ?_) (Bool.eq_false_iff.2 fun hout => ?_)
  · -- the reach on both sides of the mean is not even one deviation
    have hn : (0 : ℝ) < xs.length + 1 := by positivity
    have hdistance : |x - m| ≤ reach xs + reach xs :=
      calc |x - m| ≤ |x - level xs| + |level xs - m| := abs_sub_le x (level xs) m
        _ ≤ reach xs + reach xs :=
          add_le_add (abs_sub_level_le_reach hx) (by rwa [abs_sub_comm])
    have hfactor : reach xs ≤ (2 * (xs.length + 1) + 9) * reach xs :=
      le_mul_of_one_le_left (reach_nonneg xs) (by linarith)
    have hdeviation : (xs.length + 1) * (2 * reach xs) ≤ (xs.length + 1) * spread ys :=
      calc (xs.length + 1) * (2 * reach xs) = 2 * ((xs.length + 1) * reach xs) := by ring
        _ ≤ 2 * |outlier - level xs| := by
          linarith [mul_le_mul_of_nonneg_left hfactor hn.le]
        _ ≤ (xs.length + 1) * spread ys := h.two_mul_abs_le (by omega)
    have hspread := le_of_mul_le_mul_left hdeviation hn
    linarith [spread_nonneg ys]
  · have hlt := h.three_mul_spread_lt hlength hreach
    have hdistance := abs_sub_le outlier m (level xs)
    have hle := (hnear outlier).1 hout
    linarith

end Adds

/-! ## Estimates -/

theorem finite_map_real (xs : List ℝ) : finite (xs.map real) = xs.map real := by
  rw [finite, List.filter_eq_self]
  intro a ha
  obtain ⟨x, -, rfl⟩ := List.mem_map.1 ha
  rfl

/-- An outlier among at least seven values that are not all alike costs one round of standard
clipping, and changes nothing else, if it is far enough away, wherever it stands. -/
theorem named?_insertIdx_outlier (xs : List ℝ) (hlength : 7 ≤ xs.length)
    (hspread : 1e-12 * max |level xs| 1 < spread xs) :
    ∃ bound : ℝ, ∀ outlier, bound < |outlier| → ∀ i ≤ xs.length, ∀ (bins : Int) (k : Nat),
      ∃ r r', named? { Clipping.standard with rounds := k + 1 } "exact" bins
          ((xs.insertIdx i outlier).map real) = .ok r ∧
        named? { Clipping.standard with rounds := k } "exact" bins (xs.map real) = .ok r' ∧
        r.background = { r'.background with rounds := r'.background.rounds + 1 } := by
  refine ⟨farOff xs + |level xs|, fun outlier hbound i hi bins k => ?_⟩
  have hfar : farOff xs < |outlier - level xs| := by
    have hle := abs_sub_abs_le_abs_sub outlier (level xs)
    linarith
  have hadds := adds_insertIdx xs outlier hi
  set c : Clipping Exact := { Clipping.standard with bins := bins.toNat }
  have hmin : 1 ≤ c.minCount := one_le_minCount_standard (α := Exact)
  have hexact : Median.Method.ofName? "exact" = some .exact := by decide
  have hcut : cut c (finite ((xs.insertIdx i outlier).map real)) = finite (xs.map real) := by
    rw [finite_map_real, finite_map_real, cut_real,
      hadds.trimmed_eq (c := c) rfl numSigma_standard hlength hfar]
  have hsound : Sound c (finite (xs.map real)) := by
    rw [finite_map_real]
    exact (sound_iff hmin).2 ⟨by change (2 : Int) ≤ _; omega, not_le.2 hspread⟩
  have hsound' : Sound c (finite ((xs.insertIdx i outlier).map real)) := by
    rw [finite_map_real]
    refine (sound_iff hmin).2 ⟨?_, hadds.not_isFlat (by omega) hfar⟩
    rw [hadds.length_eq]
    change (2 : Int) ≤ _
    omega
  have hgo : GoesOn c (finite ((xs.insertIdx i outlier).map real)) := by
    refine ⟨?_, by rwa [hcut]⟩
    rw [hcut, finite_map_real, finite_map_real, List.length_map, List.length_map, hadds.length_eq]
    exact Nat.lt_succ_self _
  have hok (k : Nat) (data : List Exact) :
      named? { Clipping.standard with rounds := k } "exact" bins data =
        .ok (report { c with rounds := k } data) :=
    named?_of_method (c := { Clipping.standard with rounds := k }) hmin hexact
      (fun h => nomatch h) data
  exact ⟨_, _, hok (k + 1) _, hok k _, background_of_goesOn hmin hsound' hgo hcut k⟩

/-- Seven values, with an outlier far enough away. -/
theorem named?_insertIdx_outlier_seven :
    7 ≤ [0, 0, 0, 0, 0, 0, (7 : ℝ)].length ∧
      1e-12 * max |level [0, 0, 0, 0, 0, 0, 7]| 1 < spread [0, 0, 0, 0, 0, 0, 7] ∧
      ∃ bound : ℝ, ∀ outlier, bound < |outlier| → ∃ r r',
        named? { Clipping.standard with rounds := 1 } "exact" 1000
          [real 0, real 0, real outlier, real 0, real 0, real 0, real 0, real 7] = .ok r ∧
        named? { Clipping.standard with rounds := 0 } "exact" 1000
          [real 0, real 0, real 0, real 0, real 0, real 0, real 7] = .ok r' ∧
        r.background = { r'.background with rounds := r'.background.rounds + 1 } := by
  have hspread : 1e-12 * max |level [0, 0, 0, 0, 0, 0, 7]| 1 < spread [0, 0, 0, 0, 0, 0, 7] := by
    have hlevel : level [0, 0, 0, 0, 0, 0, 7] = 1 := by norm_num [level]
    rw [spread, hlevel]
    norm_num [Real.lt_sqrt]
  obtain ⟨bound, hbound⟩ := named?_insertIdx_outlier [0, 0, 0, 0, 0, 0, 7] (by decide) hspread
  refine ⟨by decide, hspread, bound, fun outlier hfar => ?_⟩
  exact hbound outlier hfar 2 (by decide) 1000 0

end SkySources.Background
