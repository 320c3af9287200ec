import Mathlib
import SkySources.Proofs.Clipping.Rounds
import SkySources.Proofs.Median

/-!
# The values that are kept

With exact numbers, a cut keeps the real numbers within the limit from their median
(`trimmed`). What is kept in the end belongs together: mean, deviation and median of an
estimate are those of one list of values (`Rests`), however its rounds ended. Between two
of these no value is missing, since a cut keeps all of an interval. Seven zeros with an outlier
of an outlier (`outlying`) show a cut that is made, and one that is given up.

What is proved:
  1. `iterate_cut_real`: cuts of finite numbers are cuts of real numbers;
  2. `sound_iff`: which real numbers make an estimate;
  3. `count_iterate_trimmed`: cuts keep all values between two that they keep;
  4. `named?_keeps`: what an estimate says of the values that are kept (`Keeps`).
-/

namespace SkySources

namespace Exact

/-- The real number that a number is, if it is one. -/
def real? : Exact → Option ℝ
  | real x => some x
  | _ => none

/-- The finite numbers of a list. -/
def reals (data : List Exact) : List ℝ := data.filterMap real?

theorem real_le_of_le {x y : ℝ} {a : Exact} (hxy : x ≤ y) (h : real y ≤ a) : real x ≤ a := by
  cases a with
  | real z => exact hxy.trans ((le_real y z).1 h)
  | infinite s => exact h
  | missing => exact h

end Exact

namespace Background

open Exact Moments

theorem finite_eq (data : List Exact) : finite data = (reals data).map real := by
  induction data with
  | nil => rfl
  | cons a data ih =>
    cases a with
    | real x => exact congrArg (real x :: ·) ih
    | infinite s => exact ih
    | missing => exact ih

theorem numSigma_standard : (Clipping.standard : Clipping Exact).numSigma = real 3 := by
  change (3.0 : Exact) = real 3
  rw [ofScientific_eq]
  norm_num

variable (c : Clipping Exact)

/-- The number is within the limit from the median of the numbers. -/
noncomputable def isNear (xs : List ℝ) (x : ℝ) : Bool :=
  decide (Scalar.abs (real x - Median.of c.method c.bins (xs.map real)) ≤
    c.numSigma * real (spread xs))

/-- The numbers within the limit from the median of all. -/
noncomputable def trimmed (xs : List ℝ) : List ℝ := xs.filter (isNear c xs)

/-- The deviation of the numbers is nothing beside their mean. -/
def IsFlat (xs : List ℝ) : Prop := spread xs ≤ 1e-12 * max |level xs| 1

/-- The estimate is that of the numbers. -/
structure Rests (b : Background Exact) (xs : List ℝ) : Prop where
  count : b.count = xs.length
  mean : b.mean = real (level xs)
  sigma : b.sigma = real (spread xs)
  median : b.median = Median.of c.method c.bins (xs.map real)

/-- What a report says of the numbers that are kept of some data. -/
structure Keeps (data : List Exact) (r : Report Exact) (kept : List ℝ) : Prop where
  kept_eq : r.kept = kept.map real
  ne_nil : kept ≠ []
  sublist : kept.Sublist (reals data)
  /-- All parts of the estimate are those of the kept numbers. -/
  rests : Rests c r.background kept
  /-- The rounds cut again and again. -/
  cuts : ∃ n ≤ c.rounds, kept = (trimmed c)^[n] (reals data)
  /-- A number between two that are kept is kept as often as it occurs. -/
  between : ∀ a ∈ kept, ∀ b ∈ kept, ∀ x, a ≤ x → x ≤ b → kept.count x = (reals data).count x
  /-- A reliable estimate has enough values that are not all alike. -/
  of_reliable : r.background.reliable = true → c.minCount ≤ kept.length ∧ ¬IsFlat kept
  /-- Otherwise all values are alike, or a further cut would leave too few values or values
  all alike. -/
  of_unreliable : r.background.reliable = false →
    IsFlat (reals data) ∨ ((trimmed c kept).length < c.minCount ∨ IsFlat (trimmed c kept))

variable {c} {xs : List ℝ}

/-! ## Samples of real numbers -/

theorem sample_real (c : Clipping Exact) (hne : xs ≠ []) : Sample.of c (xs.map real) =
    ⟨xs.map real, real (level xs), real (spread xs), Median.of c.method c.bins (xs.map real)⟩ := by
  rw [Sample.of, mean_real Sum.pairwise_real hne, deviation_real Sum.pairwise_real hne]

theorem cut_real (c : Clipping Exact) (xs : List ℝ) :
    cut c (xs.map real) = (trimmed c xs).map real := by
  rcases eq_or_ne xs [] with rfl | hne
  · rfl
  · rw [cut, sample_real c hne, Sample.within, List.filter_map]
    rfl

theorem iterate_cut_real (c : Clipping Exact) (n : Nat) (xs : List ℝ) :
    (cut c)^[n] (xs.map real) = ((trimmed c)^[n] xs).map real :=
  ((Function.Semiconj.iterate_right (fun xs => (cut_real c xs).symm) n) xs).symm

theorem isFlat_real (c : Clipping Exact) (hne : xs ≠ []) :
    (Sample.of c (xs.map real)).isFlat = true ↔ IsFlat xs := by
  have htolerance : (1e-12 : Exact) = real 1e-12 := ofScientific_eq _ _ _
  rw [Sample.isFlat, decide_eq_true_iff, sample_real c hne, abs_real, one_eq, larger_real,
    htolerance, mul_real, le_real, IsFlat]

theorem isSmall_real (c : Clipping Exact) (xs : List ℝ) :
    (Sample.of c (xs.map real)).isSmall c = true ↔ (xs.length : Int) < c.minCount := by
  rw [Sample.isSmall, decide_eq_true_iff]
  simp [Sample.count, Sample.of]

theorem sound_iff (hmin : 1 ≤ c.minCount) :
    Sound c (xs.map real) ↔ c.minCount ≤ xs.length ∧ ¬IsFlat xs := by
  have henough : (Sample.of c (xs.map real)).isSmall c = false ↔ c.minCount ≤ xs.length := by
    rw [← Bool.not_eq_true, isSmall_real, not_lt]
  constructor
  · intro h
    have hne : xs ≠ [] := fun hnil => h.ne_nil hmin (by rw [hnil]; rfl)
    exact ⟨henough.1 h.enough, mt (isFlat_real c hne).2 (by simp [h.uneven])⟩
  · rintro ⟨hcount, hflat⟩
    have hne : xs ≠ [] := by
      rintro rfl
      rw [List.length_nil] at hcount
      omega
    exact ⟨henough.2 hcount, by simpa using mt (isFlat_real c hne).1 hflat⟩

/-- With a real number for the median and one for the limit, near is an inequality. -/
theorem isNear_iff {m limit : ℝ} (hmedian : Median.of c.method c.bins (xs.map real) = real m)
    (hlimit : c.numSigma = real limit) (x : ℝ) :
    isNear c xs x = true ↔ |x - m| ≤ limit * spread xs := by
  rw [isNear, decide_eq_true_iff, hmedian, hlimit, sub_real, abs_real, mul_real, le_real]

/-! ## Intervals -/

/-- What lies between two near numbers is near. -/
theorem isNear_of_between (hne : xs ≠ []) {a b x : ℝ} (ha : isNear c xs a = true)
    (hb : isNear c xs b = true) (hax : a ≤ x) (hxb : x ≤ b) : isNear c xs x = true := by
  obtain ⟨m, hm, -⟩ := Median.exists_of_real c.method c.bins hne
  simp only [isNear, hm, sub_real, abs_real, decide_eq_true_iff] at *
  have hmax : |x - m| ≤ max |a - m| |b - m| :=
    abs_le_max_abs_abs (by linarith) (by linarith)
  rcases le_max_iff.1 hmax with hle | hle
  · exact real_le_of_le hle ha
  · exact real_le_of_le hle hb

theorem trimmed_sublist (c : Clipping Exact) (xs : List ℝ) : (trimmed c xs).Sublist xs :=
  List.filter_sublist

theorem iterate_trimmed_sublist (c : Clipping Exact) (n : Nat) (xs : List ℝ) :
    ((trimmed c)^[n] xs).Sublist xs := by
  induction n with
  | zero => exact List.Sublist.refl xs
  | succ n ih =>
    rw [Function.iterate_succ_apply']
    exact (trimmed_sublist c _).trans ih

/-- Cuts keep all numbers between two that they keep. -/
theorem count_iterate_trimmed (c : Clipping Exact) (n : Nat) (xs : List ℝ) {a b x : ℝ}
    (ha : a ∈ (trimmed c)^[n] xs) (hb : b ∈ (trimmed c)^[n] xs) (hax : a ≤ x) (hxb : x ≤ b) :
    ((trimmed c)^[n] xs).count x = xs.count x := by
  induction n with
  | zero => rfl
  | succ n ih =>
    rw [Function.iterate_succ_apply'] at ha hb ⊢
    obtain ⟨ha, hnear⟩ := List.mem_filter.1 ha
    obtain ⟨hb, hnear'⟩ := List.mem_filter.1 hb
    rw [trimmed, List.count_filter
      (isNear_of_between (List.ne_nil_of_mem ha) hnear hnear' hax hxb), ih ha hb]

/-! ## Estimates -/

theorem rests_ofSample (c : Clipping Exact) (hne : xs ≠ []) (reliable : Bool) (rounds : Nat) :
    Rests c (ofSample (Sample.of c (xs.map real)) reliable rounds) xs := by
  rw [sample_real c hne]
  exact ⟨List.length_map _, rfl, rfl, rfl⟩

variable {data : List Exact}

theorem iterate_cut_finite (c : Clipping Exact) (n : Nat) (data : List Exact) :
    (cut c)^[n] (finite data) = ((trimmed c)^[n] (reals data)).map real := by
  rw [finite_eq, iterate_cut_real]

/-- The report after some cuts is that of the numbers that are left. -/
theorem rests_reportAfter {n : Nat} (hne : (trimmed c)^[n] (reals data) ≠ []) (rest : Nat) :
    Rests c (reportAfter c data n rest).background ((trimmed c)^[n] (reals data)) := by
  rw [reportAfter, background_ofClipped, iterate_cut_finite]
  exact rests_ofSample c hne _ _

/-- The report of values that make an estimate. -/
theorem keeps_of_sound (hmin : 1 ≤ c.minCount) (h : Sound c (finite data)) :
    ∃ kept, Keeps c data (report c data) kept := by
  obtain ⟨n, hn, hR⟩ := exists_reportAfter (h.ne_nil hmin) h c.rounds
  have hreport : report c data = reportAfter c data n (c.rounds - n) := hR
  have hsound := hn.sound h le_rfl
  rw [iterate_cut_finite] at hsound
  have hne : (trimmed c)^[n] (reals data) ≠ [] :=
    fun hnil => hsound.ne_nil hmin (by rw [hnil]; rfl)
  rw [hreport]
  refine ⟨_, iterate_cut_finite c n data, hne, iterate_trimmed_sublist c n _,
    rests_reportAfter hne _, ⟨n, hn.le, rfl⟩,
    fun a ha b hb x => count_iterate_trimmed c n _ ha hb, fun _ => (sound_iff hmin).1 hsound,
    fun hunreliable => .inr ?_⟩
  -- only a collapse is not reliable, and then the next cut would leave no estimate
  rw [reliable_reportAfter] at hunreliable
  obtain ⟨hrest, -, hshorter⟩ :=
    shorter_of_collapse (by rw [← Option.not_isNone, hunreliable, Bool.not_false])
  rw [Function.iterate_succ_apply'] at hshorter
  by_contra hnext
  rw [not_or, not_lt] at hnext
  refine hn.stops (Nat.lt_of_sub_pos hrest) ⟨hshorter, ?_⟩
  rw [iterate_cut_finite, cut_real]
  exact (sound_iff hmin).2 hnext

/-- The report of values that are enough, but all alike. -/
theorem keeps_of_flat (hmin : 1 ≤ c.minCount) (hcount : c.minCount ≤ (reals data).length)
    (hflat : IsFlat (reals data)) : Keeps c data (report c data) (reals data) := by
  have hne : reals data ≠ [] := by
    intro hnil
    rw [hnil, List.length_nil] at hcount
    omega
  have hsmall : (Sample.of c ((reals data).map real)).isSmall c = false := by
    rw [← Bool.not_eq_true, isSmall_real, not_lt]
    exact hcount
  have hreport : report c data =
      .unclipped (Sample.of c ((reals data).map real)) (Sample.of c ((reals data).map real)).sigma := by
    rw [← finite_eq] at hsmall ⊢
    refine report_of_flat (by rw [finite_eq]; simpa using hne) hsmall ?_
    rw [finite_eq]
    exact (isFlat_real c hne).2 hflat
  rw [hreport]
  exact
    { kept_eq := rfl
      ne_nil := hne
      sublist := List.Sublist.refl _
      rests := rests_ofSample c hne false 0
      cuts := ⟨0, Nat.zero_le _, rfl⟩
      between := fun _ _ _ _ _ _ _ => rfl
      of_reliable := fun h => absurd h Bool.false_ne_true
      of_unreliable := fun _ => .inl hflat }

/-- If there are enough finite values, there is an estimate, and it is that of values that
are left after some cuts of the finite ones. -/
theorem named?_keeps (c : Clipping Exact) (hmin : 1 ≤ c.minCount) (data : List Exact)
    (hcount : c.minCount ≤ (reals data).length) :
    ∃ r kept, named? c c.method.name c.bins data = .ok r ∧ Keeps c data r kept := by
  by_cases hflat : IsFlat (reals data)
  · exact ⟨_, _, named?_name hmin data, keeps_of_flat hmin hcount hflat⟩
  · have hsound : Sound c (finite data) := by
      rw [finite_eq]
      exact (sound_iff hmin).2 ⟨hcount, hflat⟩
    obtain ⟨kept, hkept⟩ := keeps_of_sound hmin hsound
    exact ⟨_, kept, named?_name hmin data, hkept⟩

/-! ## Outliers of outliers -/

/-- Seven zeros with an outlier, an outlier of both and a missing value. -/
def outlying : List Exact :=
  [real 0, real 0, real 0, real 0, missing, real 0, real 0, real 0, real 8, real 64]

theorem reals_outlying : reals outlying = [0, 0, 0, 0, 0, 0, 0, 8, 64] := rfl

theorem enough_outlying :
    (Clipping.standard : Clipping Exact).minCount ≤ (reals outlying).length := by
  change (2 : Int) ≤ 9
  decide

theorem spread_outlying : spread (reals outlying) = √(3584 / 9) := by
  have hlevel : level (reals outlying) = 8 := by norm_num [level, reals_outlying]
  rw [spread, hlevel, reals_outlying]
  norm_num

theorem spread_eight : spread [0, 0, 0, 0, 0, 0, 0, 8] = √7 := by
  have hlevel : level [0, 0, 0, 0, 0, 0, 0, 8] = 1 := by norm_num [level]
  rw [spread, hlevel]
  norm_num

/-- The first cut takes away the larger outlier. -/
theorem trimmed_outlying : trimmed Clipping.standard (reals outlying) = [0, 0, 0, 0, 0, 0, 0, 8] := by
  have hmedian : Median.exact ((reals outlying).map real) = real 0 := by
    rw [Median.exact_of_pairwise (by norm_num [reals_outlying])]
    rfl
  have hnear := isNear_iff (c := Clipping.standard) hmedian numSigma_standard
  rw [spread_outlying] at hnear
  have hzero : isNear Clipping.standard (reals outlying) 0 = true := by
    rw [hnear, sub_zero, abs_zero]
    positivity
  have hsmaller : isNear Clipping.standard (reals outlying) 8 = true := by
    have hroot : (3 : ℝ) ≤ √(3584 / 9) := Real.le_sqrt_of_sq_le (by norm_num)
    rw [hnear, sub_zero, abs_of_pos (by norm_num)]
    linarith
  have hlarger : isNear Clipping.standard (reals outlying) 64 = false := by
    have hroot : √(3584 / 9) < 64 / 3 := (Real.sqrt_lt' (by norm_num)).2 (by norm_num)
    rw [← Bool.not_eq_true, hnear, sub_zero, abs_of_pos (by norm_num)]
    linarith
  rw [reals_outlying] at hzero hsmaller hlarger ⊢
  simp [trimmed, hzero, hsmaller, hlarger]

/-- The second cut would leave nothing but zeros. -/
theorem trimmed_eight : trimmed Clipping.standard [0, 0, 0, 0, 0, 0, 0, 8] = [0, 0, 0, 0, 0, 0, 0] := by
  have hmedian : Median.exact (([0, 0, 0, 0, 0, 0, 0, 8] : List ℝ).map real) = real 0 := by
    rw [Median.exact_of_pairwise (by norm_num)]
    norm_num [Median.middle, two_eq, add_real, div_real]
  have hnear := isNear_iff (c := Clipping.standard) hmedian numSigma_standard
  rw [spread_eight] at hnear
  have hzero : isNear Clipping.standard [0, 0, 0, 0, 0, 0, 0, 8] 0 = true := by
    rw [hnear]
    norm_num
  have hfar : isNear Clipping.standard [0, 0, 0, 0, 0, 0, 0, 8] 8 = false := by
    have hroot : √7 < 8 / 3 := (Real.sqrt_lt' (by norm_num)).2 (by norm_num)
    rw [← Bool.not_eq_true, hnear, sub_zero, abs_of_pos (by norm_num)]
    linarith
  simp [trimmed, hzero, hfar]

theorem cut_outlying : cut Clipping.standard (finite outlying) =
    ([0, 0, 0, 0, 0, 0, 0, 8] : List ℝ).map real := by
  rw [finite_eq, cut_real, trimmed_outlying]

theorem cut_eight : cut Clipping.standard (([0, 0, 0, 0, 0, 0, 0, 8] : List ℝ).map real) =
    ([0, 0, 0, 0, 0, 0, 0] : List ℝ).map real := by
  rw [cut_real, trimmed_eight]

theorem sound_outlying : Sound Clipping.standard (finite outlying) := by
  rw [finite_eq, sound_iff one_le_minCount_standard]
  refine ⟨enough_outlying, ?_⟩
  have hlevel : level (reals outlying) = 8 := by norm_num [level, reals_outlying]
  rw [IsFlat, spread_outlying, hlevel, not_le]
  exact (Real.lt_sqrt (by norm_num)).2 (by norm_num)

/-- One cut is made of the outliers, on every budget that allows it. -/
theorem makes_outlying (k : Nat) : Makes Clipping.standard k (min k 1) (finite outlying) := by
  have hgo : GoesOn Clipping.standard (finite outlying) := by
    refine ⟨by rw [cut_outlying]; decide, ?_⟩
    have hlevel : level [0, 0, 0, 0, 0, 0, 0, 8] = 1 := by norm_num [level]
    rw [cut_outlying, sound_iff one_le_minCount_standard, IsFlat, spread_eight, hlevel, not_le]
    exact ⟨by change (2 : Int) ≤ 8; decide, (Real.lt_sqrt (by norm_num)).2 (by norm_num)⟩
  have hstop : ¬GoesOn Clipping.standard (cut Clipping.standard (finite outlying)) := by
    intro h
    have hsound := h.sound
    rw [cut_outlying, cut_eight, sound_iff one_le_minCount_standard] at hsound
    refine hsound.2 ?_
    norm_num [IsFlat, spread, level]
  cases k with
  | zero =>
    exact ⟨le_rfl, fun _ hi => absurd hi (Nat.not_lt_zero _), fun hlt => absurd hlt (lt_irrefl 0)⟩
  | succ k =>
    rw [Nat.min_eq_right (Nat.le_add_left 1 k)]
    refine ⟨Nat.le_add_left 1 k, fun i hi => ?_, fun _ => hstop⟩
    obtain rfl : i = 0 := Nat.lt_one_iff.1 hi
    exact hgo

/-- So the report on every budget is that after one cut, if it is allowed. -/
theorem report_outlying (k : Nat) : report { Clipping.standard with rounds := k } outlying =
    reportAfter Clipping.standard outlying (min k 1) (k - min k 1) := by
  obtain ⟨n, hn, hreport⟩ := exists_reportAfter
    (sound_outlying.ne_nil one_le_minCount_standard) sound_outlying k
  rw [hreport, hn.unique (makes_outlying k)]

theorem kept_outlying (k : Nat) :
    (report { Clipping.standard with rounds := k + 1 } outlying).kept =
      ([0, 0, 0, 0, 0, 0, 0, 8] : List ℝ).map real := by
  rw [report_outlying, Nat.min_eq_right (Nat.le_add_left 1 k)]
  exact cut_outlying

theorem collapse_outlying (k : Nat) :
    (report { Clipping.standard with rounds := k + 2 } outlying).collapse = some ⟨7, 2⟩ := by
  have hending : endingAt Clipping.standard (k + 1)
      ((cut Clipping.standard)^[1] (finite outlying)) = .collapsed 7 := by
    rw [Function.iterate_one, cut_outlying, endingAt, cut_eight]
    rfl
  rw [report_outlying, Nat.min_eq_right (by omega), reportAfter, Nat.add_succ_sub_one, hending]
  rfl

/-- What is found by the names of method and bins is the report. -/
theorem eq_report_outlying {k : Nat} {r : Report Exact}
    (h : named? { Clipping.standard with rounds := k } "exact" 1000 outlying = .ok r) :
    r = report { Clipping.standard with rounds := k } outlying := by
  have hmin := one_le_minCount_standard (α := Exact)
  have hname := named?_name (c := { Clipping.standard with rounds := k }) hmin outlying
  exact Except.ok.inj (h.symm.trans hname)

/-- With one round the smaller outlier is kept in a reliable estimate; with two it is still
kept, but the estimate is not reliable. -/
theorem named?_keeps_outlying : 1 ≤ (Clipping.standard : Clipping Exact).minCount ∧
    (Clipping.standard : Clipping Exact).minCount ≤ (reals outlying).length ∧
    (∃ r, named? { Clipping.standard with rounds := 1 } "exact" 1000 outlying = .ok r ∧
      Keeps { Clipping.standard with rounds := 1 } outlying r [0, 0, 0, 0, 0, 0, 0, 8] ∧
      r.background.reliable = true) ∧
    ∃ r, named? Clipping.standard "exact" 1000 outlying = .ok r ∧
      Keeps Clipping.standard outlying r [0, 0, 0, 0, 0, 0, 0, 8] ∧ r.collapse = some ⟨7, 2⟩ := by
  have hmin := one_le_minCount_standard (α := Exact)
  have hreal : Function.Injective (List.map real) :=
    List.map_injective_iff.2 fun _ _ => Exact.real.inj
  have hkeeps (k : Nat) : ∃ r, named? { Clipping.standard with rounds := k + 1 } "exact" 1000
        outlying = .ok r ∧
      Keeps { Clipping.standard with rounds := k + 1 } outlying r [0, 0, 0, 0, 0, 0, 0, 8] ∧
      report { Clipping.standard with rounds := k + 1 } outlying = r := by
    obtain ⟨r, kept, hr, hkeeps⟩ :=
      named?_keeps { Clipping.standard with rounds := k + 1 } hmin outlying enough_outlying
    obtain rfl := eq_report_outlying hr
    obtain rfl := hreal ((kept_outlying k).symm.trans hkeeps.kept_eq)
    exact ⟨_, hr, hkeeps, rfl⟩
  obtain ⟨r, hr, hkept, hreport⟩ := hkeeps 0
  obtain ⟨r', hr', hkept', hreport'⟩ := hkeeps 4
  refine ⟨hmin, enough_outlying, ⟨r, hr, hkept, ?_⟩, r', hr', hkept', ?_⟩
  · rw [← hreport, report_outlying]
    rfl
  · rw [← hreport']
    exact collapse_outlying 3

end Background
end SkySources
