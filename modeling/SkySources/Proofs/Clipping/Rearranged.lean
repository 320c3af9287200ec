import Mathlib
import SkySources.Proofs.Clipping.Kept

/-!
# The order of values

An estimate of the background is about the finite values only, and not about their order:
mean, deviation and median of two lists are the same if one is the other rearranged, so a
cut keeps the same values of both, and the rounds go on and end alike.

What is proved, with exact numbers:
  1. `sample_rearranged`: the estimate of one sample;
  2. `clip_rearranged`: rounds of clipping, by induction on the budget;
  3. `report_rearranged`: the report of an estimate;
  4. `named?_rearranged`: the same for a method by its name and any number of bins, where
     there is a fault for both or for none.
-/

namespace SkySources.Background

open Exact Moments

/-! ## What stays the same -/

section Rearranged
variable {α : Type}

/-- The same sample, with its values in another order. -/
structure Sample.Rearranged (s t : Sample α) : Prop where
  values : s.values.Perm t.values
  mean : s.mean = t.mean
  sigma : s.sigma = t.sigma
  median : s.median = t.median

/-- The rounds went the same way, with the values in another order. -/
structure Clipped.Rearranged (r t : Clipped α) : Prop where
  sample : r.sample.Rearranged t.sample
  cuts : r.cuts = t.cuts
  ending : r.ending = t.ending

/-- The same estimate, with the kept values in another order. -/
structure Report.Rearranged (r t : Report α) : Prop where
  background : r.background = t.background
  kept : r.kept.Perm t.kept
  collapse : r.collapse = t.collapse

theorem Report.Rearranged.refl (r : Report α) : r.Rearranged r :=
  ⟨rfl, List.Perm.refl _, rfl⟩

theorem ofSample_rearranged {s t : Sample α} (h : s.Rearranged t) (reliable : Bool) (rounds : Nat) :
    ofSample s reliable rounds = ofSample t reliable rounds := by
  rw [ofSample, ofSample, h.mean, h.sigma, h.median, Sample.count, Sample.count,
    h.values.length_eq]

theorem ofClipped_rearranged {r t : Clipped α} (h : r.Rearranged t) :
    (Report.ofClipped r).Rearranged (Report.ofClipped t) := by
  have hbackground : ofClipped r = ofClipped t := by
    rw [ofClipped, ofClipped, h.ending, h.cuts]
    simp only [ofSample_rearranged h.sample]
  refine ⟨hbackground, h.sample.values, ?_⟩
  rw [Report.ofClipped, Report.ofClipped, h.ending, h.cuts]

theorem unclipped_rearranged {s t : Sample α} (h : s.Rearranged t) (sigma : α) :
    (Report.unclipped s sigma).Rearranged (Report.unclipped t sigma) := by
  have hsample : Sample.Rearranged { s with sigma := sigma } { t with sigma := sigma } :=
    ⟨h.values, h.mean, rfl, h.median⟩
  exact ⟨ofSample_rearranged hsample false 0, h.values, rfl⟩

theorem isSmall_rearranged {s t : Sample α} (h : s.Rearranged t) (c : Clipping α) :
    s.isSmall c = t.isSmall c := by
  rw [Sample.isSmall, Sample.isSmall, Sample.count, Sample.count, h.values.length_eq]

theorem isFlat_rearranged [Scalar α] {s t : Sample α} (h : s.Rearranged t) :
    s.isFlat = t.isFlat := by
  rw [Sample.isFlat, Sample.isFlat, h.mean, h.sigma]

end Rearranged

/-! ## Rounds -/

section Rounds
variable {c : Clipping Exact} {xs ys : List ℝ} (h : xs.Perm ys)
include h

theorem sample_rearranged (c : Clipping Exact) :
    (Sample.of c (xs.map real)).Rearranged (Sample.of c (ys.map real)) := by
  rcases eq_or_ne xs [] with rfl | hne
  · rw [h.nil_eq]
    exact ⟨List.Perm.refl _, rfl, rfl, rfl⟩
  · have hne' : ys ≠ [] := by
      rintro rfl
      exact hne h.eq_nil
    rw [sample_real c hne, sample_real c hne']
    exact ⟨h.map real, congrArg real (level_perm h), congrArg real (spread_perm h),
      Median.of_perm h c.method c.bins⟩

/-- A cut keeps the same values. -/
theorem trimmed_perm (c : Clipping Exact) : (trimmed c xs).Perm (trimmed c ys) := by
  have hnear : isNear c xs = isNear c ys := by
    funext x
    rw [isNear, isNear, Median.of_perm h, spread_perm h]
  rw [trimmed, trimmed, hnear]
  exact h.filter _

theorem sound_of_perm (hsound : Sound c (xs.map real)) : Sound c (ys.map real) where
  enough := by rw [← isSmall_rearranged (sample_rearranged h c), hsound.enough]
  uneven := by rw [← isFlat_rearranged (sample_rearranged h c), hsound.uneven]

theorem goesOn_of_perm (hgo : GoesOn c (xs.map real)) : GoesOn c (ys.map real) := by
  obtain ⟨hshorter, hsound⟩ := hgo
  rw [cut_real] at hshorter hsound
  refine ⟨?_, ?_⟩
  · rw [cut_real]
    simpa [(trimmed_perm h c).length_eq, h.length_eq] using hshorter
  · rw [cut_real]
    exact sound_of_perm (trimmed_perm h c) hsound

theorem endingAt_perm (rest : Nat) : endingAt c rest (xs.map real) = endingAt c rest (ys.map real) := by
  rw [endingAt, endingAt, cut_real, cut_real]
  simp only [List.length_map, (trimmed_perm h c).length_eq, h.length_eq]

theorem clip_rearranged (budget : Nat) :
    (clip c budget (Sample.of c (xs.map real))).Rearranged
      (clip c budget (Sample.of c (ys.map real))) := by
  induction budget generalizing xs ys with
  | zero => exact ⟨sample_rearranged h c, rfl, rfl⟩
  | succ budget ih =>
    by_cases hgo : GoesOn c (xs.map real)
    · obtain ⟨hsample, hcuts, hending⟩ := ih (trimmed_perm h c)
      rw [clip_of_goesOn hgo, clip_of_goesOn (goesOn_of_perm h hgo), cut_real, cut_real]
      exact ⟨hsample, congrArg (· + 1) hcuts, hending⟩
    · rw [clip_of_not_goesOn hgo,
        clip_of_not_goesOn fun hgo' => hgo (goesOn_of_perm h.symm hgo')]
      exact ⟨sample_rearranged h c, rfl, endingAt_perm h (budget + 1)⟩

end Rounds

/-! ## Estimates -/

section Estimates
variable {data data' : List Exact} (h : (finite data).Perm (finite data'))
include h

theorem reals_perm : (reals data).Perm (reals data') := by
  have hreals (data : List Exact) : (finite data).filterMap real? = reals data := by
    rw [finite_eq, List.filterMap_map]
    exact List.filterMap_some
  rw [← hreals data, ← hreals data']
  exact h.filterMap _

theorem report_rearranged (c : Clipping Exact) : (report c data).Rearranged (report c data') := by
  by_cases hnil : finite data = []
  · have hnil' : finite data' = [] := by
      rw [hnil] at h
      exact h.nil_eq.symm
    rw [report_of_nil hnil, report_of_nil hnil']
    exact Report.Rearranged.refl _
  · have hnil' : finite data' ≠ [] := by
      intro hnil'
      rw [hnil'] at h
      exact hnil h.eq_nil
    have hsample : (Sample.of c (finite data)).Rearranged (Sample.of c (finite data')) := by
      rw [finite_eq, finite_eq]
      exact sample_rearranged (reals_perm h) c
    have hsmall := isSmall_rearranged hsample c
    have hflat := isFlat_rearranged hsample
    cases hs : (Sample.of c (finite data)).isSmall c with
    | true =>
      rw [report_of_small hnil hs, report_of_small hnil' (hsmall ▸ hs)]
      exact unclipped_rearranged hsample _
    | false =>
      cases hf : (Sample.of c (finite data)).isFlat with
      | true =>
        rw [report_of_flat hnil hs hf, report_of_flat hnil' (hsmall ▸ hs) (hflat ▸ hf),
          hsample.sigma]
        exact unclipped_rearranged hsample _
      | false =>
        rw [report_of_sound hnil ⟨hs, hf⟩, report_of_sound hnil' ⟨hsmall ▸ hs, hflat ▸ hf⟩,
          finite_eq, finite_eq]
        exact ofClipped_rearranged (clip_rearranged (reals_perm h) c.rounds)

theorem fault_rearranged (c : Clipping Exact) (bins : Int) :
    fault c bins data = fault c bins data' := by
  have hempty : (finite data).isEmpty = (finite data').isEmpty := h.isEmpty_eq
  have hkept : (report c data).kept.isEmpty = (report c data').kept.isEmpty :=
    (report_rearranged h c).kept.isEmpty_eq
  have hdeviation : Moments.deviation Sum.running (finite data) =
      Moments.deviation Sum.running (finite data') := by
    rcases eq_or_ne (reals data) [] with hnil | hne
    · have hnil' := reals_perm h
      rw [hnil] at hnil'
      rw [finite_eq, finite_eq, hnil, hnil'.nil_eq]
    · have hne' : reals data' ≠ [] := by
        intro hnil'
        have hperm := reals_perm h
        rw [hnil'] at hperm
        exact hne hperm.eq_nil
      rw [finite_eq, finite_eq, deviation_real Sum.running_real hne,
        deviation_real Sum.running_real hne', spread_perm (reals_perm h)]
  simp only [fault, Median.binFault, hempty, hkept, hdeviation]

/-- For data with the same finite values in any order, with any values that are not finite
between them, there is the same estimate or the same fault. -/
theorem named?_rearranged (c : Clipping Exact) (method : String) (bins : Int) :
    (∃ f, named? c method bins data = .error f ∧ named? c method bins data' = .error f) ∨
      ∃ r r', named? c method bins data = .ok r ∧ named? c method bins data' = .ok r' ∧
        r.Rearranged r' := by
  unfold named?
  cases Median.Method.ofName? method with
  | some m =>
    have hreport := report_rearranged h { c with method := m, bins := bins.toNat }
    simp only [fault_rearranged h { c with method := m, bins := bins.toNat } bins]
    cases fault { c with method := m, bins := bins.toNat } bins data' with
    | some f => exact .inl ⟨f, rfl, rfl⟩
    | none => exact .inr ⟨_, _, rfl, rfl, hreport⟩
  | none =>
    have hempty : (finite data).isEmpty = (finite data').isEmpty := h.isEmpty_eq
    simp only [hempty]
    split
    · exact .inr ⟨_, _, rfl, rfl, report_rearranged h c⟩
    · exact .inl ⟨_, rfl, rfl⟩

end Estimates

/-- Two values, the other way round and with one that is missing between them. -/
theorem named?_rearranged_two :
    (finite [real 0, real 1]).Perm (finite [real 1, missing, real 0]) ∧
      ((∃ f, named? Clipping.standard "exact" 1000 [real 0, real 1] = .error f ∧
          named? Clipping.standard "exact" 1000 [real 1, missing, real 0] = .error f) ∨
        ∃ r r', named? Clipping.standard "exact" 1000 [real 0, real 1] = .ok r ∧
          named? Clipping.standard "exact" 1000 [real 1, missing, real 0] = .ok r' ∧
          r.Rearranged r') := by
  have h : (finite [real 0, real 1]).Perm (finite [real 1, missing, real 0]) :=
    List.Perm.swap (real 1) (real 0) []
  exact ⟨h, named?_rearranged h Clipping.standard "exact" 1000⟩

end SkySources.Background
