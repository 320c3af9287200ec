import Mathlib
import SkySources.Proofs.Clipping.Rounds
import SkySources.Proofs.Fit.Start
import SkySources.Proofs.Mirror.Background
import SkySources.Proofs.Mirror.Island
import SkySources.Proofs.Moments
import SkySources.Proofs.Survey.Agreement
import SkySources.Proofs.Survey.Outcome

/-!
# The survey of a negated image

If islands below the background count as well, no side is preferred: the survey of
the negated image finds the same islands with the same labels, each on the other
side, and turns their fits over. Only exact numbers are looked at, and medians
that are sorted out or zero.

What is proved, stage by stage:
  1. `Levels.of_mirror`: the background;
  2. `Sighting.of_mirror`: marks, islands, and which of them are kept;
  3. `Sighting.fitted_mirror`: their fits;
  4. `Survey.run_mirror`: the whole run, also if it fails.
-/

namespace SkySources

open Exact

variable {rows cols : Nat} {minimiser : Minimiser Exact} {plan : Plan Exact}
  {data : Grid rows cols Exact}

/-- A plan that prefers no side: islands on both sides count, no value can be marked
on both, and medians do not come from bins. -/
structure Plan.Impartial (plan : Plan Exact) : Prop where
  negatives : plan.negatives = true
  analysis : 0.0 ≤ plan.analysis
  rms : ∀ sigma, plan.rms = some sigma → 0.0 < sigma
  median : plan.clipping.method ≠ .binapprox

/-! ## The background -/

namespace Levels

/-- The levels of negated data. -/
noncomputable def mirror (l : Levels Exact) : Levels Exact := ⟨l.report.mirror, l.background.mirror⟩

theorem of_mirror (hm : plan.clipping.method ≠ .binapprox) (data : List Exact) :
    of plan (data.map Neg.neg) = (of plan data).mirror := by
  rw [of, of, Background.report_mirror hm]
  simp only [mirror, Levels.mk.injEq, true_and, Plan.background, Background.Report.mirror]
  cases plan.rms <;> rfl

/-- The deviation is never negative, if none that is not positive is given. -/
theorem isNoise_sigma (hrms : ∀ sigma, plan.rms = some sigma → 0.0 < sigma) (data : List Exact) :
    IsNoise (of plan data).background.sigma := by
  simp only [of, Plan.background]
  cases h : plan.rms with
  | none => exact Background.isNoise_report plan.clipping data
  | some sigma => exact isNoise_of_pos (hrms sigma h)

end Levels

/-! ## What is found -/

namespace Sighting
variable {s : Sighting rows cols Exact}

/-- What is found in a negated image. -/
noncomputable def mirror (s : Sighting rows cols Exact) : Sighting rows cols Exact :=
  ⟨s.levels.mirror, s.marks.map Mark.mirror, s.found.mirror, s.kept.map Island.mirror⟩

theorem of_mirror (hplan : plan.Impartial) (h : of plan data = .ok s) :
    of plan (data.map Neg.neg) = .ok s.mirror := by
  obtain ⟨hlevels, hmarks, hfound, hkept⟩ := of_eq_ok_iff.1 h
  -- this is where the thresholds must not be negative: no value is marked on both sides
  have hnoise : IsNoise (plan.threshold s.levels.background).analysisLevel := by
    rw [hlevels]
    exact IsNoise.mul hplan.analysis (Levels.isNoise_sigma hplan.rms data.toList)
  refine of_eq_ok_iff.2 ⟨?_, ?_, ?_, ?_⟩
  · rw [Grid.toList_map, Levels.of_mirror hplan.median, ← hlevels]
    rfl
  · change s.marks.map Mark.mirror = (plan.threshold s.levels.background).mirror.marks _
    rw [Threshold.marks_mirror hplan.negatives hnoise, ← hmarks]
  · exact IslandMap.ofMarks_mirror hfound
  · change s.kept.map Island.mirror = Island.keepLarge plan.minArea (s.found.islands.map Island.mirror)
    rw [Island.keepLarge_mirror, ← hkept]

theorem keptLabels_mirror (s : Sighting rows cols Exact) : s.mirror.keptLabels = s.keptLabels := by
  have hdropped : s.mirror.dropped = s.dropped := by
    rw [dropped, dropped]
    change (s.found.islands.map Island.mirror).length - (s.kept.map Island.mirror).length = _
    rw [List.length_map, List.length_map]
  have honly : IslandMap.onlyLabels (s.kept.map Island.mirror) s.found.labels =
      IslandMap.onlyLabels s.kept s.found.labels := by
    simp only [IslandMap.onlyLabels, List.any_map]
    rfl
  rw [keptLabels, hdropped, keptLabels, ← honly]
  rfl

/-! ## Fits -/

theorem fitIsland_mirror (labels : Grid rows cols Nat) (mean : Exact) (i : Island Exact) :
    fitIsland minimiser plan (data.map Neg.neg) labels (-mean) i.mirror =
      (fitIsland minimiser plan data labels mean i).map Island.mirror := by
  rw [fitIsland, fitIsland, Fit.ofIsland_mirror]
  cases Fit.ofIsland minimiser plan.differencing plan.margin data (some (labels.map Int.ofNat)) mean
      i with
  | error fault => rfl
  | ok outcome =>
    cases outcome <;> rfl

/-- Every fit is turned over. -/
theorem fitted_mirror (s : Sighting rows cols Exact) :
    s.mirror.fitted minimiser plan (data.map Neg.neg) =
      (s.fitted minimiser plan data).map (List.map Island.mirror) := by
  -- the labels are the same, so the surroundings of every island are as well
  have hfits : (s.kept.map Island.mirror).mapM (fitIsland minimiser plan (data.map Neg.neg)
      s.found.labels (-s.levels.background.mean)) =
        (s.kept.mapM (fitIsland minimiser plan data s.found.labels
          s.levels.background.mean)).map (List.map Island.mirror) := by
    rw [List.mapM_map, map_mapM]
    congr 1
    funext i
    exact fitIsland_mirror _ _ i
  have hfitted : s.mirror.isFitted plan = s.isFitted plan := by
    rw [isFitted, isFitted]
    change (plan.fitting && !(s.kept.map Island.mirror).isEmpty) = _
    rw [List.isEmpty_map]
  unfold fitted
  rw [hfitted]
  split
  · rfl
  · split
    · rfl
    · change ((s.kept.map Island.mirror).mapM (fitIsland minimiser plan (data.map Neg.neg)
        s.found.labels (-s.levels.background.mean))).mapError SurveyFault.fit = _
      rw [hfits]
      cases s.kept.mapM (fitIsland minimiser plan data s.found.labels s.levels.background.mean) <;> rfl

end Sighting

/-! ## The run -/

namespace Survey

/-- The survey of a negated image: mean and median of the background, signs,
extrema and amplitudes are negated, marks are on the other side, and all else
stays. -/
noncomputable def mirror (r : Survey rows cols Exact) : Survey rows cols Exact :=
  { background := r.background.mirror
    islands := r.islands.map Island.mirror
    labels := r.labels
    marks := r.marks.map (Grid.map Mark.mirror) }

theorem conclude_mirror (s : Sighting rows cols Exact) (islands : List (Island Exact)) :
    s.mirror.conclude plan (islands.map Island.mirror) = (s.conclude plan islands).mirror := by
  rw [Sighting.conclude, Sighting.conclude, Sighting.keptLabels_mirror]
  cases plan.shows <;> rfl

/-- The survey of a negated image is the mirrored survey, and it fails if that fails. -/
theorem run_mirror (minimiser : Minimiser Exact) (plan : Plan Exact) (data : Grid rows cols Exact)
    (hplan : plan.Impartial) :
    (run minimiser plan (data.map Neg.neg)).2 = (run minimiser plan data).2.map mirror := by
  obtain ⟨s, hs⟩ := Sighting.exists_of plan data
  rw [run_snd hs, run_snd (Sighting.of_mirror hplan hs), Sighting.fitted_mirror]
  cases s.fitted minimiser plan data with
  | error fault => rfl
  | ok islands => exact congrArg Except.ok (conclude_mirror s islands)

/-- The usual settings with fits, in exact numbers. -/
noncomputable def usualPlan : Plan Exact :=
  { detection := real 5, analysis := real 3, rms := none, negatives := true
    clipping := { numSigma := real 3, rounds := 5, method := .exact, bins := 1000, minCount := 2 }
    barycentre := true, fitting := true, connectivity := .edges, shows := true, minArea := 1
    differencing := .analyticSingleBlock, margin := 0, workers := none, debug := false }

/-- Settings that count in a deviation of one, clip nothing from a small image, look at the whole of
it for a fit, and drop single pixels. -/
noncomputable def broadPlan : Plan Exact :=
  { usualPlan with
    rms := some (real 1)
    clipping := { usualPlan.clipping with minCount := 20 }
    margin := 5
    minArea := 2 }

theorem broadPlan_impartial : broadPlan.Impartial := by
  refine ⟨rfl, ?_, ?_, by decide⟩
  · rw [zero_eq]
    exact (le_real 0 3).2 (by norm_num)
  · intro sigma h
    cases h
    rw [zero_eq]
    exact (lt_real 0 1).2 one_pos

/-- Two bright spots and a dark one, beside a pixel that is missing; the mean of the others is
zero. -/
def patchy : Grid 2 5 Exact :=
  ⟨#v[#v[real 9, real 10, real 0, real 0, real (-9)],
    #v[real 0, missing, real 0, real 6, real (-16)]]⟩

theorem background_patchy : (Levels.of broadPlan patchy.toList).background.mean = real 0 ∧
    (Levels.of broadPlan patchy.toList).background.sigma = real 1 := by
  refine ⟨?_, rfl⟩
  have hfinite : Background.finite patchy.toList = [9, 10, 0, 0, -9, 0, 0, 6, -16].map real := by
    rfl
  have hsmall : (Background.Sample.of broadPlan.clipping
      (Background.finite patchy.toList)).isSmall broadPlan.clipping = true := by
    rw [hfinite]
    rfl
  change (Background.report broadPlan.clipping patchy.toList).background.mean = _
  rw [Background.report_of_small (by rw [hfinite]; exact List.cons_ne_nil _ _) hsmall, hfinite]
  change Moments.mean Sum.pairwise ([9, 10, 0, 0, -9, 0, 0, 6, -16].map real) = _
  rw [Moments.mean_real Sum.pairwise_real (List.cons_ne_nil _ _), Moments.level]
  norm_num

theorem marks_patchy : (broadPlan.threshold (Levels.of broadPlan patchy.toList).background).marks
    patchy = speckles := by
  have hmark (v : ℝ) : (broadPlan.threshold (Levels.of broadPlan patchy.toList).background).mark
      (real v) =
        { sign := if decide (v < -3) then .below else if decide (3 < v) then .above else .background
          detected := decide (3 < v) && decide (5 < v) || decide (v < -3) && decide (v < -5) } := by
    simp only [Threshold.mark, Plan.threshold, Threshold.analysisLevel, Threshold.detectionLevel,
      background_patchy.1, background_patchy.2]
    simp [broadPlan, usualPlan]
  apply Grid.ext_get
  intro p
  rw [Threshold.marks, Grid.get_map]
  obtain ⟨⟨row, hrow⟩, ⟨col, hcol⟩⟩ := p
  interval_cases row <;> interval_cases col <;> first
    | rfl
    | exact (hmark _).trans (by norm_num; rfl)

/-- Every pixel but one has a real value, which is not zero where there is a label. -/
theorem exists_get_patchy {p : Pixel 2 5} (hp : p ≠ ⟨1, 1⟩) : ∃ v, patchy.get p = real v ∧
    (numberedSpeckles.labels.get p ≠ 0 → v ≠ 0) := by
  obtain ⟨⟨row, hrow⟩, ⟨col, hcol⟩⟩ := p
  interval_cases row <;> interval_cases col
  all_goals first
    | exact absurd rfl hp
    | exact ⟨_, rfl, fun h => absurd rfl h⟩
    | exact ⟨_, rfl, fun _ => by norm_num⟩

/-- Every pixel of the image is near every box in it. -/
theorem isNear_patchy {b : BoundingBox} (h : b.Inside 2 5) (p : Pixel 2 5) : b.IsNear 5 p := by
  obtain ⟨hminRow, hmaxRow, hminCol, hmaxCol⟩ := h
  have hrows := b.rows_le
  have hcols := b.cols_le
  have hrow := p.row.isLt
  have hcol := p.col.isLt
  unfold BoundingBox.IsNear
  omega

/-- The labels of the spots, as a fit looks at them. -/
def spotLabels : Grid 2 5 Int := numberedSpeckles.labels.map Int.ofNat

/-- With the pixels of no spot there are six for each of two spots. -/
theorem enough_patchy {i : Island Exact} (h : i.box.Inside 2 5)
    (hlabel : i.label = 1 ∨ i.label = 2) :
    6 ≤ {p | Scalar.isFinite (patchy.get p) = true ∧ Fit.Concerns (some spotLabels) i 5 p}.ncard := by
  let allowed : Finset (Pixel 2 5) := Finset.univ.filter fun p =>
    p ≠ ⟨1, 1⟩ ∧ (spotLabels.get p = 0 ∨ spotLabels.get p = i.label)
  have hcard : allowed.card = 6 := by
    rcases hlabel with hl | hl <;> simp only [allowed, hl] <;> rfl
  rw [← hcard, ← Set.ncard_coe_finset]
  refine Set.ncard_le_ncard (fun p hp => ?_) (Set.toFinite _)
  obtain ⟨-, hne, hallowed⟩ := Finset.mem_filter.1 hp
  obtain ⟨v, hv, -⟩ := exists_get_patchy hne
  refine ⟨by rw [hv, isFinite_real], isNear_patchy h p, fun map hmap => ?_⟩
  cases hmap
  exact hallowed

/-- Two pixels of a spot that are not alike can be fitted with those around it. -/
theorem fittable_patchy {i : Island Exact} (h : i.box.Inside 2 5)
    (hlabel : i.label = 1 ∨ i.label = 2) : Fit.Fittable patchy (some spotLabels) i 5 where
  varied := by
    have hmember {p : Pixel 2 5} (hp : p ≠ ⟨1, 1⟩) (hpl : spotLabels.get p = i.label) :
        i.box.IsNear 5 p ∧ Fit.isMember patchy (some spotLabels) i.label p = true := by
      obtain ⟨v, hv, -⟩ := exists_get_patchy hp
      refine ⟨isNear_patchy h p, Fit.isMember_iff.2 ⟨by rw [hv, isFinite_real], fun map hmap => ?_⟩⟩
      cases hmap
      exact hpl
    rcases hlabel with hl | hl
    · refine ⟨⟨0, 0⟩, ⟨0, 1⟩, hmember (by decide) (by rw [hl]; rfl),
        hmember (by decide) (by rw [hl]; rfl), ?_⟩
      change real 9 ≠ real 10
      norm_num
    · refine ⟨⟨0, 4⟩, ⟨1, 4⟩, hmember (by decide) (by rw [hl]; rfl),
        hmember (by decide) (by rw [hl]; rfl), ?_⟩
      change real (-9) ≠ real (-16)
      norm_num
  enough := enough_patchy h hlabel

/-- A search that stays where it begins ends with a fit of either of the two spots. -/
theorem exists_fit_patchy {m : IslandMap 2 5 Exact} {i : Island Exact}
    (h : IslandMap.ofMarks .edges patchy speckles (real 0) true = .ok m) (hi : i ∈ m.islands)
    (hlabel : i.label = 1 ∨ i.label = 2) :
    ∃ fit, Sighting.fitIsland Fit.staying broadPlan patchy m.labels (real 0) i =
      .ok (i.withFit (some fit)) := by
  have hlabels := (exists_islands_speckles h).1
  obtain ⟨p, hp, -, hvalue, -⟩ := IslandMap.exists_peak h hi
  have hmarked : numberedSpeckles.labels.get p ≠ 0 := by
    rw [hlabels] at hp
    omega
  obtain ⟨v, hv, hne⟩ := exists_get_patchy (p := p) (by rintro rfl; exact hmarked rfl)
  have hinside := Fit.inside_box h hi
  have hmargin : (0 : Int) ≤ 5 := by decide
  obtain ⟨box, hbox⟩ := Fit.exists_padded hmargin hinside
  obtain ⟨fit, hfit⟩ := Fit.exists_fit (d := broadPlan.differencing) (hvalue.trans hv)
    (hne hmarked) hmargin hinside (Fit.covers_extremum h hi) hbox
    (fittable_patchy hinside hlabel) (show Fit.staying _ _ = _ from rfl)
  refine ⟨fit, ?_⟩
  rw [Sighting.fitIsland, hlabels]
  exact congrArg (Except.map fun outcome => i.withFit outcome.toOption) hfit

/-- The survey of an image, and that of its negation: there is an island on each side, and both
have a fit. -/
theorem run_mirror_patchy : broadPlan.Impartial ∧ ∃ r,
    (run Fit.staying broadPlan patchy).2 = .ok r ∧
    (run Fit.staying broadPlan (patchy.map Neg.neg)).2 = .ok r.mirror ∧
    r.islands.map (fun i => (i.sign, i.npix, i.fit.isSome)) = [(1, 2, true), (-1, 2, true)] := by
  obtain ⟨s, hs⟩ := Sighting.exists_of broadPlan patchy
  obtain ⟨hlevels, hmarks, hfound, hkept⟩ := Sighting.of_eq_ok_iff.1 hs
  rw [hlevels, marks_patchy] at hmarks
  rw [hmarks, hlevels, background_patchy.1] at hfound
  obtain ⟨-, i, j, k, hislands, ⟨hi, hi'⟩, ⟨hj, hj'⟩, hk, hk'⟩ :=
    exists_islands_speckles hfound
  have hmin : broadPlan.minArea = 2 := rfl
  have hlarge : s.kept = [i, j] := by
    simp [hkept, hislands, Island.keepLarge, hmin, hi', hj', hk']
  have hmean : s.levels.background.mean = real 0 := by rw [hlevels, background_patchy.1]
  obtain ⟨f, hf⟩ := exists_fit_patchy hfound (i := i) (by simp [hislands]) (.inl hi)
  obtain ⟨g, hg⟩ := exists_fit_patchy hfound (i := j) (by simp [hislands]) (.inr hj)
  have hfitted : s.fitted Fit.staying broadPlan patchy =
      .ok [i.withFit (some f), j.withFit (some g)] := by
    refine Sighting.fitted_eq_ok_iff.2 (.inr ⟨rfl, .inr rfl, ?_⟩)
    rw [hlarge, hmean, mapM_eq_ok_iff]
    simp [hf, hg]
  have hr : (run Fit.staying broadPlan patchy).2 =
      .ok (s.conclude broadPlan [i.withFit (some f), j.withFit (some g)]) :=
    run_eq_ok_iff.2 ⟨s, _, hs, hfitted, rfl⟩
  refine ⟨broadPlan_impartial, _, hr, ?_, ?_⟩
  · rw [run_mirror Fit.staying broadPlan patchy broadPlan_impartial, hr]
    rfl
  · simp [Sighting.conclude, Island.withFit, hi', hj']

end Survey
end SkySources
