import Mathlib
import SkySources.Proofs.Fit.Start
import SkySources.Proofs.Survey.Area
import SkySources.Proofs.Unit.Background

/-!
# A survey in another unit

Thresholds count in deviations of the background, so their levels change with the unit
like the values that are held against them, and every pixel keeps its mark. The label
map comes from the marks alone. So a survey that estimates its deviation finds the same
label map in every unit, as far as the estimate does not depend on the unit itself.

What is proved, with exact numbers:
  1. `mark_scale`: the mark of a value;
  2. `keptLabels_eq_of_marks`: the label map comes from the marks;
  3. `run_scale`: the survey of an image, after the estimate for a method by its name.
-/

namespace SkySources

open Exact

namespace Threshold
variable {k : ℝ} (hk : 0 < k)

/-- The thresholds above a background in another unit. -/
noncomputable def rescale (k : ℝ) (t : Threshold Exact) : Threshold Exact :=
  { t with mean := scale k t.mean, sigma := scale k t.sigma }

include hk

/-- A value keeps its mark. -/
theorem mark_scale (t : Threshold Exact) (value : Exact) :
    (t.rescale k).mark (scale k value) = t.mark value := by
  have hdeviation : scale k value - (t.rescale k).mean = scale k (value - t.mean) :=
    (scale_sub hk value t.mean).symm
  have hanalysis : (t.rescale k).analysisLevel = scale k t.analysisLevel :=
    mul_scale hk t.analysis t.sigma
  have hdetection : (t.rescale k).detectionLevel = scale k t.detectionLevel :=
    mul_scale hk t.detection t.sigma
  have hnegatives : (t.rescale k).negatives = t.negatives := rfl
  simp only [mark, hdeviation, hanalysis, hdetection, hnegatives, isFinite_scale hk, ← scale_neg,
    scale_lt_scale hk]

theorem marks_scale {rows cols : Nat} (t : Threshold Exact) (data : Grid rows cols Exact) :
    (t.rescale k).marks (data.map (scale k)) = t.marks data := by
  apply Grid.ext_get
  intro p
  simp only [marks, Grid.get_map]
  exact mark_scale hk t _

end Threshold

namespace Sighting

section Labels
variable {α : Type} [Scalar α] {rows cols : Nat} {plan : Plan α} {data data' : Grid rows cols α}
  {s s' : Sighting rows cols α} (hs : of plan data = .ok s)
include hs

/-- A label is kept if it has enough pixels. -/
theorem exists_kept_label_iff {n : Nat} : (∃ i ∈ s.kept, i.label = (n : Int)) ↔
    (n ≠ 0 ∧ ∃ p, s.found.labels.get p = n) ∧
      plan.minArea ≤ {p | s.found.labels.get p = n}.ncard := by
  obtain ⟨_, _, hfound, hkept⟩ := of_eq_ok_iff.1 hs
  rw [← IslandMap.exists_label_iff hfound, hkept]
  have hnpix {i : Island α} (hi : i ∈ s.found.islands) (hl : i.label = (n : Int)) :
      i.npix = {p | s.found.labels.get p = n}.ncard := by
    rw [(IslandMap.describes hfound hi).npix_eq, hl]
    simp only [Int.natCast_inj]
  constructor
  · rintro ⟨i, hi, hl⟩
    rw [Island.mem_keepLarge] at hi
    exact ⟨⟨i, hi.1, hl⟩, hnpix hi.1 hl ▸ hi.2⟩
  · rintro ⟨⟨i, hi, hl⟩, hlarge⟩
    exact ⟨i, Island.mem_keepLarge.2 ⟨hi, (hnpix hi hl).symm ▸ hlarge⟩, hl⟩

/-- The label map that is shown comes from the marks alone. -/
theorem keptLabels_eq_of_marks (hs' : of plan data' = .ok s') (hmarks : s'.marks = s.marks) :
    s'.keptLabels = s.keptLabels := by
  obtain ⟨_, _, hfound, _⟩ := of_eq_ok_iff.1 hs
  obtain ⟨_, _, hfound', _⟩ := of_eq_ok_iff.1 hs'
  have hlabels : s'.found.labels = s.found.labels := by
    rw [IslandMap.labels_eq hfound, IslandMap.labels_eq hfound', hmarks]
  apply Grid.ext_get
  intro p
  rw [keptLabels_get hs, keptLabels_get hs']
  simp only [exists_kept_label_iff hs, exists_kept_label_iff hs', hlabels]

end Labels

variable {k : ℝ} (hk : 0 < k) {rows cols : Nat} {plan : Plan Exact} {data : Grid rows cols Exact}
  {s s' : Sighting rows cols Exact}
include hk

/-- What is found in another unit, if the deviation is not given. -/
theorem of_scale (hrms : plan.rms = none)
    (hclear : ∀ t ∈ Background.weighed plan.clipping data.toList, t.IsClear k)
    (hs : of plan data = .ok s) (hs' : of plan (data.map (scale k)) = .ok s') :
    s'.levels.background = s.levels.background.scale k ∧ s'.marks = s.marks := by
  obtain ⟨hlevels, hmarks, _⟩ := of_eq_ok_iff.1 hs
  obtain ⟨hlevels', hmarks', _⟩ := of_eq_ok_iff.1 hs'
  have hbackground : s'.levels.background = s.levels.background.scale k := by
    rw [hlevels, hlevels', Grid.toList_map, Levels.of, Levels.of,
      Background.report_scale hk _ hclear]
    simp only [Plan.background, hrms]
    rfl
  refine ⟨hbackground, ?_⟩
  rw [hmarks, hmarks', hbackground]
  exact Threshold.marks_scale hk (plan.threshold s.levels.background) data

end Sighting

namespace Survey

/-- In another unit an estimate is the same in that unit, for every method and number of
bins, and a survey that estimates the deviation finds the same label map, if no sample on
the way is flat in one unit only. Both surveys come to an end if the minimiser counts and
somebody is there to make the fits. -/
theorem run_scale (k : ℝ) (hk : 0 < k) :
    (∀ (c : Background.Clipping Exact) (method : String) (bins : Int) (data : List Exact),
      (∀ m, Median.Method.ofName? method = some m →
        ∀ t ∈ Background.weighed { c with method := m, bins := bins.toNat } data, t.IsClear k) →
      Background.named? c method bins (data.map (scale k)) =
        (Background.named? c method bins data).map (Background.Report.scale k)) ∧
    ∀ (rows cols : Nat) (minimiser : Minimiser Exact) (plan : Plan Exact)
      (data : Grid rows cols Exact), plan.rms = none →
      (∀ t ∈ Background.weighed plan.clipping data.toList, t.IsClear k) →
      (∀ r r', (run minimiser plan data).2 = .ok r →
        (run minimiser plan (data.map (scale k))).2 = .ok r' →
        r'.background = r.background.scale k ∧ r'.labels = r.labels ∧ r'.marks = r.marks) ∧
      ((∀ problem start, minimiser problem start ≠ .error .uncountable) → 0 ≤ plan.margin →
        Sighting.hasWorkers plan = true →
        ∃ r r', (run minimiser plan data).2 = .ok r ∧
          (run minimiser plan (data.map (scale k))).2 = .ok r') := by
  refine ⟨fun c method bins data => Background.named?_scale hk c method bins data, ?_⟩
  intro rows cols minimiser plan data hrms hclear
  constructor
  · intro r r' hr hr'
    obtain ⟨s, islands, hs, _, rfl⟩ := run_eq_ok_iff.1 hr
    obtain ⟨s', islands', hs', _, rfl⟩ := run_eq_ok_iff.1 hr'
    obtain ⟨hbackground, hmarks⟩ := Sighting.of_scale hk hrms hclear hs hs'
    have hlabels := Sighting.keptLabels_eq_of_marks hs hs' hmarks
    simp only [Sighting.conclude, hbackground, hlabels, hmarks, and_self]
  · intro hu hmargin hw
    have hends (data : Grid rows cols Exact) : ∃ r, (run minimiser plan data).2 = .ok r := by
      obtain ⟨s, hs⟩ := Sighting.exists_of plan data
      obtain ⟨islands, hi⟩ := Sighting.exists_fitted hs hu hmargin hw
      exact ⟨_, run_eq_ok_iff.2 ⟨s, islands, hs, hi, rfl⟩⟩
    obtain ⟨r, hr⟩ := hends data
    obtain ⟨r', hr'⟩ := hends (data.map (scale k))
    exact ⟨r, r', hr, hr'⟩

/-- A plan that takes no round of clipping. -/
noncomputable def unclippedPlan : Plan Exact :=
  { detection := real 0.5, analysis := real 0.5, rms := none, negatives := true
    clipping := Background.unclipped, barycentre := true, fitting := false, connectivity := .edges
    shows := true, minArea := 1, differencing := .analyticSingleBlock, margin := 0
    workers := none, debug := false }

/-- Two pixels on both sides of four. -/
def even : Grid 1 2 Exact := ⟨#v[#v[real 1, real 7]]⟩

/-- The image in a unit of half the size. -/
theorem run_scale_even : (0 : ℝ) < 2 ∧ unclippedPlan.rms = none ∧
    (∀ t ∈ Background.weighed unclippedPlan.clipping even.toList, t.IsClear 2) ∧
    ∃ r r', (run Fit.staying unclippedPlan even).2 = .ok r ∧
      (run Fit.staying unclippedPlan (even.map (scale 2))).2 =
        .ok r' ∧
      r'.background = r.background.scale 2 ∧ r'.labels = r.labels ∧ r'.marks = r.marks := by
  have hclear : ∀ t ∈ Background.weighed unclippedPlan.clipping even.toList, t.IsClear 2 := by
    intro t ht
    obtain rfl := Background.eq_of_mem_weighed rfl ht
    exact Background.isClear_of_one_le two_pos (Background.mean_pair 1 7) (by norm_num)
      (by norm_num)
  obtain ⟨hsame, hends⟩ := (run_scale 2 two_pos).2 1 2
    Fit.staying unclippedPlan even rfl hclear
  obtain ⟨r, r', hr, hr'⟩ := hends nofun (by decide) rfl
  exact ⟨two_pos, rfl, hclear, r, r', hr, hr', hsame r r' hr hr'⟩

end Survey
end SkySources
