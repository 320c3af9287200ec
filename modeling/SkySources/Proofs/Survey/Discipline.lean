import SkySources.Proofs.Survey.Agreement
import SkySources.Proofs.Survey.Hysteresis

/-!
# The sides of marked pixels

A pixel takes part in the analysis exactly if it is marked with a side, and a detected
pixel always does (`Disciplined`). What the side means depends on the threshold of the
analysis: unless it is negative, marked pixels lie on their side of the background, and
so do the extrema of islands (`Directed`). A negative threshold of the analysis is
accepted like any other, and then the sides mean nothing (`sunkSettings_undirected`).

What is proved:
  1. `disciplined`: the marks of every image are disciplined;
  2. `directed`: with a threshold of the analysis that is not negative they are directed;
  3. `isSided_of_directed`: an island lies on one side, with its extremum;
  4. `surveyBy_sides`: all of that for the results of a survey.
-/

namespace SkySources

open Double IslandMap

variable {rows cols : Nat}

/-- What the marks of an image tell with any thresholds. -/
structure Disciplined (t : Threshold Float) (data : Grid rows cols Float)
    (marks : Grid rows cols Mark) : Prop where
  /-- A pixel is in the analysis if it is beyond the level on a side that counts. -/
  inAnalysis_iff : ∀ p, (marks.get p).inAnalysis = true ↔
    (data.get p - t.mean).isFinite = true ∧ (t.analysisLevel < data.get p - t.mean ∨
      t.negatives = true ∧ data.get p - t.mean < -t.analysisLevel)
  /-- The sign map is zero everywhere else. -/
  sign_iff : ∀ p, (marks.get p).sign.toInt ≠ 0 ↔ (marks.get p).inAnalysis = true
  detected : ∀ p, (marks.get p).detected = true → (marks.get p).inAnalysis = true
  negatives : ∀ p, (marks.get p).sign = .below → t.negatives = true
  finite : ∀ p, (marks.get p).inAnalysis = true → (data.get p).isFinite = true

/-- Marked pixels lie on their side of the background. -/
structure Directed (t : Threshold Float) (data : Grid rows cols Float)
    (marks : Grid rows cols Mark) : Prop where
  above : ∀ p, (marks.get p).sign = .above → t.mean < data.get p
  below : ∀ p, (marks.get p).sign = .below → data.get p < t.mean
  /-- A detected pixel is beyond the level of detection on its own side. -/
  detected : ∀ p, (marks.get p).detected = true →
    (marks.get p).sign = .above ∧ t.detectionLevel < data.get p - t.mean ∨
      (marks.get p).sign = .below ∧ data.get p - t.mean < -t.detectionLevel

/-- An island lies on one side of the background, with the value that stands out most. -/
def Island.IsSided (mean : Float) (i : Island Float) : Prop :=
  i.sign = 1 ∧ mean < i.extremum ∨ i.sign = -1 ∧ i.extremum < mean

variable {t : Threshold Float} {data : Grid rows cols Float}

theorem disciplined (t : Threshold Float) (data : Grid rows cols Float) :
    Disciplined t data (t.marks data) := by
  have hget (p : Pixel rows cols) : (t.marks data).get p = t.mark (data.get p) := Grid.get_map ..
  constructor <;> intro p <;> rw [hget]
  · simp only [Threshold.mark, Mark.inAnalysis, Bool.and_eq_true, decide_eq_true_eq]
    change _ ↔ Scalar.isFinite (data.get p - t.mean) = true ∧ _
    split
    · next h => simp [h]
    · next hb =>
      split
      · next h => simp [h]
      · next ha =>
        simp only [not_true_eq_false, false_iff, ne_eq]
        tauto
  · cases h : (t.mark (data.get p)).sign <;> simp [Mark.inAnalysis, h, Sign.toInt]
  · exact fun h => decide_eq_true (Threshold.sign_of_detected h)
  · exact fun h => (Threshold.sign_eq_below_iff.1 h).1
  · exact fun h => Threshold.isFinite_of_sign_double (of_decide_eq_true h)

theorem directed (hsigma : 0 ≤ place t.sigma) (ha : 0 ≤ place t.analysis)
    (data : Grid rows cols Float) : Directed t data (t.marks data) := by
  have hget (p : Pixel rows cols) : (t.marks data).get p = t.mark (data.get p) := Grid.get_map ..
  constructor <;> intro p <;> rw [hget]
  · exact Threshold.lt_of_sign_above hsigma ha
  · exact Threshold.lt_of_sign_below hsigma ha
  · intro hd
    cases h : (t.mark (data.get p)).sign with
    | above => exact .inl ⟨rfl, Threshold.detected_above h hd⟩
    | below => exact .inr ⟨rfl, Threshold.detected_below hsigma ha h hd⟩
    | background => exact absurd h (Threshold.sign_of_detected hd)

section Islands
variable {c : Connectivity} {marks : Grid rows cols Mark} {background : Float} {barycentre : Bool}
  {m : IslandMap rows cols Float} (h : ofMarks c data marks background barycentre = .ok m)
include h

/-- An island of directed marks lies on one side, with its extremum. -/
theorem isSided_of_directed (hm : Directed t data marks) {i : Island Float}
    (hi : i ∈ m.islands) : i.IsSided t.mean := by
  obtain ⟨p, hp, he⟩ := exists_extremum h hi
  have hsign := (describes h hi).sign_eq p hp
  -- the pixel has a label, so it is marked with a side
  have hside := (((numbered h).labelled p).1 (ne_zero_of_label h hi hp)).1
  rw [sides, Grid.get_map] at hsign hside
  rw [Island.IsSided, he, ← hsign]
  cases hs : (marks.get p).sign with
  | above => exact .inl ⟨rfl, hm.above p hs⟩
  | below => exact .inr ⟨rfl, hm.below p hs⟩
  | background => exact absurd hs hside

end Islands

/-- Sides do not depend on fits. -/
theorem isSided_of_bare {mean : Float} {islands islands' : List (Island Float)}
    (he : islands'.map Island.bare = islands.map Island.bare)
    (h : ∀ i ∈ islands, i.IsSided mean) : ∀ i ∈ islands', i.IsSided mean := by
  intro i hi
  have hi' := List.mem_map_of_mem (f := Island.bare) hi
  rw [he] at hi'
  obtain ⟨j, hj, hb⟩ := List.mem_map.1 hi'
  have hsided : j.bare.IsSided mean := h j hj
  rw [hb] at hsided
  exact hsided

namespace SearchSettings
/-- With settings that are accepted the marks of a survey are disciplined, and unless
the threshold of the analysis is negative, marked pixels and the extrema of islands lie
on their sides of the background. -/
theorem surveyBy_sides (minimiser : Minimiser Float) (s : SearchSettings) (c : Connectivity)
    (data : Grid rows cols Float) (hc : s.Accepted c) :
    ∃ found, Sighting.of (s.planWith c) data = .ok found ∧
      Disciplined ((s.planWith c).threshold found.levels.background) data found.marks ∧
      (s.analysis.isBelow (.whole 0) = false →
        Directed ((s.planWith c).threshold found.levels.background) data found.marks) ∧
      ∀ r, (s.surveyBy minimiser data).2 = .ok r →
        r.background = found.levels.background ∧
        (s.labelMap = true → r.marks = some found.marks) ∧
        (s.analysis.isBelow (.whole 0) = false → ∀ i ∈ r.islands, i.IsSided r.background.mean) := by
  obtain ⟨found, hs⟩ := Sighting.exists_of (s.planWith c) data
  obtain ⟨hlevels, hmarks, hfound, hkept⟩ := Sighting.of_eq_ok_iff.1 hs
  have hdirected (ha : s.analysis.isBelow (.whole 0) = false) :
      Directed ((s.planWith c).threshold found.levels.background) data found.marks := by
    have hanalysis : 0 ≤ place s.analysis.toFloat := Quantity.place_toFloat_nonneg ha
    have hsigma : 0 ≤ place found.levels.background.sigma :=
      hlevels ▸ hc.place_sigma_nonneg data.toList
    rw [hmarks]
    exact directed (t := (s.planWith c).threshold found.levels.background) hsigma hanalysis data
  refine ⟨found, hs, hmarks ▸ disciplined _ data, hdirected, ?_⟩
  intro r hr
  obtain ⟨_, islands, hf, rfl⟩ := (hc.surveyBy_ok_iff hs).1 hr
  refine ⟨rfl, fun hshow => if_pos hshow, fun ha => ?_⟩
  refine isSided_of_bare (Sighting.bare_of_fitted hf) fun i hi => ?_
  rw [hkept, Island.mem_keepLarge] at hi
  exact isSided_of_directed hfound (hdirected ha) hi.1

/-- The usual thresholds are not negative, so the sides of the image are those of its
pixels, and its islands lie on them. -/
theorem surveyBy_sides_speckled : shownSettings.Accepted .edges ∧
    shownSettings.analysis.isBelow (.whole 0) = false ∧
    ∃ found, Sighting.of (shownSettings.planWith .edges) speckled = .ok found ∧
      found.marks = speckles ∧
      Disciplined ((shownSettings.planWith .edges).threshold found.levels.background) speckled
        found.marks ∧
      Directed ((shownSettings.planWith .edges).threshold found.levels.background) speckled
        found.marks ∧
      ∃ r, (shownSettings.surveyBy shownSettings.minimiser speckled).2 = .ok r ∧
        r.islands.map (·.sign) = [1, -1] ∧ ∀ i ∈ r.islands, i.IsSided r.background.mean := by
  obtain ⟨s, i, j, hs, hmarks, hkept, ⟨hi, -⟩, ⟨hj, -⟩, -⟩ := exists_of_speckled
  obtain ⟨found, hfound, hdisciplined, hdirected, hsurvey⟩ :=
    surveyBy_sides shownSettings.minimiser shownSettings .edges speckled shownSettings_accepted
  obtain rfl : s = found := Except.ok.inj (hs.symm.trans hfound)
  have hr : (shownSettings.surveyBy shownSettings.minimiser speckled).2 =
      .ok (s.conclude (shownSettings.planWith .edges) s.kept) :=
    (shownSettings_accepted.surveyBy_unfitted rfl hs).trans (if_pos rfl)
  have ha : shownSettings.analysis.isBelow (.whole 0) = false := by decide +kernel
  refine ⟨shownSettings_accepted, ha, s, hs, hmarks, hdisciplined, hdirected ha, _, hr, ?_,
    (hsurvey _ hr).2.2 ha⟩
  simp [Sighting.conclude, hkept, hi, hj]

/-- Settings with a threshold of the analysis below the background. -/
def sunkSettings : SearchSettings :=
  { analysis := .float (-1.0), negatives := false, clipRounds := .whole 0, labelMap := true }

/-- An image with two steps; its mean is two. -/
def stepped : Grid 1 4 Float := ⟨#v[#v[0.0, 0.0, 3.0, 5.0]]⟩

/-- A negative threshold of the analysis is accepted, and marks the first pixel as above
the background although it lies below. -/
theorem sunkSettings_undirected : sunkSettings.Accepted .edges ∧
    ∃ r, (sunkSettings.surveyBy sunkSettings.minimiser stepped).2 = .ok r ∧
      ∃ marks, r.marks = some marks ∧ (marks.get ⟨0, 0⟩).sign = .above ∧
        stepped.get ⟨0, 0⟩ < r.background.mean := by
  have hc : sunkSettings.Accepted .edges :=
    ⟨by decide +kernel, by decide, by decide, rfl, rfl, by decide, by decide, by decide⟩
  obtain ⟨r, hr⟩ := @Survey.exists_run _ _ _ _ (sunkSettings.planWith .edges) rfl
    sunkSettings.minimiser stepped
  have h := surveyBy_eq_ok_iff.2 ⟨_, hc, by decide +kernel, hr⟩
  obtain ⟨found, islands, hs, _, rfl⟩ := Survey.run_eq_ok_iff.1 hr
  refine ⟨hc, _, h, found.marks, rfl, ?_⟩
  rw [marks_get hs]
  show ((((sunkSettings.planWith .edges).threshold found.levels.background).mark 0.0).sign =
    .above ∧ (0.0 : Float) < found.levels.background.mean)
  rw [(Sighting.of_eq_ok_iff.1 hs).1]
  decide +kernel

end SearchSettings
end SkySources
