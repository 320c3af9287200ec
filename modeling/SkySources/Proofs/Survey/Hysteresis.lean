import SkySources.Proofs.Island.Renumbered
import SkySources.Proofs.Level
import SkySources.Proofs.Noise
import SkySources.Proofs.Quantity
import SkySources.Proofs.Survey.Accepted

/-!
# A higher threshold of detection

The threshold of detection decides which islands are found, and nothing about what an
island is: that is left to the threshold of the analysis. So a survey with a higher
threshold of detection loses the islands without a detected pixel, and the others
only get new numbers.

What is proved:
  1. `place_sigma_nonneg`: the deviation that thresholds count in is not negative;
  2. `detected_withDetection`: so what is detected with the higher threshold is
     detected with the lower one;
  3. `kept_withDetection`: the islands that are kept are those that hold a detected
     pixel, in the same order;
  4. `surveyBy_withDetection`: and these are the islands of the two surveys.
-/

namespace SkySources

open Double IslandMap

namespace Sighting
variable {α : Type} [Scalar α] {rows cols : Nat} {plan : Plan α} {data : Grid rows cols α}
  {s : Sighting rows cols α} {i : Island α}

/-- The label map that is shown has all pixels of an island that is kept. -/
theorem pixels_keptLabels (hs : of plan data = .ok s) (hi : i ∈ s.kept) :
    pixels s.keptLabels i = pixels s.found.labels i := by
  unfold pixels Grid.pixelsWhere
  congr 1
  funext p
  exact decide_eq_decide.2 (keptLabels_eq_iff hs hi p)

theorem map_unnumbered_kept (hs : of plan data = .ok s) {islands : List (Island α)}
    (h : ∀ i ∈ islands, i ∈ s.kept) :
    islands.map (unnumbered s.keptLabels) = islands.map (unnumbered s.found.labels) := by
  apply List.map_congr_left
  intro i hi
  rw [unnumbered, unnumbered, pixels_keptLabels hs (h i hi)]

/-- Islands that hold a detected pixel, by the label map that is shown. -/
theorem filter_isHit_kept (hs : of plan data = .ok s) (detected : Grid rows cols Bool) :
    s.kept.filter (isHit s.keptLabels detected) =
      s.kept.filter (isHit s.found.labels detected) := by
  apply List.filter_congr
  intro i hi
  rw [isHit, isHit, pixels_keptLabels hs hi]

end Sighting

namespace SearchSettings
variable {s : SearchSettings} {d : Quantity} {c : Connectivity} {rows cols : Nat}
  {data : Grid rows cols Float}

/-- The settings with another threshold of detection. -/
def withDetection (d : Quantity) (s : SearchSettings) : SearchSettings := { s with detection := d }

theorem place_missing : place Scalar.missing = top + 1 := by decide +kernel

/-- The deviation that thresholds count in is not negative. -/
theorem Accepted.place_sigma_nonneg (h : s.Accepted c) (values : List Float) :
    0 ≤ place (Levels.of (s.planWith c) values).background.sigma := by
  have htop := top_pos
  simp only [Levels.of, Plan.background, planWith]
  cases hr : s.rms with
  | none =>
    apply Background.sigma_report (P := fun x => 0 ≤ place x)
    · exact place_zero.ge
    · exact place_sqrt_nonneg
    · rw [place_missing]
      omega
  | some q =>
    have hpos := h.rms
    rw [hasBadRms, hr] at hpos
    exact Quantity.place_toFloat_nonneg (Quantity.isBelow_asymm (Bool.not_eq_eq_eq_not.1 hpos))

section Sighted
variable {found found' : Sighting rows cols Float} (hc : s.Accepted c)
  (hd : s.detection.AtMost d) (hs : Sighting.of (s.planWith c) data = .ok found)
  (hs' : Sighting.of ((s.withDetection d).planWith c) data = .ok found')
include hs hs'

theorem levels_withDetection : found'.levels = found.levels := by
  rw [(Sighting.of_eq_ok_iff.1 hs).1, (Sighting.of_eq_ok_iff.1 hs').1]
  rfl

theorem sides_withDetection : sides found'.marks = sides found.marks := by
  rw [(Sighting.of_eq_ok_iff.1 hs).2.1, (Sighting.of_eq_ok_iff.1 hs').2.1,
    levels_withDetection hs hs']
  apply Grid.ext_get
  intro p
  simp only [sides, Threshold.marks, Grid.get_map]
  rfl

include hc hd in
/-- What is detected with the higher threshold is detected with the lower one. -/
theorem detected_withDetection (p : Pixel rows cols) (h : (hits found'.marks).get p = true) :
    (hits found.marks).get p = true := by
  rw [(Sighting.of_eq_ok_iff.1 hs').2.1, levels_withDetection hs hs'] at h
  rw [(Sighting.of_eq_ok_iff.1 hs).2.1]
  simp only [hits, Threshold.marks, Grid.get_map] at h ⊢
  refine Threshold.detected_of_detection_le ?_ ?_ hd.place_le h
  · show 0 ≤ place found.levels.background.sigma
    rw [(Sighting.of_eq_ok_iff.1 hs).1]
    exact hc.place_sigma_nonneg _
  · exact Quantity.place_toFloat_le hc.thresholds

include hc hd in
/-- The islands that are kept are those that hold a detected pixel. -/
theorem kept_withDetection :
    found'.kept.map (unnumbered found'.keptLabels) =
      (found.kept.filter (isHit found.keptLabels (hits found'.marks))).map
        (unnumbered found.keptLabels) := by
  obtain ⟨_, _, hfound, hkept⟩ := Sighting.of_eq_ok_iff.1 hs
  obtain ⟨_, _, hfound', hkept'⟩ := Sighting.of_eq_ok_iff.1 hs'
  rw [levels_withDetection hs hs'] at hfound'
  have hall := map_unnumbered_eq hfound hfound' (sides_withDetection hs hs')
    (detected_withDetection hc hd hs hs')
  rw [Sighting.map_unnumbered_kept hs' (fun i hi => hi), Sighting.filter_isHit_kept hs,
    Sighting.map_unnumbered_kept hs (fun i hi => List.mem_of_mem_filter hi), hkept, hkept']
  -- the number of pixels is not lost with the number of an island
  let large (v : List (Pixel rows cols) × Island Float) : Bool :=
    decide (s.minArea.toInt ≤ v.2.npix)
  calc (Island.keepLarge s.minArea.toInt found'.found.islands).map (unnumbered found'.found.labels)
      = (found'.found.islands.map (unnumbered found'.found.labels)).filter large := by
        rw [List.filter_map]
        rfl
    _ = ((found.found.islands.filter (isHit found.found.labels (hits found'.marks))).map
          (unnumbered found.found.labels)).filter large := by rw [hall]
    _ = (Island.keepLarge s.minArea.toInt
          (found.found.islands.filter (isHit found.found.labels (hits found'.marks)))).map
            (unnumbered found.found.labels) := List.filter_map
    _ = _ := by
        rw [Island.keepLarge, List.filter_comm]
        rfl

end Sighted

/-- Of two surveys without fits, whose settings differ in the threshold of detection
only, the one with the higher threshold finds the islands of the other that hold a pixel
which it detects itself, in the same order, and up to their numbers they are the same.
Both come to an end, unless a number is too large for a double. -/
theorem surveyBy_withDetection (minimiser : Minimiser Float) (s : SearchSettings) (d : Quantity)
    (c : Connectivity) (data : Grid rows cols Float) (hc : s.Accepted c)
    (hc' : (s.withDetection d).Accepted c) (hfit : s.fitting = false)
    (hd : s.detection.AtMost d) :
    (∀ r r', (s.surveyBy minimiser data).2 = .ok r →
      ((s.withDetection d).surveyBy minimiser data).2 = .ok r' →
      ∃ found found', Sighting.of (s.planWith c) data = .ok found ∧
        Sighting.of ((s.withDetection d).planWith c) data = .ok found' ∧
        r = found.conclude (s.planWith c) found.kept ∧
        r' = found'.conclude ((s.withDetection d).planWith c) found'.kept ∧
        r'.islands.map (unnumbered found'.keptLabels) =
          (r.islands.filter (isHit found.keptLabels (hits found'.marks))).map
            (unnumbered found.keptLabels)) ∧
    ((s.eventsUntilTooLarge? (s.planWith c) data.toList = none →
        ∃ r, (s.surveyBy minimiser data).2 = .ok r) ∧
      ((s.withDetection d).eventsUntilTooLarge? ((s.withDetection d).planWith c) data.toList =
          none →
        ∃ r', ((s.withDetection d).surveyBy minimiser data).2 = .ok r')) := by
  obtain ⟨found, hs⟩ := Sighting.exists_of (s.planWith c) data
  obtain ⟨found', hs'⟩ := Sighting.exists_of ((s.withDetection d).planWith c) data
  have hfit' : (s.withDetection d).fitting = false := hfit
  rw [hc.surveyBy_unfitted hfit hs, hc'.surveyBy_unfitted hfit' hs']
  refine ⟨?_, ?_, ?_⟩
  · intro r r' hr hr'
    split at hr
    · split at hr'
      · cases hr
        cases hr'
        exact ⟨found, found', hs, hs', rfl, rfl, kept_withDetection hc hd hs hs'⟩
      · cases hr'
    · cases hr
  · intro he
    exact ⟨_, if_pos he⟩
  · intro he
    exact ⟨_, if_pos he⟩

/-- Settings with low thresholds. -/
def lowSettings : SearchSettings := { detection := .float 0.75, analysis := .float 0.5 }

theorem lowSettings_accepted : lowSettings.Accepted .edges :=
  ⟨by decide +kernel, by decide, by decide, rfl, rfl, by decide, by decide, by decide⟩

/-- With a threshold of one only the brightest pixel is detected; its neighbour is in
the analysis, and everything else is lost. -/
def paired : Grid 2 3 Float := ⟨#v[#v[0.0, 90.0, 79.0], #v[75.0, 0.0, 0.0]]⟩

/-- Both surveys of the image come to an end. -/
theorem surveyBy_withDetection_paired : lowSettings.Accepted .edges ∧
    (lowSettings.withDetection (.whole 1)).Accepted .edges ∧ lowSettings.fitting = false ∧
    lowSettings.detection.AtMost (.whole 1) ∧
    ∃ r r' found found', (lowSettings.surveyBy lowSettings.minimiser paired).2 = .ok r ∧
      ((lowSettings.withDetection (.whole 1)).surveyBy lowSettings.minimiser paired).2 = .ok r' ∧
      Sighting.of (lowSettings.planWith .edges) paired = .ok found ∧
      Sighting.of ((lowSettings.withDetection (.whole 1)).planWith .edges) paired = .ok found' ∧
      r'.islands.map (unnumbered found'.keptLabels) =
        (r.islands.filter (isHit found.keptLabels (hits found'.marks))).map
          (unnumbered found.keptLabels) := by
  have hc' : (lowSettings.withDetection (.whole 1)).Accepted .edges :=
    ⟨by decide +kernel, by decide, by decide, rfl, rfl, by decide, by decide, by decide⟩
  have hd : lowSettings.detection.AtMost (.whole 1) := ⟨by decide +kernel, by decide +kernel⟩
  have h := surveyBy_withDetection lowSettings.minimiser lowSettings (.whole 1) .edges paired
    lowSettings_accepted hc' rfl hd
  obtain ⟨r, hr⟩ := h.2.1 (by decide +kernel)
  obtain ⟨r', hr'⟩ := h.2.2 (by decide +kernel)
  obtain ⟨found, found', hs, hs', _, _, hislands⟩ := h.1 r r' hr hr'
  exact ⟨lowSettings_accepted, hc', rfl, hd, r, r', found, found', hr, hr', hs, hs', hislands⟩

end SearchSettings
end SkySources
