import SkySources.Proofs.Double.Arithmetic
import SkySources.Proofs.Double.Difference
import SkySources.Proofs.Threshold

/-!
# Levels in order

A threshold counts in deviations of the background, so its level is a product of
doubles. A larger threshold has a larger level, and a value that is further from the
background than the larger level is further than the smaller one as well. That has
exceptions where a level is missing, so the marks are looked at as a whole.

What is proved:
  1. `lt_of_level_lt`, `lt_neg_of_lt_neg_level`: what lies beyond the larger level lies
     beyond the smaller one;
  2. `detected_of_detection_le`: with a lower threshold of detection all is detected
     that was detected before;
  3. `sign_of_analysis_le`, `detected_of_analysis_le`: with a lower threshold of the
     analysis values keep their sides, and the same ones are detected;
  4. `lt_of_sign_above`, `lt_of_sign_below`: with levels that are not negative a mark
     tells on which side of the background the value lies;
  5. `detected_above`, `detected_below`: and a detected value is further away than the
     level of detection on its own side.
-/

namespace SkySources.Threshold
open Double

section Level
variable {d d' sigma x : Float}

/-- What lies above the larger level lies above the smaller one. -/
theorem lt_of_level_lt (h : place d ≤ place d') (hsigma : 0 ≤ place sigma)
    (hlow : -top < place d ∨ place sigma ≠ 0) (hx : x.isFinite = true) (hlt : d' * sigma < x) :
    d * sigma < x := by
  have hfin := isFinite_iff.1 hx
  rw [lt_iff] at hlt ⊢
  have hle := place_mul_le h hsigma hlow (by omega)
  omega

/-- What lies below the larger level on the other side lies below the smaller one. -/
theorem lt_neg_of_lt_neg_level (h : place d ≤ place d') (hsigma : 0 ≤ place sigma)
    (hlow : -top < place d ∨ place sigma ≠ 0) (hx : x.isFinite = true) (hlt : x < -(d' * sigma)) :
    x < -(d * sigma) := by
  have hfin := isFinite_iff.1 hx
  rw [lt_iff, place_neg] at hlt ⊢
  split at hlt
  · have hle := place_mul_le h hsigma hlow (by omega)
    rw [if_pos (by omega)]
    have := neg_top_le_place (d * sigma)
    omega
  · omega

theorem place_mul_missing (h : top < place x) (sigma : Float) : top < place (x * sigma) := by
  have hn : x.toModel.unpack = .notANumber := by
    by_contra hn
    exact absurd ((rank_le_top (canonical_toModel x)).2 hn) (not_le.2 h)
  rw [place_mul, hn, rankMul_notANumber_left]
  exact Int.lt_succ top

end Level

variable {t : Threshold Float} {d a value : Float}

/-- With a lower threshold of detection all is detected that was detected before. -/
theorem detected_of_detection_le (hsigma : 0 ≤ place t.sigma)
    (hanalysis : place t.analysis ≤ top → place t.analysis ≤ place t.detection)
    (h : place t.detection ≤ place d)
    (hd : (({ t with detection := d } : Threshold Float).mark value).detected = true) :
    (t.mark value).detected = true := by
  have hd : Scalar.isFinite (value - t.mean) = true ∧
      ((t.analysisLevel < value - t.mean ∧ d * t.sigma < value - t.mean) ∨
        t.negatives = true ∧ value - t.mean < -t.analysisLevel ∧
          value - t.mean < -(d * t.sigma)) := detected_iff.1 hd
  obtain ⟨hfin, hside⟩ := hd
  -- where the lower level would be missing, that of the analysis is missing too
  have hlow (hnum : place t.analysisLevel ≤ top) :
      -top < place t.detection ∨ place t.sigma ≠ 0 := by
    by_contra hlow
    rw [not_or, not_not] at hlow
    have hbound := neg_top_le_place t.analysis
    have hmissing : top < place t.analysisLevel := by
      rcases lt_or_ge top (place t.analysis) with hn | hn
      · exact place_mul_missing hn _
      · have := hanalysis hn
        exact place_mul_zero (by omega) hlow.2
    omega
  refine detected_iff.2 ⟨hfin, ?_⟩
  rcases hside with ⟨ha, hd⟩ | ⟨hn, ha, hd⟩
  · have hnum := lt_iff.1 ha
    exact .inl ⟨ha, lt_of_level_lt h hsigma (hlow (by omega)) hfin hd⟩
  · have hnum := lt_iff.1 ha
    rw [place_neg] at hnum
    have hnum : place t.analysisLevel ≤ top := by
      by_contra hn
      rw [if_neg hn] at hnum
      omega
    exact .inr ⟨hn, ha, lt_neg_of_lt_neg_level h hsigma (hlow hnum) hfin hd⟩

section Analysis

/-- The thresholds with another one of the analysis. -/
def withAnalysis (a : Float) (t : Threshold Float) : Threshold Float := { t with analysis := a }

variable (hsigma : 0 ≤ place t.sigma) (ha : 0 ≤ place a) (hle : place a ≤ place t.analysis)
include hsigma ha hle

/-- A value off the background keeps its side with a lower threshold of the analysis. -/
theorem sign_of_analysis_le (h : (t.mark value).sign ≠ .background) :
    ((t.withAnalysis a).mark value).sign = (t.mark value).sign := by
  have htop := top_pos
  have hlow : -top < place a ∨ place t.sigma ≠ 0 := .inl (by omega)
  cases hs : (t.mark value).sign with
  | background => exact absurd hs h
  | below =>
    obtain ⟨hn, hfin, hlt⟩ := sign_eq_below_iff.1 hs
    exact sign_eq_below_iff.2 ⟨hn, hfin, lt_neg_of_lt_neg_level hle hsigma hlow hfin hlt⟩
  | above =>
    obtain ⟨hnot, hfin, hlt⟩ := sign_eq_above_iff.1 hs
    have hlt' := lt_of_level_lt hle hsigma hlow hfin hlt
    refine sign_eq_above_iff.2 ⟨?_, hfin, hlt'⟩
    -- no value lies on both sides
    intro hb
    have hdev : value - t.mean < -(a * t.sigma) := (sign_eq_below_iff.1 hb).2.2
    rw [lt_iff, place_neg] at hdev
    have habove := lt_iff.1 hlt'
    have hlevel := place_mul_nonneg ha hsigma
    split at hdev <;> omega

/-- The same values are detected with a lower threshold of the analysis. -/
theorem detected_of_analysis_le (hd : place t.analysis ≤ place t.detection) :
    ((t.withAnalysis a).mark value).detected =
      (t.mark value).detected := by
  have htop := top_pos
  have hlow : -top < place a ∨ place t.sigma ≠ 0 := .inl (by omega)
  have hlow' : -top < place t.analysis ∨ place t.sigma ≠ 0 := .inl (by omega)
  rw [Bool.eq_iff_iff]
  constructor
  · intro h
    have h : Scalar.isFinite (value - t.mean) = true ∧
        ((a * t.sigma < value - t.mean ∧ t.detectionLevel < value - t.mean) ∨
          t.negatives = true ∧ value - t.mean < -(a * t.sigma) ∧
            value - t.mean < -t.detectionLevel) := detected_iff.1 h
    obtain ⟨hfin, hside⟩ := h
    refine detected_iff.2 ⟨hfin, ?_⟩
    rcases hside with ⟨_, hlt⟩ | ⟨hn, _, hlt⟩
    · exact .inl ⟨lt_of_level_lt hd hsigma hlow' hfin hlt, hlt⟩
    · exact .inr ⟨hn, lt_neg_of_lt_neg_level hd hsigma hlow' hfin hlt, hlt⟩
  · intro h
    obtain ⟨hfin, hside⟩ := detected_iff.1 h
    refine detected_iff.2 ⟨hfin, ?_⟩
    rcases hside with ⟨hlt, hdet⟩ | ⟨hn, hlt, hdet⟩
    · exact .inl ⟨lt_of_level_lt hle hsigma hlow hfin hlt, hdet⟩
    · exact .inr ⟨hn, lt_neg_of_lt_neg_level hle hsigma hlow hfin hlt, hdet⟩

end Analysis

/-! ## The side that a mark tells -/

section Side

theorem detected_above (h : (t.mark value).sign = .above) (hd : (t.mark value).detected = true) :
    t.detectionLevel < value - t.mean := by
  obtain ⟨hnot, hfin, _⟩ := sign_eq_above_iff.1 h
  obtain ⟨_, ⟨_, hlt⟩ | ⟨hn, hbelow, _⟩⟩ := detected_iff.1 hd
  · exact hlt
  · exact absurd (sign_eq_below_iff.2 ⟨hn, hfin, hbelow⟩) hnot

variable (hsigma : 0 ≤ place t.sigma) (ha : 0 ≤ place t.analysis)
include hsigma ha

theorem place_analysisLevel : 0 ≤ place t.analysisLevel := place_mul_nonneg ha hsigma

/-- A deviation is not beyond the levels on both sides. -/
theorem not_beyond_both {x : Float} (habove : t.analysisLevel < x) : ¬x < -t.analysisLevel := by
  have hlevel := place_analysisLevel hsigma ha
  rw [lt_iff] at habove
  rw [lt_iff, place_neg, if_pos (by omega)]
  omega

/-- A value marked as above the background lies above it. -/
theorem lt_of_sign_above (h : (t.mark value).sign = .above) : t.mean < value := by
  obtain ⟨_, hfin, hlt⟩ := sign_eq_above_iff.1 h
  have hlevel := place_analysisLevel hsigma ha
  exact lt_of_sub_pos (hlevel.trans_lt (lt_iff.1 hlt).1) hfin

/-- A value marked as below the background lies below it. -/
theorem lt_of_sign_below (h : (t.mark value).sign = .below) : value < t.mean := by
  obtain ⟨_, hfin, hlt⟩ := sign_eq_below_iff.1 h
  have hlevel := place_analysisLevel hsigma ha
  have hfinite := isFinite_iff.1 hfin
  rw [lt_iff, place_neg] at hlt
  split at hlt
  · exact lt_of_sub_neg (by omega) hfin
  · omega

theorem detected_below (h : (t.mark value).sign = .below) (hd : (t.mark value).detected = true) :
    value - t.mean < -t.detectionLevel := by
  obtain ⟨_, _, hbelow⟩ := sign_eq_below_iff.1 h
  obtain ⟨_, ⟨habove, _⟩ | ⟨_, _, hlt⟩⟩ := detected_iff.1 hd
  · exact absurd hbelow (not_beyond_both hsigma ha habove)
  · exact hlt

end Side

end SkySources.Threshold
