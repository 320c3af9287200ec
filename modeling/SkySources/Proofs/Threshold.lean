import Mathlib
import SkySources.Threshold
import SkySources.Proofs.Double

/-!
# What a mark tells

A value off the background has a finite distance from it, and a detected value is
always off the background. The marks of a value are known from its deviation alone
(`sign_eq_below_iff`, `sign_eq_above_iff`, `detected_iff`).
-/

namespace SkySources.Threshold
variable {α : Type} [Scalar α] {t : Threshold α} {value : α}

theorem isFinite_of_sign (h : (t.mark value).sign ≠ .background) :
    Scalar.isFinite (value - t.mean) = true := by
  by_contra hf
  simp [mark, hf] at h

theorem sign_of_detected (h : (t.mark value).detected = true) :
    (t.mark value).sign ≠ .background := by
  simp only [mark, Bool.or_eq_true, Bool.and_eq_true] at h
  simp only [mark]
  rcases h with ⟨ha, _⟩ | ⟨hb, _⟩
  · rw [if_pos (Bool.and_eq_true_iff.2 ha)]
    split <;> exact Sign.noConfusion
  · rw [if_pos (Bool.and_eq_true_iff.2 ⟨Bool.and_eq_true_iff.2 hb.1, hb.2⟩)]
    exact Sign.noConfusion

theorem sign_eq_below_iff : (t.mark value).sign = .below ↔ t.negatives = true ∧
    Scalar.isFinite (value - t.mean) = true ∧ value - t.mean < -t.analysisLevel := by
  simp only [mark, Bool.and_eq_true, decide_eq_true_eq, and_assoc]
  constructor
  · intro h
    split at h
    · next hb => exact hb
    · split at h <;> cases h
  · intro h
    exact if_pos h

theorem sign_eq_above_iff : (t.mark value).sign = .above ↔ (t.mark value).sign ≠ .below ∧
    Scalar.isFinite (value - t.mean) = true ∧ t.analysisLevel < value - t.mean := by
  rw [ne_eq, sign_eq_below_iff]
  simp only [mark, Bool.and_eq_true, decide_eq_true_eq, and_assoc]
  constructor
  · intro h
    split at h
    · cases h
    · next hb =>
      split at h
      · next ha => exact ⟨hb, ha⟩
      · cases h
  · rintro ⟨hb, ha⟩
    rw [if_neg hb, if_pos ha]

theorem detected_iff : (t.mark value).detected = true ↔
    Scalar.isFinite (value - t.mean) = true ∧
      ((t.analysisLevel < value - t.mean ∧ t.detectionLevel < value - t.mean) ∨
        t.negatives = true ∧ value - t.mean < -t.analysisLevel ∧
          value - t.mean < -t.detectionLevel) := by
  simp only [mark, Bool.or_eq_true, Bool.and_eq_true, decide_eq_true_eq]
  tauto

/-- A double that is not finite is never off the background. -/
theorem isFinite_of_sign_double {t : Threshold Float} {value : Float}
    (h : (t.mark value).sign ≠ .background) : value.isFinite = true :=
  Double.isFinite_of_isFinite_sub (isFinite_of_sign h)

end SkySources.Threshold
