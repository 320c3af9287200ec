import Mathlib
import SkySources.Background

/-!
# The deviation of a background

However the rounds of clipping end, the deviation of an estimate is a square root,
or zero, or missing. So what holds of these holds of every deviation
(`sigma_report`), on any number line.
-/

namespace SkySources.Background
variable {α : Type} [Scalar α] {P : α → Prop} (hzero : P 0.0)
  (hroot : ∀ x : α, P (Scalar.sqrt x))
include hzero hroot

theorem deviation_of_root (total : List α → α) (xs : List α) : P (Moments.deviation total xs) := by
  unfold Moments.deviation
  split
  · exact hzero
  · exact hroot _

theorem sigma_clip {c : Clipping α} (budget : Nat) {s : Sample α} (h : P s.sigma) :
    P (clip c budget s).sample.sigma := by
  induction budget generalizing s with
  | zero => exact h
  | succ budget ih =>
    have hnext : P (Sample.of c (s.within (c.numSigma * s.sigma))).sigma :=
      deviation_of_root hzero hroot _ _
    simp only [clip]
    split
    · exact h
    · split
      · exact h
      · exact ih hnext

/-- What holds of zero, of a missing number and of every root holds of the deviation
of every estimate. -/
theorem sigma_report (hmissing : P Scalar.missing) (c : Clipping α) (data : List α) :
    P (report c data).background.sigma := by
  have hsample : P (Sample.of c (finite data)).sigma := deviation_of_root hzero hroot _ _
  simp only [report]
  split
  · exact hmissing
  · split
    · exact hmissing
    · split
      · exact hsample
      · have hclip := sigma_clip hzero hroot (c := c) c.rounds hsample
        rw [Report.ofClipped, ofClipped]
        split <;> exact hclip

end SkySources.Background
