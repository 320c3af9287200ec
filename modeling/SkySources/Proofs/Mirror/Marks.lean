import Mathlib
import SkySources.Threshold
import SkySources.Proofs.Component.Labels
import SkySources.Proofs.Exact

/-!
# Marks and labels of a negated image

A negated value lies as far on the other side of the negated background. If no
value is marked on both sides, which would take a negative threshold, its mark is
the mirrored one (`mark_mirror`). Components do not ask on which side they lie,
so the labels are the same (`label_mirror`).
-/

namespace SkySources

open Exact

/-! ## Marks -/

namespace Sign

/-- The other side. -/
def mirror : Sign → Sign
  | below => above
  | background => background
  | above => below

@[simp] theorem mirror_mirror (s : Sign) : s.mirror.mirror = s := by cases s <;> rfl

@[simp] theorem mirror_inj {s t : Sign} : s.mirror = t.mirror ↔ s = t := by
  cases s <;> cases t <;> decide

@[simp] theorem mirror_eq_background {s : Sign} : s.mirror = .background ↔ s = .background := by
  cases s <;> decide

@[simp] theorem toInt_mirror (s : Sign) : s.mirror.toInt = -s.toInt := by cases s <;> rfl

end Sign

namespace Mark

/-- The mark on the other side. -/
def mirror (m : Mark) : Mark := { m with sign := m.sign.mirror }

@[simp] theorem mirror_sign (m : Mark) : m.mirror.sign = m.sign.mirror := rfl
@[simp] theorem mirror_detected (m : Mark) : m.mirror.detected = m.detected := rfl

end Mark

namespace Threshold

/-- The thresholds above a negated background. -/
noncomputable def mirror (t : Threshold Exact) : Threshold Exact := { t with mean := -t.mean }

variable {t : Threshold Exact} {rows cols : Nat}

/-- A level that no number lies above and below of at once. -/
theorem not_both {level d : Exact} (h : IsNoise level) : ¬(level < d ∧ d < -level) := by
  rintro ⟨ha, hb⟩
  rcases h with h | rfl
  · exact not_lt_neg_of_nonneg h (lt_trans_eq ha hb)
  · cases d <;> exact ha

/-- The mark of a negated value is on the other side. -/
theorem mark_mirror (hneg : t.negatives = true) (hlevel : IsNoise t.analysisLevel) (value : Exact) :
    t.mirror.mark (-value) = (t.mark value).mirror := by
  have hd : -value - t.mirror.mean = -(value - t.mean) := sub_neg_eq_neg value t.mean
  have hn : t.mirror.negatives = true := hneg
  have ha : t.mirror.analysisLevel = t.analysisLevel := rfl
  have hdl : t.mirror.detectionLevel = t.detectionLevel := rfl
  have hboth : (decide (t.analysisLevel < value - t.mean) &&
      decide (value - t.mean < -t.analysisLevel)) = false := by
    rw [← Bool.not_eq_true, Bool.and_eq_true, decide_eq_true_iff, decide_eq_true_iff]
    exact not_both hlevel
  have habove (level : Exact) : decide (level < -(value - t.mean)) =
      decide (value - t.mean < -level) := decide_eq_decide.2 (lt_neg_iff _ _)
  have hbelow (level : Exact) : decide (-(value - t.mean) < -level) =
      decide (level < value - t.mean) := decide_eq_decide.2 (neg_lt_neg_eq _ _)
  simp only [mark, hd, hn, hneg, ha, hdl, isFinite_neg, Bool.true_and, habove, hbelow, Mark.mirror]
  generalize decide (t.analysisLevel < value - t.mean) = above at hboth ⊢
  generalize decide (value - t.mean < -t.analysisLevel) = below at hboth ⊢
  -- what is above has become below, and nothing is both
  cases Scalar.isFinite (value - t.mean) with
  | false => rfl
  | true =>
    cases above with
    | false => cases below <;> simp [Sign.mirror]
    | true =>
      cases below with
      | false => simp [Sign.mirror]
      | true => cases hboth

theorem marks_mirror (hneg : t.negatives = true) (hlevel : IsNoise t.analysisLevel)
    (data : Grid rows cols Exact) :
    t.mirror.marks (data.map Neg.neg) = (t.marks data).map Mark.mirror := by
  apply Grid.ext_get
  intro p
  simp only [marks, Grid.get_map]
  exact mark_mirror hneg hlevel _

end Threshold

/-! ## Labels -/

namespace Component
variable {rows cols : Nat} {c : Connectivity} {signs : Grid rows cols Sign}
  {detected : Grid rows cols Bool} {l : Labelling rows cols} {p q : Pixel rows cols}

theorem Joined.mirror (h : Joined c signs p q) : Joined c (signs.map Sign.mirror) p q := by
  induction h with
  | refl hp => exact .refl p (by simpa using hp)
  | step q r hq hr hs ih => exact .step p q r ih hr (by simpa using hs)

theorem joined_mirror : Joined c (signs.map Sign.mirror) p q ↔ Joined c signs p q := by
  have htwice : (signs.map Sign.mirror).map Sign.mirror = signs :=
    Grid.ext_get fun p => by simp
  constructor
  · intro h
    have := h.mirror
    rwa [htwice] at this
  · exact Joined.mirror

theorem isFirst_mirror : IsFirst c (signs.map Sign.mirror) p ↔ IsFirst c signs p := by
  simp only [IsFirst, joined_mirror, Grid.get_map, ne_eq, Sign.mirror_eq_background]

theorem Numbered.mirror (h : Numbered c signs detected l) :
    Numbered c (signs.map Sign.mirror) detected l := by
  constructor
  · intro p
    rw [h.labelled p]
    simp only [joined_mirror, Grid.get_map, ne_eq, Sign.mirror_eq_background]
  · intro p q hp hq
    rw [h.shared p q hp hq, joined_mirror]
  · exact h.used
  · intro p q hp hq
    exact h.ordered p q (isFirst_mirror.1 hp) (isFirst_mirror.1 hq)

/-- The components of mirrored marks have the same labels. -/
theorem label_mirror (c : Connectivity) (signs : Grid rows cols Sign) (detected : Grid rows cols Bool) :
    label c (signs.map Sign.mirror) detected = label c signs detected :=
  (label_numbered c _ detected).eq (label_numbered c signs detected).mirror

end Component
end SkySources
