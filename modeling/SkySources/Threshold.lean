import SkySources.Grid
import SkySources.Scalar

/-!
# Thresholds

A value is marked as above or below the background if it is further away than
the analysis threshold, and as detected if it is further away than the
detection threshold as well; both count in standard deviations. A value whose
distance from the background is not finite is never marked.
-/

namespace SkySources

/-- On which side of the background a value lies. -/
inductive Sign where
  | below
  | background
  | above
  deriving DecidableEq, Repr

namespace Sign

/-- The side as a number. -/
def toInt : Sign → Int
  | below => -1
  | background => 0
  | above => 1

/-- The side of a number. -/
def ofInt (n : Int) : Sign := if n < 0 then below else if 0 < n then above else background

theorem ofInt_toInt (s : Sign) : ofInt s.toInt = s := by cases s <;> rfl

end Sign

/-- The mark of a value: its side, and whether it is detected. -/
structure Mark where
  sign : Sign
  detected : Bool
  deriving DecidableEq, Repr

namespace Mark

/-- Whether the value takes part in the analysis. -/
def inAnalysis (m : Mark) : Bool := decide (m.sign ≠ .background)

end Mark

/-- Level and noise of the background, and the thresholds counted in noise. -/
structure Threshold (α : Type) where
  mean : α
  sigma : α
  /-- The threshold of detection. -/
  detection : α
  /-- The threshold of the analysis. -/
  analysis : α
  /-- Whether values below the background are marked too. -/
  negatives : Bool

namespace Threshold
variable {α : Type} [Scalar α]

/-- The distance of the analysis threshold. -/
def analysisLevel (t : Threshold α) : α := t.analysis * t.sigma

/-- The distance of the detection threshold. -/
def detectionLevel (t : Threshold α) : α := t.detection * t.sigma

/-- The mark of a value. A value that is marked on both sides, which takes a
negative threshold, counts as below. -/
def mark (t : Threshold α) (value : α) : Mark :=
  let deviation := value - t.mean
  let finite := Scalar.isFinite deviation
  let isAbove := finite && decide (t.analysisLevel < deviation)
  let isBelow := t.negatives && finite && decide (deviation < -t.analysisLevel)
  { sign := if isBelow then .below else if isAbove then .above else .background
    detected := isAbove && decide (t.detectionLevel < deviation)
      || isBelow && decide (deviation < -t.detectionLevel) }

/-- The marks of a grid of values. -/
def marks {rows cols : Nat} (t : Threshold α) (g : Grid rows cols α) : Grid rows cols Mark :=
  g.map t.mark

end Threshold
end SkySources
