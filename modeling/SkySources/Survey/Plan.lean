import SkySources.Background
import SkySources.Component
import SkySources.Residuals
import SkySources.Threshold

/-!
# Plans

A plan says how an image is surveyed: how the background is estimated, what
stands out from it, which islands are kept, and whether Gaussians are fitted to
them.
-/

namespace SkySources

/-- How an image is surveyed. -/
structure Plan (α : Type) where
  /-- The threshold of detection, in deviations of the background. -/
  detection : α
  /-- The threshold of the analysis, in deviations of the background. -/
  analysis : α
  /-- The deviation of the background, if it is not to be estimated. -/
  rms : Option α
  /-- Whether islands below the background count as well. -/
  negatives : Bool
  /-- How the background is clipped. -/
  clipping : Background.Clipping α
  /-- Whether barycentres are found. -/
  barycentre : Bool
  /-- Whether Gaussians are fitted. -/
  fitting : Bool
  connectivity : Connectivity
  /-- Whether the label map and the marks are shown in the end. -/
  shows : Bool
  /-- The fewest pixels of an island that is kept. -/
  minArea : Int
  differencing : Differencing
  /-- By how many pixels the box of an island is grown for its fit. -/
  margin : Int
  /-- How many fits are made at the same time, if that is set. -/
  workers : Option Int
  /-- Whether every stage reports. -/
  debug : Bool

namespace Plan
variable {α : Type}

/-- The background to work with: a deviation that is given takes the place of
the estimate, and can be relied on. -/
def background (plan : Plan α) (estimate : Background α) : Background α :=
  match plan.rms with
  | some sigma => { estimate with sigma := sigma, reliable := true }
  | none => estimate

/-- The thresholds above a background. -/
def threshold (plan : Plan α) (b : Background α) : Threshold α :=
  { mean := b.mean, sigma := b.sigma, detection := plan.detection, analysis := plan.analysis
    negatives := plan.negatives }

end Plan
end SkySources
