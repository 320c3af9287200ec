import SkySources.Event
import SkySources.Gaussian.Fault
import SkySources.Labelling
import SkySources.Survey.Plan

/-!
# Surveys

A survey of an image goes through its stages in order: the background is
estimated, pixels are marked, marked pixels become islands, small islands are
dropped, and Gaussians are fitted to the others. A fit leaves out the pixels of
all other islands, the dropped ones too; only the label map that is shown in the
end does without them.

What every stage reports is a function of what it found, so the reports never
change the outcome.
-/

namespace SkySources

/-- The background of an image, with the report of its estimate. -/
structure Levels (α : Type) where
  report : Background.Report α
  background : Background α

/-- What is found in an image before any fit. -/
structure Sighting (rows cols : Nat) (α : Type) where
  levels : Levels α
  marks : Grid rows cols Mark
  /-- Every island, and the label of each pixel. -/
  found : IslandMap rows cols α
  /-- The islands that are large enough. -/
  kept : List (Island α)

/-- What a survey finds. -/
structure Survey (rows cols : Nat) (α : Type) where
  background : Background α
  /-- The islands that are kept, in the order of their labels, with their fits. -/
  islands : List (Island α)
  /-- The label of each pixel, if it is shown. -/
  labels : Option (Grid rows cols Nat)
  /-- The mark of each pixel, if it is shown. -/
  marks : Option (Grid rows cols Mark)

/-- Why a survey comes to no end. -/
inductive SurveyFault where
  /-- Fits are to be made by nobody. -/
  | noWorkers
  /-- The bounds of an island are inverted. -/
  | inverted (box : InvertedBox)
  /-- The fit of an island cannot be tried. -/
  | fit (f : FitFault)
  deriving DecidableEq, Repr

/-- An island with the outcome of its fit. -/
abbrev Attempt (α : Type) := Island α × Except (FitFailure α) (GaussianFit α)

namespace Attempt
variable {α : Type}

/-- The island with its fit, or with the note that it has none. -/
def island (a : Attempt α) : Island α := a.1.withFit a.2.toOption

/-- What is reported of a fit. -/
def events (a : Attempt α) : List (Event α) :=
  match a.2 with
  | .ok _ => []
  | .error failure => [.fitFailed a.1.label failure]

/-- Whether there is a fit. -/
def isFitted (a : Attempt α) : Bool := a.2.toOption.isSome

end Attempt

namespace Levels
variable {α : Type}

/-- The levels of some data. -/
def of [Scalar α] (plan : Plan α) (data : List α) : Levels α :=
  let report := Background.report plan.clipping data
  ⟨report, plan.background report.background⟩

/-- What is reported of a background that cannot be relied on. -/
def warnings (b : Background α) : List (Event α) :=
  if b.reliable then [] else [.unreliableBackground b.sigma b.count]

/-- What is reported of the estimate. -/
def estimateEvents (l : Levels α) : List (Event α) :=
  (l.report.collapse.map Event.clippingCollapsed).toList

/-- What is reported of the background. -/
def events (plan : Plan α) (l : Levels α) : List (Event α) :=
  l.estimateEvents ++ warnings l.background
    ++ if plan.debug then
        [.background l.background.mean l.background.sigma l.background.rounds]
      else []

end Levels

namespace Sighting
variable {α : Type} {rows cols : Nat}

/-- What is found in an image. -/
def of [Scalar α] (plan : Plan α) (data : Grid rows cols α) :
    Except InvertedBox (Sighting rows cols α) := do
  let levels := Levels.of plan data.toList
  let marks := (plan.threshold levels.background).marks data
  let found ←
    IslandMap.ofMarks plan.connectivity data marks levels.background.mean plan.barycentre
  return ⟨levels, marks, found, Island.keepLarge plan.minArea found.islands⟩

/-- How many islands are dropped. -/
def dropped (s : Sighting rows cols α) : Nat := s.found.islands.length - s.kept.length

/-- What is reported of the marks. -/
def markEvents (plan : Plan α) (s : Sighting rows cols α) : List (Event α) :=
  if plan.debug then
    [.thresholds s.levels.background.mean (s.marks.count Mark.inAnalysis)
      (s.marks.count (·.detected))]
  else []

/-- What is reported of dropped islands. -/
def dropEvents (plan : Plan α) (s : Sighting rows cols α) : List (Event α) :=
  if plan.debug ∧ s.dropped ≠ 0 then [.islandsDropped s.dropped plan.minArea] else []

/-- What is reported of everything before the fits. -/
def events (plan : Plan α) (s : Sighting rows cols α) : List (Event α) :=
  s.levels.events plan ++ s.markEvents plan ++ .islandsFound s.found.islands.length
    :: s.dropEvents plan

/-- Whether Gaussians are fitted. -/
def isFitted (plan : Plan α) (s : Sighting rows cols α) : Bool := plan.fitting && !s.kept.isEmpty

/-- Whether somebody is there to make the fits. -/
def hasWorkers (plan : Plan α) : Bool :=
  match plan.workers with
  | some n => decide (0 < n)
  | none => true

/-- The attempts to fit every island that is kept, some of which may not be
possible. -/
def attempts [Scalar α] (minimiser : Minimiser α) (plan : Plan α) (data : Grid rows cols α)
    (s : Sighting rows cols α) : List (Except FitFault (Attempt α)) :=
  s.kept.map fun island =>
    (Fit.ofIsland minimiser plan.differencing plan.margin data
      (some (s.found.labels.map Int.ofNat)) s.levels.background.mean island).map fun outcome =>
        (island, outcome)

/-- The labels without those of dropped islands. -/
def keptLabels (s : Sighting rows cols α) : Grid rows cols Nat :=
  if s.dropped = 0 then s.found.labels else IslandMap.onlyLabels s.kept s.found.labels

/-- The survey that ends with some islands. -/
def conclude (plan : Plan α) (s : Sighting rows cols α) (islands : List (Island α)) :
    Survey rows cols α :=
  { background := s.levels.background
    islands := islands
    labels := if plan.shows then some s.keptLabels else none
    marks := if plan.shows then some s.marks else none }

end Sighting

/-- What is reported of the attempts to fit islands one by one. -/
def attemptEvents {α : Type} (attempts : List (Except FitFault (Attempt α))) : List (Event α) :=
  (attempts.filterMap Except.toOption).flatMap Attempt.events

/-- What is reported of all attempts together. -/
def fitEvents {α : Type} (attempts : List (Attempt α)) : List (Event α) :=
  [.islandsFitted (attempts.filter Attempt.isFitted).length attempts.length]

namespace Survey
variable {α : Type} {rows cols : Nat}

/-- The survey of an image, with what was reported on the way. -/
def run [Scalar α] (minimiser : Minimiser α) (plan : Plan α) (data : Grid rows cols α) :
    List (Event α) × Except SurveyFault (Survey rows cols α) :=
  match Sighting.of plan data with
  | .error box => ((Levels.of plan data.toList).events plan, .error (.inverted box))
  | .ok s =>
    if !s.isFitted plan then (s.events plan, .ok (s.conclude plan s.kept))
    else if !Sighting.hasWorkers plan then (s.events plan, .error .noWorkers)
    else
      let tried := s.attempts minimiser plan data
      let events := s.events plan ++ attemptEvents tried
      match tried.mapM id with
      | .error fault => (events, .error (.fit fault))
      | .ok attempts =>
        (events ++ fitEvents attempts, .ok (s.conclude plan (attempts.map Attempt.island)))

/-- The fits of the islands. -/
def fits (s : Survey rows cols α) : List (GaussianFit α) := Island.fits s.islands

/-- A grid with a Gaussian added. -/
def addGaussian [Scalar α] (g : Grid rows cols α) (fit : GaussianFit α) :
    Except Gaussian.Fault (Grid rows cols α) :=
  (fit.gaussian.onGrid? rows cols).map fun bump => Grid.ofFn fun p => g.get p + bump.get p

/-- The sum of the fitted Gaussians, without the background. -/
def model? [Scalar α] (s : Survey rows cols α) : Except Gaussian.Fault (Grid rows cols α) :=
  s.fits.foldlM addGaussian (Grid.ofFn fun _ => 0.0)

/-- An image without the fitted Gaussians. -/
def residual? [Scalar α] (s : Survey rows cols α) (data : Grid rows cols α) :
    Except Gaussian.Fault (Grid rows cols α) :=
  s.model?.map fun model => Grid.ofFn fun p => data.get p - model.get p

end Survey
end SkySources
