import SkySources.Settings.Search
import SkySources.Survey

/-!
# From settings to a plan

Not all settings of the right kinds make sense. They are looked at in a fixed
order before any image is, and the first that makes none is refused; the others
make a plan. A whole number beyond the range of doubles only fails when it is
needed, and so does a number of bins for which there are no places.
-/

namespace SkySources

/-- Which setting makes no sense. -/
inductive Refused where
  /-- The threshold of detection is below that of the analysis. -/
  | thresholds (detection analysis : Quantity)
  | clipRounds
  | minArea
  | connectivity (c : Count)
  | rms
  | bins
  | margin
  | rounds

namespace Refused

/-- Why the setting makes no sense, in words. -/
def message : Refused → String
  | thresholds detection analysis =>
    "detection_n_sigma (" ++ detection.shown ++ ") must be at least analysis_n_sigma ("
      ++ analysis.shown ++ ")"
  | clipRounds => "sigma_clip_iters must be non-negative"
  | minArea => "source_min_area must be non-negative"
  | connectivity c => "connectivity must be 4 or 8, not " ++ c.shown
  | rms => "rms_estimate must be positive"
  | bins => "binapprox_bins must be at least 1"
  | margin => "fit_margin must be non-negative"
  | rounds => "max_iterations must be at least 1"

/-- Whether the numbers in the message can be shown. -/
def isShowable : Refused → Bool
  | thresholds detection analysis => detection.toValue.isShowable && analysis.toValue.isShowable
  | connectivity c => c.toValue.isShowable
  | _ => true

end Refused

/-- Why an image has no survey. -/
inductive SearchFault where
  /-- A setting makes no sense. -/
  | refused (r : Refused)
  /-- A whole number is too large for what it is needed for. -/
  | tooLarge
  | survey (f : SurveyFault)

namespace SearchSettings

/-- Whether a deviation that is given is not positive. -/
def hasBadRms (s : SearchSettings) : Bool :=
  match s.rms with
  | some q => !q.isPositive
  | none => false

/-- The clipping that the settings ask for. -/
def clipping (s : SearchSettings) : Background.Clipping Float :=
  { numSigma := s.clipLimit.toFloat, rounds := s.clipRounds.toInt.toNat, method := s.median
    bins := s.bins.toInt.toNat, minCount := 2 }

/-- The plan of the settings, for pixels with so many neighbours. -/
def planWith (s : SearchSettings) (c : Connectivity) : Plan Float :=
  { detection := s.detection.toFloat
    analysis := s.analysis.toFloat
    rms := s.rms.map Quantity.toFloat
    negatives := s.negatives
    clipping := s.clipping
    barycentre := s.barycentre
    fitting := s.fitting
    connectivity := c
    shows := s.labelMap
    minArea := s.minArea.toInt
    differencing := s.differencing
    margin := s.margin.toInt
    workers := s.workers.map Count.toInt
    debug := s.debug }

/-- The plan of the settings, unless one of them makes no sense. -/
def plan? (s : SearchSettings) : Except Refused (Plan Float) :=
  if s.detection.isBelow s.analysis then .error (.thresholds s.detection s.analysis)
  else if s.clipRounds.toInt < 0 then .error .clipRounds
  else if s.minArea.toInt < 0 then .error .minArea
  else
    match Connectivity.ofCount? s.connectivity.toInt with
    | none => .error (.connectivity s.connectivity)
    | some c =>
      if s.hasBadRms then .error .rms
      else if s.bins.toInt < 1 then .error .bins
      else if s.margin.toInt < 0 then .error .margin
      else if s.rounds.toInt < 1 then .error .rounds
      else .ok (s.planWith c)

/-- The searches that fit the Gaussians. -/
def minimiser (s : SearchSettings) : Minimiser Float :=
  s.solver.searches ⟨s.rounds.toInt, 1e-10⟩

/-- The fewest bins that are too many to be told: their number takes 64 digits at most. -/
def toldBins : Int := 18446744073709551616

/-- The fewest bins that are too many to have places: each takes eight bytes, and all of
them at most as many as 63 digits tell. -/
def placedBins : Int := 1152921504606846976

/-- Whether there are too many bins for some values to be put into. Without a deviation
the bins are not needed, only told. -/
def hasHugeBins (s : SearchSettings) (values : List Float) : Bool :=
  decide (s.median = .binapprox) && !values.isEmpty
    && (decide (toldBins ≤ s.bins.toInt) || decide (placedBins ≤ s.bins.toInt)
      && !Scalar.sameValue (Moments.deviation Sum.running values) 0.0)

/-- What is reported until a number turns out to be too large, if one is needed
that is. -/
def eventsUntilTooLarge? (s : SearchSettings) (plan : Plan Float) (data : List Float) :
    Option (List (Event Float)) :=
  let levels := Levels.of plan data
  if s.hasHugeBins (Background.finite data) then some []
  else if s.clipLimit.isHuge && Background.clips plan.clipping data then some []
  else if (s.rms.map Quantity.isHuge).getD false then some levels.estimateEvents
  else if s.analysis.isHuge || s.detection.isHuge then some (levels.events plan)
  else none

/-- The survey of an image with the settings, by a minimiser, with what was
reported. -/
def surveyBy {rows cols : Nat} (minimiser : Minimiser Float) (s : SearchSettings)
    (data : Grid rows cols Float) :
    List (Event Float) × Except SearchFault (Survey rows cols Float) :=
  match s.plan? with
  | .error r => ([], .error (.refused r))
  | .ok plan =>
    match s.eventsUntilTooLarge? plan data.toList with
    | some events => (events, .error .tooLarge)
    | none =>
      let (events, outcome) := Survey.run minimiser plan data
      (events, outcome.mapError .survey)

/-- The survey of an image with the settings, with what was reported. -/
def survey {rows cols : Nat} (s : SearchSettings) (data : Grid rows cols Float) :
    List (Event Float) × Except SearchFault (Survey rows cols Float) :=
  surveyBy s.minimiser s data

end SearchSettings
end SkySources
