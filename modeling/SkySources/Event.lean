import SkySources.Background
import SkySources.Fit

/-!
# What is reported on the way

Every stage may report what it came across. An event says what happened; the
stage that it belongs to, how grave it is, and its text are functions of it.
-/

namespace SkySources

/-- The stage that reports. -/
inductive Stage where
  | statistics
  | labelling
  | fitting
  | image
  | commandLine
  deriving DecidableEq, Repr

namespace Stage

/-- The name of a stage. -/
def name : Stage → String
  | statistics => "stats"
  | labelling => "labelling"
  | fitting => "fitting"
  | image => "image"
  | commandLine => "cli"

end Stage

/-- How grave an event is. -/
inductive Gravity where
  | debug
  | info
  | warning
  deriving DecidableEq, Repr

namespace Gravity

/-- The name of a gravity. -/
def name : Gravity → String
  | debug => "DEBUG"
  | info => "INFO"
  | warning => "WARNING"

end Gravity

/-- What happened. -/
inductive Event (α : Type) where
  /-- A round of clipping was given up. -/
  | clippingCollapsed (collapse : Background.Collapse)
  /-- So many islands were found. -/
  | islandsFound (count : Nat)
  /-- An island has no fit. -/
  | fitFailed (label : Int) (failure : FitFailure α)
  /-- The noise of the background cannot be relied on. -/
  | unreliableBackground (sigma : α) (count : Nat)
  /-- The background that was found. -/
  | background (mean sigma : α) (rounds : Nat)
  /-- How many pixels were marked. -/
  | thresholds (mean : α) (analysis detection : Nat)
  /-- Islands were dropped for being small. -/
  | islandsDropped (count : Nat) (minArea : Int)
  /-- So many islands of all have a fit. -/
  | islandsFitted (fitted count : Nat)
  /-- Of data with more than two dimensions only one plane is used. -/
  | planeTaken (dimensions : Nat)

namespace Event
variable {α : Type}

/-- The stage that an event belongs to. -/
def stage : Event α → Stage
  | clippingCollapsed _ => .statistics
  | islandsFound _ => .labelling
  | fitFailed _ _ => .fitting
  | planeTaken _ => .commandLine
  | _ => .image

/-- How grave an event is. -/
def gravity : Event α → Gravity
  | islandsFound _ | islandsFitted _ _ => .info
  | fitFailed _ _ | unreliableBackground _ _ | planeTaken _ => .warning
  | _ => .debug

/-- The text of a number in six digits. -/
def sixDigits (x : Float) : String := Decimal.general 6 x

/-- The text of a number in three digits. -/
def threeDigits (x : Float) : String := Decimal.general 3 x

/-- The text of a count. -/
def countText (n : Nat) : String := Decimal.digitsText n

end Event

namespace Rejection

/-- Why a Gaussian is not accepted, in words. -/
def message : Rejection Float → String
  | collapsedAxis => "collapsed axis"
  | largeAxis semimajor => "semimajor axis " ++ Event.threeDigits semimajor ++ " too large"
  | centreOutside x y =>
    "centre (" ++ Event.threeDigits x ++ ", " ++ Event.threeDigits y ++ ") outside fit region"
  | lowAmplitude amplitude => "non-positive amplitude " ++ Event.threeDigits amplitude

end Rejection

namespace FitFailure

/-- Why an island has no fit, in words. -/
def message (label : Int) (failure : FitFailure Float) : String :=
  let number := Decimal.integerText label
  match failure with
  | flat => "Island " ++ number ++ " is flat; cannot fit"
  | fewPixels count =>
    "Island " ++ number ++ " has " ++ Event.countText count
      ++ " usable pixels, fewer than the number of parameters"
  | raised text => "Fit of island " ++ number ++ " raised: " ++ text
  | unfinished report => "Fit of island " ++ number ++ " did not converge: " ++ report
  | notFinite => "Fit of island " ++ number ++ " is not finite"
  | rejected reason => "Fit of island " ++ number ++ " rejected: " ++ reason.message

end FitFailure

namespace Event

/-- The text of an event. -/
def message : Event Float → String
  | clippingCollapsed c =>
    "Sigma clipping collapsed to " ++ countText c.left ++ " pixels at iteration "
      ++ countText c.round
  | islandsFound count => "Number of detected islands = " ++ countText count
  | fitFailed label failure => failure.message label
  | unreliableBackground sigma count =>
    "Background statistics are degenerate (sigma=" ++ sixDigits sigma ++ " from "
      ++ countText count ++ " pixels); using the last stable estimate"
  | background mean sigma rounds =>
    "Background mean " ++ sixDigits mean ++ ", sigma " ++ sixDigits sigma ++ " after "
      ++ countText rounds ++ " clipping iterations"
  | thresholds mean analysis detection =>
    "Thresholding at mean " ++ sixDigits mean ++ ": " ++ countText analysis ++ " analysis and "
      ++ countText detection ++ " detection pixels"
  | islandsDropped count minArea =>
    "Dropped " ++ countText count ++ " islands smaller than " ++ Decimal.integerText minArea
      ++ " pixels"
  | islandsFitted fitted count =>
    "Fitted " ++ countText fitted ++ " of " ++ countText count ++ " islands"
  | planeTaken dimensions =>
    "Loaded datacube with " ++ countText dimensions ++ " dimensions, taking plane 0."

end Event
end SkySources
