import SkySources.Island
import SkySources.Solver

/-!
# Fitting Gaussians to islands

The pixels of an island, its surroundings up to a margin included, are handed
to a minimiser; pixels of other islands and missing pixels are left out. What
comes back is brought into a standard form, with the longer axis first and the
angle in half a turn, and is accepted only if it is a sensible Gaussian near
the island. Islands below the background are fitted upside down.
-/

namespace SkySources

/-- Why a Gaussian is not accepted. -/
inductive Rejection (α : Type) where
  /-- An axis has no length. -/
  | collapsedAxis
  /-- The major axis is much longer than the region. -/
  | largeAxis (semimajor : α)
  /-- The centre lies outside the region. -/
  | centreOutside (x y : α)
  /-- The Gaussian points away from the island. -/
  | lowAmplitude (amplitude : α)

/-- Why an island has no fit. -/
inductive FitFailure (α : Type) where
  /-- All pixels have the same value, or there are none. -/
  | flat
  /-- There are fewer pixels than parameters. -/
  | fewPixels (count : Nat)
  /-- The search failed. -/
  | raised (text : String)
  /-- The search did not come to an end. -/
  | unfinished (report : String)
  /-- A parameter is not finite. -/
  | notFinite
  | rejected (reason : Rejection α)

/-- What keeps a fit from being tried at all. -/
inductive FitFault where
  /-- The region has no pixels. -/
  | inverted (box : InvertedBox)
  /-- The label map does not cover the region. -/
  | labels
  /-- More evaluations are allowed than can be counted. -/
  | uncountable
  /-- No way to find derivatives has the name. -/
  | unknownDifferencing
  deriving DecidableEq, Repr

namespace Fit
variable {α : Type} [Scalar α]

/-- The full width at half maximum of a Gaussian with unit deviation. -/
def widthAtHalf : α := 2.0 * Scalar.sqrt (2.0 * Scalar.log 2.0)

/-- The deviation of an axis that an extent of so many pixels suggests; at
least half a pixel. -/
def axisGuess (extent : Int) : α := Scalar.larger (Scalar.ofInt extent / widthAtHalf) 0.5

/-- The parameters that a search begins with. -/
def initialGuess (island : Island α) (background : α) : Gaussian α :=
  { amplitude := Scalar.abs (island.extremum - background)
    xCentre := Scalar.ofInt island.column
    yCentre := Scalar.ofInt island.row
    semimajor := axisGuess island.box.width
    semiminor := axisGuess island.box.height
    theta := 0.0 }

/-- The angle of the same axis above minus and up to plus a quarter turn. -/
def normaliseAngle (theta : α) : α :=
  let rest := Scalar.remainder theta Scalar.pi
  if Scalar.pi / 2.0 < rest then rest - Scalar.pi
  else if rest ≤ -Scalar.pi / 2.0 then rest + Scalar.pi
  else rest

/-- The normal angle; an infinite angle has none. -/
def normaliseAngle? (theta : α) : Option α :=
  if Scalar.isNumber theta && !Scalar.isFinite theta then none else some (normaliseAngle theta)

/-- The same Gaussian with positive axes, the longer one first, and a normal
angle. -/
def canonical (g : Gaussian α) : Gaussian α :=
  let major := Scalar.abs g.semimajor
  let minor := Scalar.abs g.semiminor
  if major < minor then
    { g with
      semimajor := minor
      semiminor := major
      theta := normaliseAngle (g.theta + Scalar.pi / 2.0) }
  else
    { g with
      semimajor := major
      semiminor := minor
      theta := normaliseAngle g.theta }

/-- The longest major axis that is accepted in a region, in diagonals. -/
def axisLimit (box : BoundingBox) : α :=
  10.0 * Scalar.sqrt
    (Scalar.square (Scalar.ofInt box.width) + Scalar.square (Scalar.ofInt box.height))

/-- Whether a point lies in a box, or up to one pixel beside it. -/
def isNear (box : BoundingBox) (x y : α) : Bool :=
  decide (Scalar.ofInt (box.minCol - 1) ≤ x) && decide (x ≤ Scalar.ofInt (box.maxCol + 1))
    && (decide (Scalar.ofInt (box.minRow - 1) ≤ y) && decide (y ≤ Scalar.ofInt (box.maxRow + 1)))

/-- Why a Gaussian in standard form is not accepted in a region. -/
def rejection? (box : BoundingBox) (g : Gaussian α) : Option (Rejection α) :=
  if g.semiminor ≤ 0.0 then some .collapsedAxis
  else if axisLimit box < g.semimajor then some (.largeAxis g.semimajor)
  else if !isNear box g.xCentre g.yCentre then some (.centreOutside g.xCentre g.yCentre)
  else if g.amplitude ≤ 0.0 then some (.lowAmplitude g.amplitude)
  else none

/-- The fit of an island of some sign that the outcome of a search stands for. -/
def accept (box : BoundingBox) (sign : Int) (o : Outcome α) :
    Except (FitFailure α) (GaussianFit α) :=
  if !o.converged then .error (.unfinished o.report)
  else
    match Gaussian.ofList? o.params with
    | none => .error .notFinite
    | some found =>
      if !(found.isFinite && Scalar.isFinite o.cost) then .error .notFinite
      else
        let g := canonical found
        match rejection? box g with
        | some reason => .error (.rejected reason)
        | none =>
          .ok { gaussian := { g with amplitude := Scalar.ofInt sign * g.amplitude }
                sign := sign, converged := true, iterations := o.iterations, cost := o.cost
                report := o.report }

/-- The fit of an island of some sign that a search leads to. -/
def conclude (box : BoundingBox) (sign : Int) (result : Except SearchFailure (Outcome α)) :
    Except FitFault (Except (FitFailure α) (GaussianFit α)) :=
  match result with
  | .error .uncountable => .error .uncountable
  | .error (.refused text) => .ok (.error (.raised text))
  | .ok o => .ok (accept box sign o)

variable {rows cols : Nat}

/-- Whether a pixel takes part in the fit of a label: it is finite and belongs
to the island or to none. -/
def isUsable (data : Grid rows cols α) (labels : Option (Grid rows cols Int)) (label : Int)
    (p : Pixel rows cols) : Bool :=
  Scalar.isFinite (data.get p) &&
    match labels with
    | some map => map.get p = 0 || map.get p = label
    | none => true

/-- Whether a pixel is known to belong to the island of a label. -/
def isMember (data : Grid rows cols α) (labels : Option (Grid rows cols Int)) (label : Int)
    (p : Pixel rows cols) : Bool :=
  Scalar.isFinite (data.get p) &&
    match labels with
    | some map => map.get p = label
    | none => true

/-- All values are the same, or there are none. -/
def allAlike : List α → Bool
  | [] => true
  | first :: rest => rest.all fun x => Scalar.sameValue x first

/-- What is fitted: the pixels of the region that take part, in raster order,
upside down for an island below the background. -/
def observations (data : Grid rows cols α) (sign : Int) (background : α)
    (pixels : List (Pixel rows cols)) : List (Observation α) :=
  pixels.map fun p =>
    ⟨Scalar.ofNat p.col.val, Scalar.ofNat p.row.val, Scalar.ofInt sign * (data.get p - background)⟩

/-- The observations for an island in a region, unless they are too few or all
alike. -/
def select (data : Grid rows cols α) (labels : Option (Grid rows cols Int)) (island : Island α)
    (background : α) (box : BoundingBox) : Except (FitFailure α) (List (Observation α)) :=
  let region := (Pixel.raster rows cols).filter box.holds
  let usable := region.filter (isUsable data labels island.label)
  if allAlike ((region.filter (isMember data labels island.label)).map data.get) then .error .flat
  else if usable.length < 6 then .error (.fewPixels usable.length)
  else .ok (observations data island.sign background usable)

/-- The fit of an island in a region, by a minimiser. -/
def ofRegion (minimiser : Minimiser α) (d : Differencing) (data : Grid rows cols α)
    (labels : Option (Grid rows cols Int)) (island : Island α) (background : α)
    (box : BoundingBox) : Except FitFault (Except (FitFailure α) (GaussianFit α)) :=
  match select data labels island background box with
  | .error failure => .ok (.error failure)
  | .ok points =>
    conclude box island.sign
      (minimiser (Residuals.ofObservations d points) (initialGuess island background).toList)

/-- The fit of an island with a margin around its box. -/
def ofIsland (minimiser : Minimiser α) (d : Differencing) (margin : Int) (data : Grid rows cols α)
    (labels : Option (Grid rows cols Int)) (background : α) (island : Island α) :
    Except FitFault (Except (FitFailure α) (GaussianFit α)) :=
  match island.box.padded margin rows cols with
  | .error inverted => .error (.inverted inverted)
  | .ok box => ofRegion minimiser d data labels island background box

/-- The rows or columns from the first to the last that a map of so many has. -/
def covered (first last : Int) (count : Nat) : Nat :=
  (min (last + 1) (Int.ofNat count) - min first (Int.ofNat count)).toNat

/-- Where the labels along one side of a region are found in a map: side by side,
or all in one line if the map has no more. -/
def labelPlace (first last : Int) (count : Nat) (n : Nat) : Nat :=
  if covered first last count = 1 then first.toNat else n

/-- Whether the labels that a map has along one side of a region suffice. -/
def isEnough (first last : Int) (count : Nat) : Bool :=
  covered first last count = 1 || Int.ofNat (covered first last count) = last - first + 1

/-- The labels of a region in a map of any size, on the grid of an image. -/
def spread? (labels : Image Int) (box : BoundingBox) : Option (Grid rows cols Int) :=
  if isEnough box.minRow box.maxRow labels.rows && isEnough box.minCol box.maxCol labels.cols then
    let all := labels.grid.toRows
    some (Grid.ofFn fun p =>
      let row := labelPlace box.minRow box.maxRow labels.rows p.row.val
      let col := labelPlace box.minCol box.maxCol labels.cols p.col.val
      ((all[row]?.bind fun values => values[col]?).getD 0))
  else none

/-- The labels of a region, if there is a map. -/
def labelsIn (labels : Option (Image Int)) (box : BoundingBox) :
    Except FitFault (Option (Grid rows cols Int)) :=
  match labels with
  | none => .ok none
  | some map =>
    match spread? map box with
    | some labels => .ok (some labels)
    | none => .error .labels

/-- The fit of an island, with a label map of any size and with derivatives found
in the way of a name; the name only matters if there is something to fit. -/
def named (minimiser : Minimiser α) (differencing : String) (margin : Int)
    (data : Grid rows cols α) (labels : Option (Image Int)) (background : α)
    (island : Island α) : Except FitFault (Except (FitFailure α) (GaussianFit α)) :=
  match island.box.padded margin rows cols with
  | .error inverted => .error (.inverted inverted)
  | .ok box =>
    match labelsIn labels box, Differencing.ofName? differencing with
    | .error fault, _ => .error fault
    | .ok labels, some d => ofRegion minimiser d data labels island background box
    | .ok labels, none =>
      match select data labels island background box with
      | .error failure => .ok (.error failure)
      | .ok _ => .error .unknownDifferencing

end Fit
end SkySources
