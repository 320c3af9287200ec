import SkySources.BoundingBox
import SkySources.Gaussian
import SkySources.Sum

/-!
# Islands

An island is a set of pixels with one label. A census goes over its pixels in
raster order and keeps count of them: their bounds, the pixel that stands out
most, and the sums behind the barycentre, which are taken relative to the first
pixel. The barycentre weighs each pixel by its distance from the background. One
pass over the grid makes the censuses of all labels.
-/

namespace SkySources

/-- A Gaussian fitted to an island. Below the background the amplitude is
negative, like the sign. -/
structure GaussianFit (α : Type) where
  gaussian : Gaussian α
  sign : Int
  converged : Bool
  /-- How many steps or evaluations the search took. -/
  iterations : Nat
  /-- Half the sum of the squared residuals; missing if unknown. -/
  cost : α
  /-- How the search for the Gaussian went. -/
  report : String

/-- An island of pixels that stand out from the background. -/
structure Island (α : Type) where
  /-- The number of the island in the label map. -/
  label : Int
  /-- One above the background, and minus one below it. -/
  sign : Int
  box : BoundingBox
  /-- The number of pixels. -/
  npix : Int
  /-- The value that stands out most. -/
  extremum : α
  /-- The column of that value. -/
  column : Int
  /-- The row of that value. -/
  row : Int
  /-- The column of the barycentre, missing if unknown. -/
  xbar : α
  /-- The row of the barycentre, missing if unknown. -/
  ybar : α
  fit : Option (GaussianFit α)
  /-- Whether a fit was tried in vain. -/
  fitFailed : Bool

namespace Island
variable {α : Type}

/-- The island with the outcome of a fit. -/
def withFit (island : Island α) (fit : Option (GaussianFit α)) : Island α :=
  { island with fit := fit, fitFailed := fit.isNone }

/-- The islands of at least so many pixels. -/
def keepLarge (minArea : Int) (islands : List (Island α)) : List (Island α) :=
  islands.filter fun island => decide (minArea ≤ island.npix)

/-- The fits of some islands. -/
def fits (islands : List (Island α)) : List (GaussianFit α) := islands.filterMap (·.fit)

end Island

/-- What a census of pixels knows. -/
structure Census (α : Type) where
  /-- The bounds of the rows and columns; the wrong way round before the first
  pixel. -/
  (minRow maxRow minCol maxCol : Int)
  count : Nat
  /-- The sign of the latest pixel. -/
  sign : Int
  /-- The value that stands out most in the direction of the signs. -/
  extremum : α
  (extremumRow extremumCol : Nat)
  /-- The sum of the weights. -/
  weight : α
  /-- The weighted sums of the columns and rows, counted from the first pixel. -/
  (columnMoment rowMoment : α)
  /-- The first pixel. -/
  (firstRow firstCol : Nat)

namespace Census
variable {α : Type} [Scalar α]

/-- The census of no pixel in a grid. -/
def empty (rows cols : Nat) : Census α :=
  { minRow := rows, maxRow := -1, minCol := cols, maxCol := -1, count := 0, sign := 0
    extremum := 0.0, extremumRow := 0, extremumCol := 0
    weight := 0.0, columnMoment := 0.0, rowMoment := 0.0, firstRow := 0, firstCol := 0 }

/-- The census with its first pixel fixed, if this is the first one. -/
def opened (c : Census α) (row col : Nat) : Census α :=
  if c.count = 0 then { c with firstRow := row, firstCol := col } else c

/-- The census with its extremum moved to a pixel, if that stands out more. -/
def raised (c : Census α) (row col : Nat) (value : α) (sign : Int) : Census α :=
  if c.count = 0 ∨ Scalar.ofInt sign * c.extremum < Scalar.ofInt sign * value then
    { c with extremum := value, extremumRow := row, extremumCol := col }
  else c

/-- The census with one more pixel counted. -/
def counted (c : Census α) (background : α) (row col : Nat) (value : α) (sign : Int) : Census α :=
  let weight := Scalar.abs (value - background)
  { c with
    minRow := min c.minRow row
    maxRow := max c.maxRow row
    minCol := min c.minCol col
    maxCol := max c.maxCol col
    count := c.count + 1
    sign := sign
    weight := c.weight + weight
    columnMoment := c.columnMoment + weight * Scalar.ofInt (Int.ofNat col - Int.ofNat c.firstCol)
    rowMoment := c.rowMoment + weight * Scalar.ofInt (Int.ofNat row - Int.ofNat c.firstRow) }

/-- The census with one more pixel. -/
def add (background : α) (c : Census α) (row col : Nat) (value : α) (sign : Int) : Census α :=
  ((c.opened row col).raised row col value sign).counted background row col value sign

variable {rows cols : Nat}

/-- The censuses of the labels from one on, with one more pixel in that of its label. -/
def enter (data : Grid rows cols α) (signs : Grid rows cols Int) (labels : Grid rows cols Nat)
    (background : α) (cs : List (Census α)) (p : Pixel rows cols) : List (Census α) :=
  match labels.get p with
  | 0 => cs
  | k + 1 => cs.modify k fun c =>
    c.add background p.row.val p.col.val (data.get p) (signs.get p)

/-- The census of each label from one to `count`, all of them in one pass over the pixels
in raster order. -/
def ofLabels (data : Grid rows cols α) (signs : Grid rows cols Int) (labels : Grid rows cols Nat)
    (count : Nat) (background : α) : List (Census α) :=
  (Pixel.raster rows cols).foldl (enter data signs labels background)
    (List.replicate count (empty rows cols))

/-- The mean position along one axis, kept between the bounds. -/
def centre (weight moment : α) (first : Nat) (low high : Int) : α :=
  Scalar.clamp (Scalar.ofInt low) (Scalar.ofInt high) (Scalar.ofNat first + moment / weight)

/-- The island of a census. The barycentre is only known if it is asked for and
some pixel has a weight. -/
def island (c : Census α) (label : Int) (barycentre : Bool) : Except InvertedBox (Island α) := do
  let box ← BoundingBox.make c.minRow c.maxRow c.minCol c.maxCol
  let known := barycentre && decide (0.0 < c.weight)
  return {
    label := label
    sign := c.sign
    box := box
    npix := c.count
    extremum := c.extremum
    column := c.extremumCol
    row := c.extremumRow
    xbar := if known then centre c.weight c.columnMoment c.firstCol c.minCol c.maxCol
      else Scalar.missing
    ybar := if known then centre c.weight c.rowMoment c.firstRow c.minRow c.maxRow
      else Scalar.missing
    fit := none
    fitFailed := false }

end Census
end SkySources
