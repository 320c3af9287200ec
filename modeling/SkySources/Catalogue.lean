import SkySources.Decimal.Text
import SkySources.Island
import SkySources.Text.Number

/-!
# Catalogues

A catalogue is a text with a line of column names and then one line for each
island. The position is that of the barycentre, or of the value that stands out
most along an axis on which the barycentre is missing. What a missing fit would
give is missing too. Numbers have six digits behind the point.

A whole number of too many digits cannot be written, and a row or a column that
is too large for a double cannot stand for a barycentre. An island of that kind
has no line, and then there is no catalogue.
-/

namespace SkySources.Catalogue

/-- Why there is no catalogue. -/
inductive Fault where
  /-- A whole number has too many digits to be written. -/
  | longNumber
  /-- A row or a column is too large for a double. -/
  | tooLarge
  deriving DecidableEq, Repr

/-- The names of the columns. -/
def columns : List String :=
  ["label", "sign", "npix", "x", "y", "peak", "amplitude", "semimajor", "semiminor", "theta"]

/-- What stands between two entries of a line. -/
def separator : String := ", "

/-- The text of a whole number, unless it has too many digits. -/
def count? (n : Int) : Except Fault String :=
  if n.natAbs < Nat.pow 10 Text.digitLimit then .ok (Decimal.integerText n) else .error .longNumber

/-- A coordinate of the barycentre, or of the extremum as a double if that is missing. -/
def position? (barycentre : Float) (extremum : Int) : Except Fault Float :=
  if !barycentre.isNaN then .ok barycentre
  else if (Float.ofInt extremum).isFinite then .ok (Float.ofInt extremum)
  else .error .tooLarge

/-- The parameters of a fit that are listed; missing numbers without a fit. -/
def parameters (fit : Option (GaussianFit Float)) : List Float :=
  match fit with
  | some f =>
    [f.gaussian.amplitude, f.gaussian.semimajor, f.gaussian.semiminor, f.gaussian.theta]
  | none => List.replicate 4 Scalar.missing

/-- The numbers of an island that are no counts. -/
def numbers? (island : Island Float) : Except Fault (List Float) := do
  let x ← position? island.xbar island.column
  let y ← position? island.ybar island.row
  return [x, y, island.extremum] ++ parameters island.fit

/-- The entries of an island; its whole numbers are written first. -/
def entries? (island : Island Float) : Except Fault (List String) := do
  let counts ← [island.label, island.sign, island.npix].mapM count?
  let numbers ← numbers? island
  return counts ++ numbers.map (Decimal.fixed 6)

/-- A line of some entries. -/
def line (entries : List String) : String := separator.intercalate entries ++ "\n"

/-- The text of a catalogue. -/
def text? (islands : List (Island Float)) : Except Fault String := do
  let rows ← islands.mapM entries?
  return "".intercalate ((columns :: rows).map line)

end SkySources.Catalogue
