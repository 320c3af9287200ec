import SkySources.Decimal.Text
import SkySources.Island

/-!
# Summaries

A summary tells a reader what was found in an image: its name, the background,
and every island with its fit, or with the note that the fit failed.
-/

namespace SkySources.Summary

/-- A number in six digits. -/
def number (x : Float) : String := Decimal.general 6 x

/-- A number with three digits behind the point. -/
def length (x : Float) : String := Decimal.fixed 3 x

/-- A pair in parentheses. -/
def pair (a b : String) : String := "(" ++ a ++ ", " ++ b ++ ")"

/-- The line of an island. -/
def islandLine (island : Island Float) : String :=
  "Island " ++ Decimal.integerText island.label ++ " (sign " ++ Decimal.signedText island.sign
    ++ ", " ++ Decimal.integerText island.npix ++ " pixels): peak " ++ number island.extremum
    ++ " at " ++ pair (Decimal.integerText island.column) (Decimal.integerText island.row) ++ "\n"

/-- The line of a fit. -/
def fitLine (g : Gaussian Float) : String :=
  "  Gaussian: amplitude " ++ number g.amplitude
    ++ ", centre " ++ pair (length g.xCentre) (length g.yCentre)
    ++ ", axes " ++ pair (length g.semimajor) (length g.semiminor)
    ++ ", theta " ++ length g.theta ++ "\n"

/-- What is said of an island. -/
def ofIsland (island : Island Float) : String :=
  islandLine island ++
    match island.fit with
    | some fit => fitLine fit.gaussian
    | none => if island.fitFailed then "  Gaussian fit failed\n" else ""

/-- What is said of the background and the numbers of islands and fits. -/
def header (name : String) (level noise : Float) (islands : List (Island Float)) : String :=
  "** " ++ name ++ " **\n\nBackground: " ++ number level ++ ", rms: " ++ number noise
    ++ ", islands: " ++ Decimal.digitsText islands.length
    ++ ", fits: " ++ Decimal.digitsText (Island.fits islands).length ++ "\n\n"

/-- The summary of an image. -/
def text (name : String) (level noise : Float) (islands : List (Island Float)) : String :=
  header name level noise islands ++ "".intercalate (islands.map ofIsland)

end SkySources.Summary
