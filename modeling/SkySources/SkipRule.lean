import SkySources.Decimal.Text
import SkySources.Store
import SkySources.Text.Number

/-!
# When a check is left out

A check may need data that are not there, or take longer than is allowed. Each
rule answers with the reason for leaving the check out, if there is one.
-/

namespace SkySources.SkipRule

/-- The reason if some of the files that a check needs are missing. -/
def missingData? (s : Store) (needed : List String) : Option String :=
  match needed.filter fun name => !s.holds name with
  | [] => none
  | missing => some ("Test data (" ++ ", ".intercalate missing ++ ") not available")

/-- The reason if a check takes longer than a positive limit. -/
def tooLong? (limit duration : Float) : Option String :=
  if 0.0 < limit ∧ limit < duration then
    some ("Tests of duration > " ++ Decimal.shortestText limit
      ++ " s disabled with STP_MAXTESTDURATION")
  else none

/-- The limit that a text gives; without a text there is none. -/
def limit? : Option String → Option Float
  | none => some 0.0
  | some text => Text.float? text

end SkySources.SkipRule
