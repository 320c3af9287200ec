import SkySources.Text.Number
import SkySources.Value

/-!
# Absent values

A file of settings has no way to say that a setting is absent, so the word
"none" stands for it, in any case and with blanks around it. Names are left
alone, and so is every other value. Values that are nested too deeply are not
gone through at all.
-/

namespace SkySources.Value

/-- Whether a text says that a value is absent. -/
def saysNone (s : String) : Bool := Text.lower (Text.trimmed s.toList) == "none".toList

mutual

/-- The value with every word for an absent value taken as such. -/
def withAbsent : Value → Value
  | text s => if saysNone s then nothing else text s
  | list items => list (withAbsentAll items)
  | table entries => table (withAbsentEntries entries)
  | v => v

/-- Several values with every word for an absent value taken as such. -/
def withAbsentAll : List Value → List Value
  | [] => []
  | v :: rest => withAbsent v :: withAbsentAll rest

/-- Entries of a table with every word for an absent value taken as such. -/
def withAbsentEntries : List (String × Value) → List (String × Value)
  | [] => []
  | (name, v) :: rest => (name, withAbsent v) :: withAbsentEntries rest

end

/-- The value with every word for an absent value taken as such, unless it is nested too
deeply. -/
def withAbsent? (v : Value) : Option Value :=
  if v.depth ≤ depthLimit then some v.withAbsent else none

end SkySources.Value
