import SkySources.Nested
import SkySources.Scalar

/-!
# Cells of data

A cell of a data list is a truth value, a whole number, a float, a text, or
nothing.
-/

namespace SkySources

/-- A cell as it was written. -/
inductive Cell where
  | truth (b : Bool)
  | whole (n : Int)
  | float (x : Float)
  | text (s : String)
  | nothing

namespace Cell

/-- The double that a cell stands for; nothing stands for a missing number, and
a text for none. -/
def double? : Cell → Option Float
  | truth b => some (if b then 1.0 else 0.0)
  | whole n => some (Float.ofInt n)
  | float x => some x
  | nothing => some Scalar.missing
  | text _ => none

end Cell
end SkySources
