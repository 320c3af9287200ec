import SkySources.Value.Text

/-!
# Quantities and counts

Where a setting is a float, a whole number does as well, and it stays one: it is
compared exactly and shown as it was given. Where a setting is a whole number, a
truth value does as well, and counts as zero or one.
-/

namespace SkySources

/-- A number given as a whole number or as a float. -/
inductive Quantity where
  | whole (n : Int)
  | float (x : Float)
  deriving Inhabited

/-- A whole number, or a truth value that stands for one. -/
inductive Count where
  | whole (n : Int)
  | truth (b : Bool)
  deriving DecidableEq, Repr, Inhabited

namespace Quantity

/-- The quantity as a value. -/
def toValue : Quantity → Value
  | whole n => .whole n
  | float x => .float x

/-- The text of a quantity. -/
def shown (q : Quantity) : String := q.toValue.shown

/-- The quantity as a double; an infinity if it is too large for one. -/
def toFloat : Quantity → Float
  | whole n => Float.ofInt n
  | float x => x

/-- Whether the quantity is a whole number too large for a double. -/
def isHuge : Quantity → Bool
  | whole n => !(Float.ofInt n).isFinite
  | float _ => false

/-- Whether a whole number lies below a finite double, exactly. -/
def wholeBelow (n : Int) (b : Binary) : Bool :=
  decide (n * Nat.pow 2 (-b.exponent).toNat < b.signed (b.significand * Nat.pow 2 b.exponent.toNat))

/-- Whether a whole number lies above a finite double, exactly. -/
def wholeAbove (n : Int) (b : Binary) : Bool :=
  decide (b.signed (b.significand * Nat.pow 2 b.exponent.toNat) < n * Nat.pow 2 (-b.exponent).toNat)

/-- Whether a quantity lies below another one; a missing number does not. -/
def isBelow : Quantity → Quantity → Bool
  | whole m, whole n => decide (m < n)
  | float x, float y => decide (x < y)
  | whole m, float y =>
    match Binary.ofFloat? y with
    | some b => wholeBelow m b
    | none => decide (0.0 < y)
  | float x, whole n =>
    match Binary.ofFloat? x with
    | some b => wholeAbove n b
    | none => decide (x < 0.0)

/-- Whether a quantity is above zero. -/
def isPositive (q : Quantity) : Bool := (whole 0).isBelow q

end Quantity

namespace Count

/-- The count as a value. -/
def toValue : Count → Value
  | whole n => .whole n
  | truth b => .truth b

/-- The text of a count. -/
def shown (c : Count) : String := c.toValue.shown

/-- The number that the count stands for. -/
def toInt : Count → Int
  | whole n => n
  | truth b => if b then 1 else 0

end Count
end SkySources
