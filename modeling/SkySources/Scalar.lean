import SkySources.Binary

/-!
# Scalars

The number line that pixel values, parameters and statistics live on. Every
computation of the library is written once, over any `Scalar`, so the same
definition runs on machine doubles and can be read over the exact reals.

A scalar type may hold values that are not finite. Order and arithmetic are
those of the type itself: an order against a missing number is false both
ways, so `sameValue` fails on it and `isNumber` tells it apart.
-/

namespace SkySources

/-- Numbers with the operations that source finding needs. -/
class Scalar (α : Type) extends Add α, Sub α, Mul α, Div α, Neg α, LT α, LE α, OfScientific α where
  /-- The scalar of a whole number. -/
  ofInt : Int → α
  /-- The value that stands for a missing number. -/
  missing : α
  /-- Whether the value is a finite number. -/
  isFinite : α → Bool
  /-- The non-negative square root. -/
  sqrt : α → α
  /-- The exponential function. -/
  exp : α → α
  /-- The natural logarithm. -/
  log : α → α
  /-- The sine of an angle in radians. -/
  sin : α → α
  /-- The cosine of an angle in radians. -/
  cos : α → α
  /-- Half the length of the unit circle. -/
  pi : α
  /-- The remainder of the division that truncates its quotient toward zero. -/
  remainder : α → α → α
  /-- The whole part, toward zero; zero if the value is not finite. -/
  truncate : α → Int
  /-- The distance from one to the next number of the type. -/
  epsilon : α
  /-- The smallest positive number of full precision. -/
  tiny : α
  /-- The strict order can be decided. -/
  decideLt : DecidableLT α
  /-- The order can be decided. -/
  decideLe : DecidableLE α

attribute [reducible, instance] Scalar.decideLt Scalar.decideLe

namespace Scalar
variable {α : Type} [Scalar α]

/-- The scalar of a natural number. -/
def ofNat (n : Nat) : α := ofInt (Int.ofNat n)

/-- The two values are equal as numbers; a missing number equals nothing. -/
def sameValue (x y : α) : Bool := decide (x ≤ y) && decide (y ≤ x)

/-- The value is a number, finite or not. -/
def isNumber (x : α) : Bool := decide (x ≤ x)

/-- The distance from zero. -/
def abs (x : α) : α := if x < 0.0 then -x else x

/-- The larger of two scalars; the first, unless the second exceeds it. -/
def larger (x y : α) : α := if x < y then y else x

/-- The smaller of two scalars; the first, unless the second is below it. -/
def smaller (x y : α) : α := if y < x then y else x

/-- A scalar moved into the interval from `low` to `high`. -/
def clamp (low high x : α) : α := smaller (larger x low) high

/-- The second power. -/
def square (x : α) : α := x * x

/-- The third power. -/
def cube (x : α) : α := x * x * x

end Scalar

instance : Scalar Float where
  ofInt := Float.ofInt
  missing := 0.0 / 0.0
  isFinite := Float.isFinite
  sqrt := Float.sqrt
  exp := Float.exp
  log := Float.log
  sin := Float.sin
  cos := Float.cos
  pi := 3.141592653589793
  remainder := Binary.remainder
  truncate := Binary.truncate
  epsilon := 2.220446049250313e-16
  tiny := 2.2250738585072014e-308
  decideLt := Float.decLt
  decideLe := Float.decLe

end SkySources
