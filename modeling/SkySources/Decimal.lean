import SkySources.Binary

/-!
# Decimals

A decimal is a sign, natural digits and a power of ten. Doubles become decimals
by rounding their exact value on a decimal grid, in natural numbers; a tie goes
to the even digit.
-/

namespace SkySources

/-- The number `± digits * 10 ^ exponent`. -/
structure Decimal where
  /-- The sign; a negative zero has it set. -/
  negative : Bool
  /-- The digits, as a natural number. -/
  digits : Nat
  /-- The power of ten that scales the digits. -/
  exponent : Int
  deriving DecidableEq, Repr

namespace Binary

/-- The magnitude as a fraction of natural numbers. -/
def ratio (b : Binary) : Nat × Nat :=
  (b.significand * Nat.pow 2 b.exponent.toNat, Nat.pow 2 (-b.exponent).toNat)

end Binary

namespace Decimal

/-- The natural number nearest to `num / den`; a tie goes to the even one. -/
def roundQuotient (num den : Nat) : Nat :=
  let low := num / den
  let rest := num % den
  if 2 * rest < den then low
  else if den < 2 * rest then low + 1
  else if low % 2 = 0 then low
  else low + 1

/-- How many units of `10 ^ e` the fraction holds, to the nearest. -/
def unitsOf (num den : Nat) (e : Int) : Nat :=
  roundQuotient (num * Nat.pow 10 (-e).toNat) (den * Nat.pow 10 e.toNat)

/-- The number rounded to a count of digits after the point. -/
def atPlaces (places : Nat) (b : Binary) : Decimal :=
  let (num, den) := b.ratio
  ⟨b.negative, unitsOf num den (-(Int.ofNat places)), -(Int.ofNat places)⟩

/-- How many decimal digits a natural number has; one for zero. -/
def width (n : Nat) : Nat := (Nat.toDigits 10 n).length

/-- The power of ten of the first digit of a positive fraction. -/
def magnitude (num den : Nat) : Int :=
  let guess : Int := Int.ofNat (width num) - Int.ofNat (width den)
  if den * Nat.pow 10 guess.toNat ≤ num * Nat.pow 10 (-guess).toNat then guess else guess - 1

/-- The number rounded to a count of digits from its first one. -/
def atDigits (count : Nat) (b : Binary) : Decimal :=
  if b.significand = 0 then ⟨b.negative, 0, 0⟩
  else
    let (num, den) := b.ratio
    let e := magnitude num den - Int.ofNat count + 1
    ⟨b.negative, unitsOf num den e, e⟩

/-- The power of ten above every digit; everything from `10 ^ 310` on is beyond
the doubles, and everything below `10 ^ (-330)` is next to zero. -/
def order (d : Decimal) : Int := Int.ofNat (width d.digits) + d.exponent

/-- The double nearest to the magnitude of the decimal. -/
def magnitudeToFloat (d : Decimal) : Float :=
  if d.digits = 0 ∨ d.order < -330 then 0.0
  else if 310 < d.order then 1.0 / 0.0
  else
    (Binary.ofRatio (d.digits * Nat.pow 10 d.exponent.toNat)
      (Nat.pow 10 (-d.exponent).toNat)).toFloat

/-- The double nearest to the decimal. -/
def toFloat (d : Decimal) : Float :=
  if d.negative then -d.magnitudeToFloat else d.magnitudeToFloat

/-- A double rounded to a count of digits after the point, as a double; only a
finite one changes. -/
def roundToPlaces (places : Nat) (x : Float) : Float :=
  match Binary.ofFloat? x with
  | some b => (atPlaces places b).toFloat
  | none => x

/-- A double rounded to a count of digits from its first one, as a double. -/
def roundToDigits (count : Nat) (x : Float) : Float :=
  match Binary.ofFloat? x with
  | some b => (atDigits count b).toFloat
  | none => x

end Decimal
end SkySources
