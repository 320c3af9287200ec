/-!
# Doubles as exact numbers

A finite double is a sign, a natural significand and a power of two, read off
its bits. The digits that are printed, the whole part and the remainder of a
division are computed on this exact form, in natural numbers.
-/

namespace SkySources

/-- The number `± significand * 2 ^ exponent`. -/
structure Binary where
  /-- The sign bit; a negative zero has it set. -/
  negative : Bool
  /-- The digits, as a natural number below `2 ^ 53`. -/
  significand : Nat
  /-- The power of two that scales the digits. -/
  exponent : Int
  deriving DecidableEq, Repr

namespace Binary

/-- The exact form of a double; `none` for an infinity and a missing number. -/
def ofFloat? (x : Float) : Option Binary :=
  let bits := x.toBits.toNat
  let fraction := bits % Nat.pow 2 52
  let scale := bits / Nat.pow 2 52 % Nat.pow 2 11
  let negative := decide (Nat.pow 2 63 ≤ bits)
  if scale = 2047 then none
  else if scale = 0 then some ⟨negative, fraction, -1074⟩
  else some ⟨negative, fraction + Nat.pow 2 52, Int.ofNat scale - 1075⟩

/-- The magnitude counted in units of `2 ^ e`, exact whenever `e` is at most
the exponent. -/
def unitsOf (b : Binary) (e : Int) : Nat := b.significand * Nat.pow 2 (b.exponent - e).toNat

/-- The integer with the sign of `b` and the given magnitude. -/
def signed (b : Binary) (n : Nat) : Int := if b.negative then -(Int.ofNat n) else Int.ofNat n

/-- The whole part toward zero. -/
def whole (b : Binary) : Int :=
  if 0 ≤ b.exponent then b.signed (b.significand * Nat.pow 2 b.exponent.toNat)
  else b.signed (b.significand / Nat.pow 2 (-b.exponent).toNat)

/-- The whole part of a double toward zero; zero if it is not finite. -/
def truncate (x : Float) : Int :=
  match ofFloat? x with
  | some b => b.whole
  | none => 0

/-- The least whole number that a double does not exceed; zero if it is not
finite. -/
def ceiling (x : Float) : Int := if Float.ofInt (truncate x) < x then truncate x + 1 else truncate x

/-- The remainder of `a` by `b` with the quotient truncated toward zero: the
sign is that of `a`, and the digits are exact on the finer of the two scales. -/
def modulo (a b : Binary) : Binary :=
  let e := min a.exponent b.exponent
  ⟨a.negative, a.unitsOf e % b.unitsOf e, e⟩

/-- The double nearest to the number. -/
def toFloat (b : Binary) : Float :=
  let sign : Float.Model.UnpackedFloat.Sign := if b.negative then .negative else .positive
  .ofModel (.pack (.round .binary64 sign b.significand b.exponent))

/-- A fraction in units far below the smallest double, of which the last digit marks
whether anything was cut off; that decides between two doubles as the fraction does. -/
def ofRatio (num den : Nat) : Binary :=
  let scaled := num * Nat.pow 2 1076
  ⟨false, 2 * (scaled / den) + (if scaled % den = 0 then 0 else 1), -1077⟩

/-- The remainder of the division of doubles that truncates its quotient. A
divisor that is infinite leaves a finite dividend alone; there is no remainder
by zero, of an infinity, or of a missing number. -/
def remainder (x y : Float) : Float :=
  match ofFloat? x, ofFloat? y with
  | some a, some b => if b.significand = 0 then 0.0 / 0.0 else (a.modulo b).toFloat
  | some _, none => if y == y then x else y
  | none, _ => 0.0 / 0.0

/-- The quotient of a number by a power of two, to the nearest whole number, and
to the even one of two that are as near. -/
def halved (n bits : Nat) : Nat :=
  let rest := n % Nat.pow 2 bits
  if 2 * rest < Nat.pow 2 bits then n / Nat.pow 2 bits
  else if Nat.pow 2 bits < 2 * rest then n / Nat.pow 2 bits + 1
  else n / Nat.pow 2 bits + n / Nat.pow 2 bits % 2

/-- The nearest number with at most so many binary digits, none of which counts
less than `2 ^ least`. -/
def rounded (digits : Nat) (least : Int) (b : Binary) : Binary :=
  let bits := max (Nat.log2 b.significand + 1 - digits) (least - b.exponent).toNat
  ⟨b.negative, halved b.significand bits, b.exponent + bits⟩

/-- The nearest number of half precision: eleven digits, the last of them at
least `2 ^ -24`, and infinities beyond the largest. -/
def half (x : Float) : Float :=
  match ofFloat? x with
  | none => x
  | some b =>
    let nearest := (b.rounded 11 (-24)).toFloat
    if 65504.0 < nearest.abs then nearest / 0.0 else nearest

end Binary
end SkySources
