import SkySources.Decimal.Shortest

/-!
# Decimal text

How decimals are written: with a fixed count of digits after the point, or with
as many digits as the number needs, positional in a middle range and with an
exponent outside it. The exponent has a sign and at least two digits. Missing
and infinite values are written `nan`, `inf` and `-inf`.
-/

namespace SkySources.Decimal

/-- The text of a natural number. -/
def digitsText (n : Nat) : String := String.ofList (Nat.toDigits 10 n)

/-- A count of zeros. -/
def zeros (n : Nat) : String := String.ofList (List.replicate n '0')

/-- The minus sign of a negative number. -/
def signText (negative : Bool) : String := if negative then "-" else ""

/-- The text of a double: `finite` of its exact value, or one of the three
words. -/
def orWord (finite : Binary → String) (x : Float) : String :=
  match Binary.ofFloat? x with
  | some b => finite b
  | none => if x == x then (if x < 0.0 then "-inf" else "inf") else "nan"

/-- The whole part, and behind the point exactly `places` digits. -/
def fixedText (places : Nat) (d : Decimal) : String :=
  let fraction := digitsText (d.digits % Nat.pow 10 places)
  let whole := signText d.negative ++ digitsText (d.digits / Nat.pow 10 places)
  if places = 0 then whole
  else whole ++ "." ++ zeros (places - fraction.length) ++ fraction

/-- A double with a fixed count of digits after the point. -/
def fixed (places : Nat) (x : Float) : String :=
  orWord (fun b => fixedText places (atPlaces places b)) x

/-- When a number is written with an exponent, and what a whole one shows. -/
structure Style where
  /-- The first power of ten that is written with an exponent. -/
  scientificFrom : Int
  /-- Whether a whole number in positional form ends in a point and a zero. -/
  showsPoint : Bool

/-- The exponent behind the mark: its sign and at least two digits. -/
def exponentText (e : Int) : String :=
  let digits := digitsText e.natAbs
  "e" ++ (if e < 0 then "-" else "+") ++ zeros (2 - digits.length) ++ digits

/-- The digits split behind the first `n` of them. -/
def splitDigits (n : Nat) (digits : List Char) : String × String :=
  (String.ofList (digits.take n), String.ofList (digits.drop n))

/-- Writes a decimal whose digits do not end in a zero, unless it is zero. Below
one ten-thousandth the exponent is written as well. -/
def render (style : Style) (d : Decimal) : String :=
  let digits := Nat.toDigits 10 d.digits
  let first : Int := if d.digits = 0 then 0 else Int.ofNat digits.length - 1 + d.exponent
  let whole := if style.showsPoint then ".0" else ""
  let body :=
    if first < -4 ∨ style.scientificFrom ≤ first then
      let (head, tail) := splitDigits 1 digits
      (if tail = "" then head else head ++ "." ++ tail) ++ exponentText first
    else if first < 0 then
      "0." ++ zeros (-first - 1).toNat ++ String.ofList digits
    else if Int.ofNat digits.length ≤ first + 1 then
      String.ofList digits ++ zeros (first + 1 - Int.ofNat digits.length).toNat ++ whole
    else
      let (head, tail) := splitDigits (first + 1).toNat digits
      head ++ "." ++ tail
  signText d.negative ++ body

/-- The decimal without zeros at the end of its digits. -/
def trimmed (d : Decimal) : Decimal :=
  let (digits, exponent) := trimZeros 400 d.digits d.exponent
  ⟨d.negative, digits, exponent⟩

/-- A double in a count of digits, zeros at the end left out; from that power
of ten on it is written with an exponent. -/
def general (count : Nat) (x : Float) : String :=
  orWord (fun b => render ⟨Int.ofNat count, false⟩ (atDigits count b).trimmed) x

/-- A double in the fewest digits that read back as it, positional below
`10 ^ 16`, and always with a point or an exponent. -/
def shortestText (x : Float) : String :=
  orWord (fun b => render ⟨16, true⟩ (shortest b)) x

/-- The text of an integer. -/
def integerText (n : Int) : String := signText (decide (n < 0)) ++ digitsText n.natAbs

/-- The text of an integer that shows its sign. -/
def signedText (n : Int) : String := if n < 0 then integerText n else "+" ++ integerText n

end SkySources.Decimal
