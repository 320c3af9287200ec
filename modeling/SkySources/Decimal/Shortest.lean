import SkySources.Decimal

/-!
# The shortest decimal of a double

Every real that lies closer to a double than to any other reads back as that
double. Of the decimals in this interval the shortest ones are wanted, and of
those the nearest. For each count of digits only the two neighbours of the
double on that decimal grid can be the answer, so they are tested one count
after the other; seventeen digits always suffice.
-/

namespace SkySources.Decimal

/-- The reals that read back as the positive number `value / unit`: those
between `low / unit` and `high / unit`, the ends included if `closed`. -/
structure Reading where
  (unit value low high : Nat)
  closed : Bool

/-- The interval of a double with positive significand: half a step on either
side, where the step below a power of two is only half as wide. -/
def Reading.ofBinary (b : Binary) : Reading :=
  let (num, den) := b.ratio
  let step := Nat.pow 2 b.exponent.toNat
  let atPower := decide (b.significand = Nat.pow 2 52 ∧ b.exponent ≠ -1074)
  { unit := 4 * den
    value := 4 * num
    low := 4 * num - (if atPower then step else 2 * step)
    high := 4 * num + 2 * step
    closed := b.significand % 2 = 0 }

/-- Whether `n * 10 ^ e` reads back as the number. -/
def Reading.holds (r : Reading) (n : Nat) (e : Int) : Bool :=
  let point := n * Nat.pow 10 e.toNat * r.unit
  let scale := Nat.pow 10 (-e).toNat
  if r.closed then decide (r.low * scale ≤ point ∧ point ≤ r.high * scale)
  else decide (r.low * scale < point ∧ point < r.high * scale)

/-- The neighbour of the number on the grid of `10 ^ e` that reads back, the
nearer one if both do; the even one if they are equally near. -/
def Reading.neighbour? (r : Reading) (e : Int) : Option Nat :=
  let num := r.value * Nat.pow 10 (-e).toNat
  let den := r.unit * Nat.pow 10 e.toNat
  let below := num / den
  let rest := num % den
  let lower := r.holds below e
  let upper := r.holds (below + 1) e
  if lower && upper then some (roundQuotient num den)
  else if lower then some below
  else if upper && rest ≠ 0 then some (below + 1)
  else none

/-- The first grid, from `count` digits on, with a neighbour that reads back. -/
def Reading.search (r : Reading) (first : Int) : Nat → Nat → Option (Nat × Int)
  | 0, _ => none
  | tries + 1, count =>
    let e := first - Int.ofNat count + 1
    match r.neighbour? e with
    | some n => some (n, e)
    | none => r.search first tries (count + 1)

/-- The digits without the zeros at their end, each counted into the exponent. -/
def trimZeros : Nat → Nat → Int → Nat × Int
  | 0, n, e => (n, e)
  | fuel + 1, n, e => if n ≠ 0 ∧ n % 10 = 0 then trimZeros fuel (n / 10) (e + 1) else (n, e)

/-- The shortest decimal that reads back as the number, and of those the
nearest. -/
def shortest (b : Binary) : Decimal :=
  if b.significand = 0 then ⟨b.negative, 0, 0⟩
  else
    let r := Reading.ofBinary b
    match r.search (magnitude b.ratio.1 b.ratio.2) 17 1 with
    | some (n, e) =>
      let (digits, exponent) := trimZeros 400 n e
      ⟨b.negative, digits, exponent⟩
    | none => atDigits 17 b

end SkySources.Decimal
