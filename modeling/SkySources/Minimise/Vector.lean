import SkySources.Sum

/-!
# Vectors of parameters

Sums, multiples, products and lengths of lists of numbers. The length guards
its squares against overflow: large, middling and small entries are added up
apart, the outer two relative to the largest entry of their kind.
-/

namespace SkySources.Minimise
variable {α : Type} [Scalar α]

/-- The sum of the products of two vectors. -/
def dot (xs ys : List α) : α := Sum.running (xs.zipWith (· * ·) ys)

/-- The sum of two vectors. -/
def plus (xs ys : List α) : List α := xs.zipWith (· + ·) ys

/-- The difference of two vectors. -/
def minus (xs ys : List α) : List α := xs.zipWith (· - ·) ys

/-- A multiple of a vector. -/
def scaled (a : α) (xs : List α) : List α := xs.map fun x => a * x

/-- The vector with every sign changed. -/
def negated (xs : List α) : List α := xs.map fun x => -x

/-- The point reached from `xs` by `a` steps along `ps`. -/
def along (xs ps : List α) (a : α) : List α := plus xs (scaled a ps)

/-- The root of the sum of squares. -/
def length (xs : List α) : α := Scalar.sqrt (dot xs xs)

/-- The largest distance of an entry from zero; missing if an entry is. -/
def largest (xs : List α) : α :=
  xs.foldl (fun best x =>
    if !Scalar.isNumber best then best
    else if Scalar.isNumber x then Scalar.larger best (Scalar.abs x) else x) 0.0

/-- Sums of squares by size of the entries: `large` and `small` are relative to
the squares of `largest` and `smallest`. -/
structure SquareSums (α : Type) where
  (large middle small : α)
  (largest smallest : α)

namespace SquareSums

/-- A sum of squares relative to the square of `top`, with one more entry; the
reference grows with it if need be. -/
def grow (sum top x : α) : α × α :=
  if top < x then (1.0 + sum * Scalar.square (top / x), x)
  else (sum + Scalar.square (x / top), top)

/-- One more entry, of which `bound` is the largest that is middling. -/
def add (bound : α) (s : SquareSums α) (entry : α) : SquareSums α :=
  let x := Scalar.abs entry
  if decide (3.834e-20 < x) && decide (x < bound) then
    { s with middle := s.middle + Scalar.square x }
  else if x ≤ 3.834e-20 then
    if Scalar.sameValue x 0.0 then s
    else
      let (small, smallest) := grow s.small s.smallest x
      { s with small := small, smallest := smallest }
  else
    let (large, largest) := grow s.large s.largest x
    { s with large := large, largest := largest }

/-- The root of the whole sum; small entries do not show beside large ones. -/
def root (s : SquareSums α) : α :=
  if !Scalar.sameValue s.large 0.0 then
    s.largest * Scalar.sqrt (s.large + s.middle / s.largest / s.largest)
  else if !Scalar.sameValue s.middle 0.0 then
    if s.smallest ≤ s.middle then
      Scalar.sqrt (s.middle
        * (1.0 + s.smallest / s.middle * (s.smallest * s.small)))
    else
      Scalar.sqrt (s.smallest
        * (s.middle / s.smallest + s.smallest * s.small))
  else s.smallest * Scalar.sqrt s.small

end SquareSums

/-- The length of a vector, safe from overflow. -/
def norm (xs : List α) : α :=
  let bound : α := 1.304e19 / Scalar.ofNat xs.length
  (xs.foldl (SquareSums.add bound) ⟨0.0, 0.0, 0.0, 0.0, 0.0⟩).root

end SkySources.Minimise
