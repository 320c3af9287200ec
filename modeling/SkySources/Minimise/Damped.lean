import SkySources.Minimise.Factor

/-!
# Damped steps

A least squares step is damped by a parameter that keeps its length near a
bound, where each entry of the step is measured on a scale of its own. For a
given parameter the damping rows are turned into the triangle by rotations. The
parameter is found by following tangents, for a few rounds and between a lower
and an upper bound.
-/

namespace SkySources.Minimise
variable {α : Type} [Scalar α]

/-- A row of a triangle: its diagonal entry, the entries behind it, and its
right-hand side. -/
structure Row (α : Type) where
  diagonal : α
  behind : List α
  rhs : α

namespace Row

/-- The cosine and the sine of the rotation that turns `b` into `a`. -/
def rotation (a b : α) : α × α :=
  if Scalar.abs a < Scalar.abs b then
    let cotangent := a / b
    let sine := 0.5 / Scalar.sqrt (0.25 + 0.25 * Scalar.square cotangent)
    (sine * cotangent, sine)
  else
    let tangent := b / a
    let cosine := 0.5 / Scalar.sqrt (0.25 + 0.25 * Scalar.square tangent)
    (cosine, cosine * tangent)

/-- A row that is not triangular yet is turned into the rows of a triangle. -/
def absorb : List (Row α) → List α → α → List (Row α)
  | row :: rows, entry :: entries, rhs =>
    if Scalar.sameValue entry 0.0 then row :: absorb rows entries rhs
    else
      let (c, s) := rotation row.diagonal entry
      let turned : Row α :=
        { diagonal := c * row.diagonal + s * entry
          behind := row.behind.zipWith (fun r e => c * r + s * e) entries
          rhs := c * row.rhs + s * rhs }
      turned :: absorb rows (row.behind.zipWith (fun r e => -s * r + c * e) entries)
        (-s * row.rhs + c * rhs)
  | rows, _, _ => rows

/-- A triangle with a damping entry turned into each of its columns. -/
def damp : List α → List (Row α) → List (Row α)
  | [], rows => rows
  | entry :: entries, rows =>
    match absorb rows (entry :: List.replicate (rows.length - 1) 0.0) 0.0 with
    | [] => []
    | first :: later => first :: damp entries later

/-- The solution of a triangular system of rows. -/
def solve : List (Row α) → List α
  | [] => []
  | row :: rows =>
    let later := solve rows
    (row.rhs - dot row.behind later) / row.diagonal :: later

/-- The solution of the transposed system. -/
def transposedSolve : List (Row α) → List α → List α
  | row :: rows, b :: rest =>
    let x := b / row.diagonal
    x :: transposedSolve rows (rest.zipWith (fun r s => r - s * x) row.behind)
  | _, _ => []

/-- The solution in which unknowns from the first zero of the diagonal on are
zero. -/
def solution (rows : List (Row α)) : List α :=
  let regular := rows.takeWhile fun r => !Scalar.sameValue r.diagonal 0.0
  solve regular ++ List.replicate (rows.length - regular.length) 0.0

end Row

namespace Factor

/-- The rows of the triangle. -/
def rows (f : Factor α) : List (Row α) :=
  let columns := f.columns.map fun c => c.done.reverse
  f.rhs.mapIdx fun i b =>
    match columns.drop i with
    | column :: later => ⟨column.getD i 0.0, later.map fun c => c.getD i 0.0, b⟩
    | [] => ⟨0.0, [], b⟩

/-- The triangle damped by a parameter, for scales in the order of the factor. -/
def damped (f : Factor α) (scales : List α) (parameter : α) : List (Row α) :=
  Row.damp (scaled (Scalar.sqrt parameter) scales) f.rows

end Factor

/-- A step, in the order of the parameters, with the parameter that damps it. -/
structure DampedStep (α : Type) where
  parameter : α
  step : List α

namespace DampedStep

/-- The bounds of the parameter, the parameter, and by how much the step is too
long. -/
structure Search (α : Type) where
  (lower upper parameter excess : α)

/-- The direction of a scaled step of some length, scaled again, in the order of
the factor. -/
def direction (f : Factor α) (scales step : List α) (size : α) : List α :=
  f.gather (scales.zipWith (fun d x => d * (d * x / size)) step)

/-- Rounds of following the tangent to the parameter that makes the scaled step
as long as `bound`, to a tenth. -/
def refine (f : Factor α) (scales : List α) (bound : α) : Nat → Search α → DampedStep α
  | 0, s => ⟨s.parameter, []⟩
  | fuel + 1, s =>
    let parameter :=
      if Scalar.sameValue s.parameter 0.0 then Scalar.larger Scalar.tiny (0.001 * s.upper)
      else s.parameter
    let rows := f.damped (f.gather scales) parameter
    let step := f.scatter (Row.solution rows)
    let size := norm (scales.zipWith (· * ·) step)
    let excess := size - bound
    let near := decide (Scalar.abs excess ≤ 0.1 * bound)
    let stuck :=
      Scalar.sameValue s.lower 0.0 && decide (excess ≤ s.excess) && decide (s.excess < 0.0)
    if near || stuck || fuel = 0 then ⟨parameter, step⟩
    else
      let rate := norm (Row.transposedSolve rows (direction f scales step size))
      let correction := excess / bound / rate / rate
      let lower := if 0.0 < excess then Scalar.larger s.lower parameter else s.lower
      let upper := if excess < 0.0 then Scalar.smaller s.upper parameter else s.upper
      refine f scales bound fuel
        ⟨lower, upper, Scalar.larger lower (parameter + correction), excess⟩

/-- The step of a factored system whose scaled length is about `bound`, or the
undamped one if that is not longer; `start` is a first guess of the parameter. -/
def of (f : Factor α) (scales : List α) (bound start : α) : DampedStep α :=
  let free := f.scatter f.solution
  let size := norm (scales.zipWith (· * ·) free)
  let excess := size - bound
  if excess ≤ 0.1 * bound then ⟨0.0, free⟩
  else
    let lower :=
      if f.isRegular then
        let rate := norm (f.transposedSolution (direction f scales free size))
        excess / bound / rate / rate
      else 0.0
    let slope := norm ((f.transposedTimes f.rhs).zipWith (· / ·) (f.gather scales))
    let top := slope / bound
    let upper :=
      if Scalar.sameValue top 0.0 then Scalar.tiny / Scalar.smaller bound 0.1 else top
    let guess := Scalar.smaller (Scalar.larger start lower) upper
    let parameter := if Scalar.sameValue guess 0.0 then slope / size else guess
    refine f scales bound 10 ⟨lower, upper, parameter, excess⟩

end DampedStep
end SkySources.Minimise
