import SkySources.Minimise.Vector

/-!
# Orthogonal factors with pivoting

A matrix, given by its columns, is turned by reflections until it is upper
triangular; the column that is longest below the finished rows comes next, so
the diagonal falls off. A right-hand side is reflected along with the columns.
-/

namespace SkySources.Minimise
variable {α : Type} [Scalar α]

/-- A column in the course of the reflections. -/
structure Column (α : Type) where
  /-- Its place in the matrix. -/
  index : Nat
  /-- Its length at the start. -/
  full : α
  /-- Its length below the finished rows, kept up to date. -/
  current : α
  /-- That length when it was last computed afresh. -/
  fresh : α
  /-- Its entries in the finished rows, the last row first. -/
  done : List α
  /-- Its entries below them. -/
  rest : List α

/-- An upper triangular matrix and the reflected right-hand side. Each column
lists its entries from the diagonal upwards. -/
structure Factor (α : Type) where
  columns : List (Column α)
  rhs : List α

namespace Factor

/-- The columns with the longest one first, in exchange for the one that was. -/
def pivot : List (Column α) → List (Column α)
  | [] => []
  | first :: others =>
    let longest := others.foldl (fun best c => if best.current < c.current then c else best) first
    if longest.index = first.index then first :: others
    else longest :: others.map fun c => if c.index = longest.index then first else c

/-- The reflection that leaves only the first entry of a column: the vector it
works along, and the entry that is left. A column of zeros needs none. -/
def reflector (rest : List α) : List α × α :=
  let size := norm rest
  if Scalar.sameValue size 0.0 then (rest, -size)
  else
    let signed := match rest with
      | first :: _ => if first < 0.0 then -size else size
      | [] => size
    match rest.map (· / signed) with
    | first :: tail => ((first + 1.0) :: tail, -signed)
    | [] => ([], -signed)

/-- A vector reflected along `mirror`; unchanged if that begins with zero. -/
def reflect (mirror xs : List α) : List α :=
  match mirror with
  | first :: _ =>
    if Scalar.sameValue first 0.0 then xs
    else
      let share := dot mirror xs / first
      xs.zipWith (fun x m => x - share * m) mirror
  | [] => xs

/-- The length of a column after its first entry is finished: updated, or
computed afresh if too little of it is left. -/
def shorten (c : Column α) (first : α) (rest : List α) : Column α :=
  let c := { c with done := first :: c.done, rest := rest }
  if Scalar.sameValue c.current 0.0 then c
  else
    let left := c.current
      * Scalar.sqrt (Scalar.larger 0.0 (1.0 - Scalar.square (first / c.current)))
    if 0.05 * Scalar.square (left / c.fresh) ≤ Scalar.epsilon then
      let anew := norm rest
      { c with current := anew, fresh := anew }
    else { c with current := left }

/-- A column reflected, and its first entry finished. -/
def finish (mirror : List α) (c : Column α) : Column α :=
  match reflect mirror c.rest with
  | first :: rest => shorten c first rest
  | [] => c

/-- One reflection after the other; `columns` are unfinished, and the finished
ones and their right-hand sides are collected. -/
def reduce : Nat → List (Column α) → List α → Factor α
  | 0, _, _ => ⟨[], []⟩
  | fuel + 1, columns, rhs =>
    match pivot columns with
    | [] => ⟨[], []⟩
    | first :: others =>
      let (mirror, diagonal) := reflector first.rest
      let turned := reflect mirror rhs
      let later := reduce fuel (others.map (finish mirror)) (turned.drop 1)
      { columns := { first with done := diagonal :: first.done, rest := [] } :: later.columns
        rhs := turned.take 1 ++ later.rhs }

/-- The factors of a matrix, given by its columns, with a right-hand side. -/
def of (columns : List (List α)) (rhs : List α) : Factor α :=
  let start := columns.mapIdx fun i c =>
    let size := norm c
    { index := i, full := size, current := size, fresh := size, done := [], rest := c : Column α }
  reduce columns.length start rhs

/-- Entries, one for each parameter, in the order of the factor. -/
def gather (f : Factor α) (xs : List α) : List α := f.columns.map fun c => xs.getD c.index 0.0

/-- Entries in the order of the factor, put back into the order of the
parameters. -/
def scatter (f : Factor α) (xs : List α) : List α :=
  let order := f.columns.map (·.index)
  (List.range order.length).map fun i => xs.getD (order.idxOf i) 0.0

/-- The lengths of the columns of the matrix, in the order of the parameters. -/
def lengths (f : Factor α) : List α := f.scatter (f.columns.map (·.full))

/-- The product of the transposed triangle with a vector. -/
def transposedTimes (f : Factor α) (xs : List α) : List α :=
  f.columns.mapIdx fun i c => dot c.done.reverse (xs.take (i + 1))

/-- The product of the triangle with a vector. -/
def times (f : Factor α) (xs : List α) : List α :=
  let rows := f.columns.length
  (f.columns.zip xs).foldl (fun total cx =>
    let column := cx.1.done.reverse
    plus total (scaled cx.2 (column ++ List.replicate (rows - column.length) 0.0)))
    (List.replicate rows 0.0)

/-- How many diagonal entries come before the first zero. -/
def rank (f : Factor α) : Nat :=
  (f.columns.takeWhile fun c => !Scalar.sameValue (c.done.headD 0.0) 0.0).length

/-- Whether no diagonal entry is zero. -/
def isRegular (f : Factor α) : Bool := f.rank = f.columns.length

/-- The solution of a triangular system, the last unknown first. Columns and
right-hand side are listed from the last one on. -/
def backward : List (List α) → List α → List α
  | (diagonal :: above) :: columns, b :: rest =>
    let x := b / diagonal
    x :: backward columns (rest.zipWith (fun r a => r - a * x) above)
  | _, _ => []

/-- The least squares solution, in the order of the factor; unknowns from the
first zero of the diagonal on are zero. -/
def solution (f : Factor α) : List α :=
  let columns := (f.columns.take f.rank).map (·.done)
  (backward columns.reverse (f.rhs.take f.rank).reverse).reverse
    ++ List.replicate (f.columns.length - f.rank) 0.0

/-- The solution of the transposed system, the first unknown first; `known`
holds the unknowns before, the last one first. -/
def forward : List (List α) → List α → List α → List α
  | column :: columns, b :: rest, known =>
    match column with
    | diagonal :: above =>
      let x := (b - dot above.reverse known.reverse) / diagonal
      x :: forward columns rest (x :: known)
    | [] => []
  | _, _, _ => []

/-- The solution of the transposed triangular system. -/
def transposedSolution (f : Factor α) (b : List α) : List α :=
  forward (f.columns.map (·.done)) b []

end Factor
end SkySources.Minimise
