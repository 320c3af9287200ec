import SkySources.Gaussian
import SkySources.Sum

/-!
# Residuals

What a Gaussian misses at a list of observed pixels, and how the misses change
with its parameters. The derivatives are those of the Gaussian, or quotients of
small differences. The pixels are taken as one block, or as one block per run of
equal rows; the numbers are the same either way.
-/

namespace SkySources

/-- How derivatives are found, and whether the pixels are one block. -/
inductive Differencing where
  | analytic
  | analyticSingleBlock
  | numeric
  | numericSingleBlock
  deriving DecidableEq, Repr

namespace Differencing

/-- Every kind. -/
def all : List Differencing := [analytic, analyticSingleBlock, numeric, numericSingleBlock]

/-- The name of a kind. -/
def name : Differencing → String
  | analytic => "analytic"
  | analyticSingleBlock => "analytic_single_block"
  | numeric => "numeric"
  | numericSingleBlock => "numeric_single_block"

/-- The kind of a name. -/
def ofName? (text : String) : Option Differencing := all.find? fun d => d.name = text

/-- Whether the derivatives are those of the Gaussian itself. -/
def isAnalytic : Differencing → Bool
  | analytic | analyticSingleBlock => true
  | numeric | numericSingleBlock => false

/-- Whether all pixels are one block. -/
def isSingleBlock : Differencing → Bool
  | analyticSingleBlock | numericSingleBlock => true
  | analytic | numeric => false

end Differencing

/-- A value seen at a position: the column is `x` and the row is `y`. -/
structure Observation (α : Type) where
  (x y value : α)

/-- The observations from one position of a list up to another, which is left
out. -/
structure Block (α : Type) where
  (start stop : Nat)
  points : List (Observation α)

/-- Observed pixels in blocks, with the way derivatives are found. -/
structure Residuals (α : Type) where
  differencing : Differencing
  blocks : List (Block α)

namespace Residuals
variable {α : Type} [Scalar α]

/-- The positions, counted from `i`, at which the row differs from the one
before. -/
def cutsFrom (i : Nat) : List α → List Nat
  | first :: second :: rest =>
    let later := cutsFrom (i + 1) (second :: rest)
    if Scalar.sameValue (second - first) 0.0 then later else (i + 1) :: later
  | _ => []

/-- The first and last positions of the blocks of so many observations. -/
def ranges (d : Differencing) (rows : List α) (size : Nat) : List (Nat × Nat) :=
  if d.isSingleBlock then [(0, size)]
  else
    let cuts := cutsFrom 0 rows
    (0 :: cuts).zip (cuts ++ [size])

/-- A part of a list. -/
def part {β : Type} (range : Nat × Nat) (xs : List β) : List β := (xs.take range.2).drop range.1

/-- The residuals at a list of observations. -/
def ofObservations (d : Differencing) (points : List (Observation α)) : Residuals α :=
  { differencing := d
    blocks := (ranges d (points.map (·.y)) points.length).map fun r =>
      ⟨r.1, r.2, part r points⟩ }

/-- A list made as long as asked: one entry is repeated, any other list must
have the length already. -/
def stretched? {β : Type} (length : Nat) (xs : List β) : Option (List β) :=
  match xs with
  | [x] => some (List.replicate length x)
  | _ => if xs.length = length then some xs else none

/-- The length that two lists are brought to: that of the first, unless it has
a single entry. -/
def commonLength (n m : Nat) : Nat := if n = 1 then m else n

/-- The observations of three columns, where a column of one entry is repeated
as often as needed. Positions alone fix how many derivatives of the Gaussian
there are, so these must be as many as the values. -/
def align? (d : Differencing) (x y value : List α) : Option (List (Observation α)) := do
  let positions := commonLength x.length y.length
  let size := commonLength positions value.length
  if d.isAnalytic ∧ positions ≠ size then none
  let x ← stretched? positions x
  let y ← stretched? positions y
  let x ← stretched? size x
  let y ← stretched? size y
  let value ← stretched? size value
  some ((x.zip (y.zip value)).map fun p => ⟨p.1, p.2.1, p.2.2⟩)

/-- The residuals of three columns that may differ in length, block by block;
`none` if the columns of a block cannot be brought together. -/
def ofColumns? (d : Differencing) (x y value : List α) : Option (Residuals α) := do
  let blocks ← (ranges d y value.length).mapM fun r => do
    let points ← align? d (part r x) (part r y) (part r value)
    some ⟨r.1, r.2, points⟩
  some ⟨d, blocks⟩

/-- Every observation, in order. -/
def points (p : Residuals α) : List (Observation α) := p.blocks.flatMap (·.points)

/-- The residuals of some observations: the Gaussian minus the value. -/
def misses (g : Gaussian α) (points : List (Observation α)) : List α :=
  let form := g.form
  points.map fun o => g.valueWith form o.x o.y - o.value

/-- The number of observations. -/
def size (p : Residuals α) : Nat := p.points.length

/-- The residual of each observation. -/
def values (p : Residuals α) (g : Gaussian α) : List α :=
  p.blocks.flatMap fun b => misses g b.points

/-- How far a parameter is moved for a quotient of differences. -/
def stepOf (x : α) : α := Scalar.sqrt Scalar.epsilon * Scalar.larger 1.0 (Scalar.abs x)

/-- The derivatives of the residuals of some observations by quotients of
differences, with the step that is left after rounding. -/
def quotients (g : Gaussian α) (points : List (Observation α)) : List (Gaussian α) :=
  let moved := (g.changed fun x => x + stepOf x).map fun m => (m, m.form)
  let steps := g.map fun x => x + stepOf x - x
  let form := g.form
  points.map fun o =>
    let here := g.valueWith form o.x o.y - o.value
    (moved.map fun m => m.1.valueWith m.2 o.x o.y - o.value - here).zipWith (· / ·) steps

/-- The derivatives of the Gaussian at some observations. -/
def slopesAt (g : Gaussian α) (points : List (Observation α)) : List (Gaussian α) :=
  let slopes := g.slopes
  points.map fun o => g.derivativesWith slopes o.x o.y

/-- The derivatives of each residual along the parameters. -/
def jacobian (p : Residuals α) (g : Gaussian α) : List (Gaussian α) :=
  p.blocks.flatMap fun b =>
    if p.differencing.isAnalytic then slopesAt g b.points else quotients g b.points

/-- The sum of the products of two lists. -/
def dot (xs ys : List α) : α := Sum.pairwise (xs.zipWith (· * ·) ys)

/-- Half the sum of the squared residuals. -/
def cost (p : Residuals α) (g : Gaussian α) : α :=
  let r := p.values g
  0.5 * dot r r

/-- The derivatives of all residuals, parameter by parameter. -/
def columns (p : Residuals α) (g : Gaussian α) : Gaussian (List α) :=
  let rows := p.jacobian g
  ⟨rows.map (·.amplitude), rows.map (·.xCentre), rows.map (·.yCentre),
    rows.map (·.semimajor), rows.map (·.semiminor), rows.map (·.theta)⟩

/-- The derivatives of the cost along the parameters. -/
def gradient (p : Residuals α) (g : Gaussian α) : Gaussian α :=
  let r := p.values g
  (p.columns g).map fun column => dot column r

end Residuals
end SkySources
