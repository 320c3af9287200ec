import SkySources.Minimise.Zoom

/-!
# Descent with a full matrix of curvature

The inverse of the matrix of second derivatives is built up from the gradients
seen on the way. Each round goes along the direction that the matrix gives, by
a step of the line search. The first step is about one unit long.
-/

namespace SkySources.Minimise
variable {α : Type} [Scalar α]

/-- A function of the parameters with its gradient. -/
structure Objective (α : Type) where
  value : List α → α
  gradient : List α → List α

/-- How a descent ended. -/
inductive Ending where
  /-- The gradient is small, or the value hardly falls. -/
  | settled
  /-- No further step is found. -/
  | stuck
  /-- All rounds are spent. -/
  | spent
  /-- The tolerance is none. -/
  | refused
  deriving DecidableEq, Repr

/-- Where a descent ended. -/
structure Descent (α : Type) where
  params : List α
  value : α
  ending : Ending
  /-- How many steps were taken. -/
  steps : Nat

/-- The value and the slope at a step along a direction, with the gradient. -/
def Objective.look (f : Objective α) (params direction : List α) (step : α) :
    Bracket.Sight α (List α) :=
  let there := along params direction step
  let gradient := f.gradient there
  ⟨⟨step, f.value there, dot gradient direction⟩, gradient⟩

namespace QuasiNewton

/-- A descent in its course. -/
structure State (α : Type) where
  params : List α
  value : α
  /-- The value a round before. -/
  valueBefore : α
  gradient : List α
  /-- The inverse of the matrix of second derivatives, row by row. -/
  inverse : List (List α)
  /-- How many steps have been taken. -/
  steps : Nat

/-- The matrix with ones on its diagonal. -/
def identity (n : Nat) : List (List α) :=
  (List.range n).map fun i => (List.range n).map fun j => if i = j then 1.0 else 0.0

/-- The product of a matrix and a vector. -/
def apply (rows : List (List α)) (xs : List α) : List α := rows.map fun row => dot row xs

/-- The matrix of the products of the entries of two vectors. -/
def outer (xs ys : List α) : List (List α) := xs.map fun x => ys.map fun y => x * y

/-- The product of two matrices, the second one given by its columns. -/
def product (rows columns : List (List α)) : List (List α) :=
  rows.map fun row => columns.map fun column => dot row column

/-- The columns of a square matrix. -/
def transposed (rows : List (List α)) : List (List α) :=
  (List.range rows.length).map fun j => rows.map fun row => row.getD j 0.0

/-- The sum of two matrices, entry by entry with a function. -/
def combine (f : α → α → α) (a b : List (List α)) : List (List α) :=
  a.zipWith (fun x y => x.zipWith f y) b

/-- The inverse after a step `s` that changed the gradient by `y`: it takes `y`
to `s`, and otherwise stays close to what it was. -/
def updated (inverse : List (List α)) (s y : List α) : List (List α) :=
  let curvature := dot y s
  let rho := if Scalar.sameValue curvature 0.0 then 1000.0 else 1.0 / curvature
  let unit := identity s.length
  let left := combine (· - ·) unit ((outer s y).map fun row => row.map (· * rho))
  let right := combine (· - ·) unit ((outer y s).map fun row => row.map (· * rho))
  combine (· + ·) (product left (transposed (product inverse (transposed right))))
    ((s.map (rho * ·)).map fun x => s.map fun y => x * y)

/-- The first step along a direction: as long as foreseen from the fall of the
round before, but at most one. -/
def firstStep (s : State α) (slope : α) : α :=
  if Scalar.sameValue slope 0.0 then 1.0
  else
    let guess := Scalar.smaller 1.0 (1.01 * 2.0 * (s.value - s.valueBefore) / slope)
    if guess < 0.0 then 1.0 else guess

/-- The step of a round, by bracketing or else by doubling. -/
def step? (f : Objective α) (s : State α) (direction : List α) :
    Option (Bracket.Sight α (List α)) :=
  let slope := dot s.gradient direction
  let look := f.look s.params direction
  let first := firstStep s slope
  let rule : LineRule α := ⟨1e-4, 0.9, 1e-14, 1e-100, 1e100⟩
  match Bracket.search rule look 99 s.value slope first with
  | some sight => some sight
  | none =>
    let line : Line α (List α) := ⟨look, s.value, slope, 1e-4, 0.9⟩
    match line.double 1e100 10 none first with
    | some (.good sight) | some (.last sight) => some sight
    | none => none

/-- The descent that ends here. -/
def State.ending (s : State α) (ending : Ending) : Descent α :=
  ⟨s.params, s.value, ending, s.steps⟩

/-- Rounds until the gradient is small, no step is found, or a value is not
finite; at most so many. After the last round they are spent in any case. -/
def rounds (f : Objective α) (tolerance : α) : Nat → State α → Descent α
  | 0, s => s.ending .spent
  | budget + 1, s =>
    if tolerance < largest s.gradient then
      let direction := negated (apply s.inverse s.gradient)
      match step? f s direction with
      | none => s.ending .stuck
      | some sight =>
        let moved := scaled sight.reading.step direction
        let next : State α :=
          { params := plus s.params moved
            value := sight.reading.value
            valueBefore := s.value
            gradient := sight.extra
            inverse := updated s.inverse moved (minus sight.extra s.gradient)
            steps := s.steps + 1 }
        let small := decide (largest next.gradient ≤ tolerance)
        let still := decide (sight.reading.step * length direction ≤ 0.0)
        if small || still then next.ending (if budget = 0 then .spent else .settled)
        else if !Scalar.isFinite next.value then next.ending .stuck
        else rounds f tolerance budget next
    else s.ending .settled

/-- The descent from given parameters. -/
def search (f : Objective α) (tolerance : α) (budget : Nat) (params : List α) : Descent α :=
  let value := f.value params
  let gradient := f.gradient params
  rounds f tolerance budget
    { params := params, value := value, valueBefore := value + length gradient / 2.0
      gradient := gradient, inverse := identity params.length, steps := 0 }

end QuasiNewton
end SkySources.Minimise
