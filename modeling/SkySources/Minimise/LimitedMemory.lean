import SkySources.Minimise.QuasiNewton

/-!
# Descent with a short memory

The direction of each round is computed from the last ten steps and the changes
of the gradient along them, without a matrix. If no step is found the memory is
emptied once, and the steepest descent is tried.
-/

namespace SkySources.Minimise
variable {α : Type} [Scalar α]

namespace LimitedMemory

/-- A step with the change of the gradient along it. -/
structure Pair (α : Type) where
  (step change : List α)

/-- A descent in its course; the latest pair comes first. -/
structure State (α : Type) where
  params : List α
  value : α
  gradient : List α
  memory : List (Pair α)
  /-- The scale of the steepest descent. -/
  scale : α
  /-- How many steps have been taken. -/
  steps : Nat

/-- A gradient carried through the memory and back: the inverse matrix that the
pairs stand for, applied to it. -/
def applied (scale : α) : List (Pair α) → List α → List α
  | [], g => scaled scale g
  | p :: older, g =>
    let curvature := dot p.change p.step
    let a := dot p.step g / curvature
    let r := applied scale older (minus g (scaled a p.change))
    let b := dot p.change r / curvature
    plus r (scaled (a - b) p.step)

/-- The direction of a round, as the difference of two points. -/
def direction (s : State α) : List α :=
  minus (plus s.params (negated (applied s.scale s.memory s.gradient))) s.params

/-- A point with its gradient. -/
structure Point (α : Type) where
  params : List α
  gradient : List α

/-- What is seen at a step along a direction. A full step goes to the point
itself. -/
def look (f : Objective α) (params direction : List α) (step : α) : Bracket.Sight α (Point α) :=
  let there :=
    if Scalar.sameValue step 1.0 then plus params direction
    else plus (scaled step direction) params
  let gradient := f.gradient there
  ⟨⟨step, f.value there, dot gradient direction⟩, ⟨there, gradient⟩⟩

/-- The step of a round, if one is found. -/
def step? (f : Objective α) (s : State α) (direction : List α) :
    Option (Bracket.Sight α (Point α)) :=
  let rule : LineRule α := ⟨1e-3, 0.9, 0.1, 0.0, 1e10⟩
  let first := if s.steps = 0 then Scalar.smaller (1.0 / length direction) 1e10 else 1.0
  Bracket.search rule (look f s.params direction) 20 s.value (dot s.gradient direction) first

/-- The step of a round; without one the memory is emptied and the steepest
descent is tried. The state is the one that the step was made from. -/
def stepFrom? (f : Objective α) (s : State α) :
    Option (State α × List α × Bracket.Sight α (Point α)) :=
  let d := direction s
  match step? f s d with
  | some sight => some (s, d, sight)
  | none =>
    if s.memory.isEmpty then none
    else
      let s := { s with memory := [], scale := 1.0 }
      let d := direction s
      (step? f s d).map fun sight => (s, d, sight)

/-- The memory with one more pair, unless the slope hardly changed along it. -/
def remembered (s : State α) (direction : List α) (sight : Bracket.Sight α (Point α)) : State α :=
  let step := sight.reading.step
  let slope := dot s.gradient direction
  let moved := scaled step direction
  let change := minus sight.extra.gradient s.gradient
  let curvature := (sight.reading.slope - slope) * step
  let next := { s with
    params := sight.extra.params
    value := sight.reading.value
    gradient := sight.extra.gradient
    steps := s.steps + 1 }
  if curvature ≤ Scalar.epsilon * (-slope * step) then next
  else
    { next with
      memory := (⟨moved, change⟩ :: s.memory).take 10
      scale := curvature / dot change change }

/-- The descent that ends here. -/
def State.ending (s : State α) (ending : Ending) : Descent α :=
  ⟨s.params, s.value, ending, s.steps⟩

/-- Rounds until the gradient or the fall of the value is small, or no step is
found; at most so many. After the last round they are spent in any case. -/
def rounds (f : Objective α) (tolerance : α) : Nat → State α → Descent α
  | 0, s => s.ending .spent
  | budget + 1, s =>
    match stepFrom? f s with
    | none => s.ending .stuck
    | some (s, d, sight) =>
      let next := remembered s d sight
      let size := Scalar.larger (Scalar.larger (Scalar.abs s.value) (Scalar.abs next.value)) 1.0
      let small := decide (largest next.gradient ≤ tolerance)
      let flat := decide (s.value - next.value ≤ tolerance * size)
      if budget = 0 then next.ending .spent
      else if small || flat then next.ending .settled
      else rounds f tolerance budget next

/-- The descent from given parameters; one round is made in any case. A negative
tolerance is refused before any value is known. -/
def search (f : Objective α) (tolerance : α) (budget : Nat) (params : List α) : Descent α :=
  let s : State α :=
    { params := params, value := f.value params, gradient := f.gradient params
      memory := [], scale := 1.0, steps := 0 }
  if tolerance < 0.0 then ⟨params, 0.0, .refused, 0⟩
  else if largest s.gradient ≤ tolerance then s.ending .settled
  else rounds f tolerance (max 1 budget) s

end LimitedMemory
end SkySources.Minimise
