import SkySources.Minimise.Bracket

/-!
# Steps along a line by doubling and zooming

A simpler search for a step: the step is doubled until an interval must hold a
good one, and the interval is then narrowed. It serves where the bracketing
search finds nothing.
-/

namespace SkySources.Minimise
variable {α : Type} [Scalar α]

/-- A line with the value and the slope where it begins, and what a step has to
meet. -/
structure Line (α β : Type) where
  look : α → Bracket.Sight α β
  (value slope : α)
  (decrease curvature : α)

namespace Line
variable {β : Type}

/-- Whether a step lowers the value enough. -/
def falls (l : Line α β) (r : Reading α) : Bool :=
  !decide (l.value + l.decrease * r.step * l.slope < r.value)

/-- Whether a step flattens the slope enough. -/
def flattens (l : Line α β) (r : Reading α) : Bool :=
  decide (Scalar.abs r.slope ≤ -l.curvature * l.slope)

/-- A value that is finite. -/
def finite? (x : α) : Option α := if Scalar.isFinite x then some x else none

/-- The minimum of the cubic with the slope of the first reading and the values
of all three, if there is one. -/
def cubicMinimum? (a b c : Reading α) : Option α := do
  let db := b.step - a.step
  let dc := c.step - a.step
  let fb := b.value - a.value - a.slope * db
  let fc := c.value - a.value - a.slope * dc
  let scale := Scalar.square (db * dc) * (db - dc)
  let third ← finite? ((Scalar.square dc * fb + -Scalar.square db * fc) / scale)
  let second ← finite? ((-Scalar.cube dc * fb + Scalar.cube db * fc) / scale)
  finite?
    (a.step + (-second + Scalar.sqrt (second * second - 3.0 * third * a.slope)) / (3.0 * third))

/-- The minimum of the parabola with the slope of the first reading and the
values of both, if there is one. -/
def parabolaMinimum? (a b : Reading α) : Option α := do
  let db := b.step - a.step
  let second ← finite? ((b.value - a.value - a.slope * db) / (db * db))
  finite? (a.step - a.slope / (2.0 * second))

/-- A position that keeps a margin from both ends of an interval. -/
def inside? (low high margin : α) (x : Option α) : Option α :=
  x.filter fun x => !decide (high - margin < x) && !decide (x < low + margin)

/-- The next step between two readings: the cubic minimum, else that of the
parabola, else the middle. -/
def between (low high : Reading α) (before : Option (Reading α)) : α :=
  let span := high.step - low.step
  let (a, b) := if span < 0.0 then (high.step, low.step) else (low.step, high.step)
  let cubic := before.bind fun c => inside? a b (0.2 * span) (cubicMinimum? low high c)
  let parabola := inside? a b (0.1 * span) (parabolaMinimum? low high)
  (cubic.or parabola).getD (low.step + 0.5 * span)

/-- Narrows the interval between two readings, of which `low` has the lower
value, for at most so many rounds. -/
def zoom (l : Line α β) : Nat → Reading α → Reading α → Option (Reading α) →
    Option (Bracket.Sight α β)
  | 0, _, _, _ => none
  | fuel + 1, low, high, before =>
    let sight := l.look (between low high before)
    let trial := sight.reading
    if !l.falls trial || decide (low.value ≤ trial.value) then
      l.zoom fuel low trial (some high)
    else if l.flattens trial then some sight
    else if 0.0 ≤ trial.slope * (high.step - low.step) then l.zoom fuel trial low (some high)
    else l.zoom fuel trial high (some low)

/-- What is found along a line: a good step, or the last one tried. -/
inductive Found (α β : Type) where
  | good (sight : Bracket.Sight α β)
  | last (sight : Bracket.Sight α β)

/-- Doubles the step for at most so many rounds; `before` is the step before,
and `none` in the first round. -/
def double (l : Line α β) (longest : α) : Nat → Option (Reading α) → α → Option (Found α β)
  | 0, _, step => some (.last (l.look step))
  | fuel + 1, before, step =>
    let previous := before.getD ⟨0.0, l.value, l.slope⟩
    let sight := l.look step
    let trial := sight.reading
    if Scalar.sameValue step 0.0 || decide (longest < previous.step) then none
    else if !l.falls trial || (before.isSome && decide (previous.value ≤ trial.value)) then
      (l.zoom 11 previous trial none).map .good
    else if l.flattens trial then some (.good sight)
    else if 0.0 ≤ trial.slope then (l.zoom 11 trial previous none).map .good
    else l.double longest fuel (some trial) (Scalar.smaller (2.0 * step) longest)

end Line
end SkySources.Minimise
