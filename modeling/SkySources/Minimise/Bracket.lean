import SkySources.Minimise.Vector

/-!
# Steps along a line

A step along a descending line is sought that lowers the value enough and
flattens the slope enough. The trial steps are minima of cubics and parabolas
through the values and slopes seen so far; they stay in an interval that, once
a minimum has been bracketed, shrinks around it.
-/

namespace SkySources.Minimise
variable {α : Type} [Scalar α]

/-- A step with the value and the slope there. -/
structure Reading (α : Type) where
  (step value slope : α)

/-- What a step has to meet, and the steps that are allowed. -/
structure LineRule (α : Type) where
  /-- The share of the first slope that the value has to fall by. -/
  decrease : α
  /-- The share of the first slope that the slope has to fall to. -/
  curvature : α
  /-- How narrow an interval is given up, relative to its upper end. -/
  narrow : α
  (shortest longest : α)

/-- The search in its course. -/
structure Bracket (α : Type) where
  /-- The value and the slope where the line begins. -/
  origin : Reading α
  /-- The best step, and the other end of the interval. -/
  (best other : Reading α)
  /-- Whether a minimum lies in the interval. -/
  bracketed : Bool
  /-- Whether no step with a low value and a rising slope has been seen. -/
  early : Bool
  /-- The interval for the next step. -/
  (low high : α)
  /-- The length of the interval now and before. -/
  (width widthBefore : α)

namespace Bracket

/-- The minimum of the cubic through two readings, as a position between them:
`sign` tells which of the two extrema is meant. -/
def cubicGamma (a b theta : α) : α :=
  let s := Scalar.larger (Scalar.larger (Scalar.abs theta) (Scalar.abs a)) (Scalar.abs b)
  s * Scalar.sqrt (Scalar.square (theta / s) - a / s * (b / s))

/-- The coefficient of the cubic through two readings. -/
def cubicTheta (p q : Reading α) : α :=
  3.0 * (p.value - q.value) / (q.step - p.step) + p.slope + q.slope

/-- The next step where the value is higher than the best: the cubic minimum,
or half way to that of the parabola if it is further off. -/
def afterRise (best trial : Reading α) : α :=
  let theta := cubicTheta best trial
  let root := cubicGamma best.slope trial.slope theta
  let gamma := if trial.step < best.step then -root else root
  let p := gamma - best.slope + theta
  let q := gamma - best.slope + gamma + trial.slope
  let gap := trial.step - best.step
  let cubic := best.step + p / q * gap
  let parabola := best.step
    + best.slope / ((best.value - trial.value) / gap + best.slope) / 2.0 * gap
  if Scalar.abs (cubic - best.step) ≤ Scalar.abs (parabola - best.step) then cubic
  else cubic + (parabola - cubic) / 2.0

/-- The next step where the slope has changed its sign: the further one of the
cubic and the secant step. -/
def afterTurn (best trial : Reading α) : α :=
  let theta := cubicTheta best trial
  let root := cubicGamma best.slope trial.slope theta
  let gamma := if best.step < trial.step then -root else root
  let p := gamma - trial.slope + theta
  let q := gamma - trial.slope + gamma + best.slope
  let gap := best.step - trial.step
  let cubic := trial.step + p / q * gap
  let secant := trial.step + trial.slope / (trial.slope - best.slope) * gap
  if Scalar.abs (secant - trial.step) < Scalar.abs (cubic - trial.step) then cubic else secant

/-- The next step where the slope flattens: the cubic step if it leads towards
the minimum, and otherwise the end of the interval. A bracketed minimum takes
the nearer one of this and the secant step, but leaves a third of the interval;
otherwise the further one is taken. -/
def afterFlattening (b : Bracket α) (best other trial : Reading α) : α :=
  let theta := cubicTheta best trial
  let s := Scalar.larger (Scalar.larger (Scalar.abs theta) (Scalar.abs best.slope))
    (Scalar.abs trial.slope)
  let root := s * Scalar.sqrt
    (Scalar.larger 0.0 (Scalar.square (theta / s) - best.slope / s * (trial.slope / s)))
  let forwards := decide (best.step < trial.step)
  let gamma := if forwards then -root else root
  let p := gamma - trial.slope + theta
  let q := gamma + (best.slope - trial.slope) + gamma
  let r := p / q
  let gap := best.step - trial.step
  let cubic :=
    if decide (r < 0.0) && !Scalar.sameValue gamma 0.0 then trial.step + r * gap
    else if forwards then b.high else b.low
  let secant := trial.step + trial.slope / (trial.slope - best.slope) * gap
  let cubicGap := Scalar.abs (cubic - trial.step)
  let secantGap := Scalar.abs (secant - trial.step)
  if b.bracketed then
    let next := if cubicGap < secantGap then cubic else secant
    let edge := trial.step + 0.66 * (other.step - trial.step)
    if forwards then Scalar.smaller edge next else Scalar.larger edge next
  else
    Scalar.clamp b.low b.high (if secantGap < cubicGap then cubic else secant)

/-- The next step where the slope does not flatten: the cubic minimum towards
the other end of a bracketed interval, or else the end of the interval. -/
def afterFall (b : Bracket α) (best other trial : Reading α) : α :=
  if b.bracketed then
    let theta := 3.0 * (trial.value - other.value) / (other.step - trial.step)
      + other.slope + trial.slope
    let root := cubicGamma other.slope trial.slope theta
    let gamma := if other.step < trial.step then -root else root
    let p := gamma - trial.slope + theta
    let q := gamma - trial.slope + gamma + other.slope
    trial.step + p / q * (other.step - trial.step)
  else if best.step < trial.step then b.high
  else b.low

/-- Whether two slopes have different signs. -/
def opposed (x y : α) : Bool :=
  (decide (x < 0.0) && decide (0.0 < y)) || (decide (0.0 < x) && decide (y < 0.0))

/-- A new interval, whether it brackets a minimum, and the next step. -/
structure Update (α : Type) where
  (best other : Reading α)
  bracketed : Bool
  next : α

/-- The interval with a trial step taken in. -/
def update (b : Bracket α) (best other trial : Reading α) : Update α :=
  if best.value < trial.value then ⟨best, trial, true, afterRise best trial⟩
  else if opposed trial.slope best.slope then ⟨trial, best, true, afterTurn best trial⟩
  else if Scalar.abs trial.slope < Scalar.abs best.slope then
    ⟨trial, other, b.bracketed, afterFlattening b best other trial⟩
  else ⟨trial, other, b.bracketed, afterFall b best other trial⟩

/-- A reading measured from the line that falls by `fall`. -/
def tilted (fall : α) (r : Reading α) : Reading α :=
  ⟨r.step, r.value - r.step * fall, r.slope - fall⟩

/-- A reading measured again from the level line. -/
def level (fall : α) (r : Reading α) : Reading α :=
  ⟨r.step, r.value + r.step * fall, r.slope + fall⟩

/-- How much the value has to fall with each unit of the step. -/
def fall (rule : LineRule α) (b : Bracket α) : α := rule.decrease * b.origin.slope

/-- What a trial leads to. -/
inductive Verdict (α : Type) where
  /-- The step is good. -/
  | accept
  /-- No step can be found. -/
  | giveUp
  /-- Another step is to be tried. -/
  | tryNext (bracket : Bracket α) (step : α)

/-- Whether the interval cannot be narrowed any further around a step. -/
def isSpent (rule : LineRule α) (b : Bracket α) (step : α) : Bool :=
  b.bracketed && (decide (step ≤ b.low) || decide (b.high ≤ step)
    || decide (b.high - b.low ≤ rule.narrow * b.high))

/-- Whether a trial meets the rule. -/
def meets (rule : LineRule α) (b : Bracket α) (trial : Reading α) : Bool :=
  decide (trial.value ≤ b.origin.value + trial.step * b.fall rule)
    && decide (Scalar.abs trial.slope ≤ rule.curvature * -b.origin.slope)

/-- Whether a trial at the end of the allowed steps asks to go beyond it. -/
def isBlocked (rule : LineRule α) (b : Bracket α) (trial : Reading α) : Bool :=
  let low := decide (trial.value ≤ b.origin.value + trial.step * b.fall rule)
  (Scalar.sameValue trial.step rule.longest && low && decide (trial.slope ≤ b.fall rule))
    || (Scalar.sameValue trial.step rule.shortest
      && (decide (b.origin.value + trial.step * b.fall rule < trial.value)
        || decide (b.fall rule ≤ trial.slope)))

/-- The interval that an update leaves, and the step in it: its middle if the
interval has not shrunk by a third in two rounds, and the best step if the
interval cannot be narrowed. -/
def narrowed (rule : LineRule α) (b : Bracket α) (u : Update α) : Bracket α × α :=
  let span := Scalar.abs (u.other.step - u.best.step)
  let next :=
    if u.bracketed && decide (0.66 * b.widthBefore ≤ span) then
      u.best.step + 0.5 * (u.other.step - u.best.step)
    else u.next
  let b := { b with best := u.best, other := u.other, bracketed := u.bracketed }
  let b :=
    if u.bracketed then
      { b with
        widthBefore := b.width
        width := span
        low := Scalar.smaller u.best.step u.other.step
        high := Scalar.larger u.best.step u.other.step }
    else
      { b with
        low := next + 1.1 * (next - u.best.step)
        high := next + 4.0 * (next - u.best.step) }
  let step := Scalar.clamp rule.shortest rule.longest next
  (b, if b.isSpent rule step then u.best.step else step)

/-- Judges a trial. As long as no step with a low value and a rising slope has
been seen, a value that is lower than the best but not low enough is measured
from the line that falls as much as is asked. -/
def judge (rule : LineRule α) (b : Bracket α) (trial : Reading α) : Verdict α :=
  let bar := b.origin.value + trial.step * b.fall rule
  let early := b.early && !(decide (trial.value ≤ bar) && decide (0.0 ≤ trial.slope))
  if b.meets rule trial then .accept
  else if b.isSpent rule trial.step || b.isBlocked rule trial then .giveUp
  else
    let b := { b with early := early }
    let fall := b.fall rule
    let u :=
      if early && decide (trial.value ≤ b.best.value) && decide (bar < trial.value) then
        let u := b.update (tilted fall b.best) (tilted fall b.other) (tilted fall trial)
        { u with best := level fall u.best, other := level fall u.other }
      else b.update b.best b.other trial
    let (b, step) := b.narrowed rule u
    .tryNext b step

/-- The interval before the first trial. -/
def start (rule : LineRule α) (value slope step : α) : Bracket α :=
  let origin : Reading α := ⟨0.0, value, slope⟩
  let width := rule.longest - rule.shortest
  { origin := origin, best := origin, other := origin, bracketed := false, early := true
    low := 0.0, high := step + 4.0 * step, width := width, widthBefore := width / 0.5 }

/-- A point on the line: what is read there, and whatever else belongs to it. -/
structure Sight (α β : Type) where
  reading : Reading α
  extra : β

/-- Trials until one is good, but at most so many. -/
def trials {β : Type} (rule : LineRule α) (look : α → Sight α β) :
    Nat → Bracket α → α → Option (Sight α β)
  | 0, _, _ => none
  | fuel + 1, b, step =>
    if Scalar.isFinite step then
      let sight := look step
      match b.judge rule sight.reading with
      | .accept => some sight
      | .giveUp => none
      | .tryNext b step => trials rule look fuel b step
    else none

/-- A good step along a line, if one is found within so many trials. The line
has to descend, and the first step to be allowed. -/
def search {β : Type} (rule : LineRule α) (look : α → Sight α β) (fuel : Nat)
    (value slope first : α) : Option (Sight α β) :=
  if decide (first < rule.shortest) || decide (rule.longest < first) || decide (0.0 ≤ slope) then
    none
  else trials rule look fuel (start rule value slope first) first

end Bracket
end SkySources.Minimise
