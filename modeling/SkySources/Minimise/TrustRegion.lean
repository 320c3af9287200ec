import SkySources.Minimise.Damped

/-!
# Least squares in a trust region

Residuals are taken as linear near the best parameters known, and the damped
step of the linear problem is tried. The bound on the length of a step grows
where the prediction holds and shrinks where it does not; a step that gains too
little is not taken. The search ends when the gain, the bound or the slope is
small, or when the evaluations are spent.
-/

namespace SkySources.Minimise
variable {α : Type} [Scalar α]

/-- Residuals and their derivatives, one column for each parameter. -/
structure System (α : Type) where
  residuals : List α → List α
  columns : List α → List (List α)

namespace TrustRegion

/-- The best parameters known, with what belongs to them. -/
structure State (α : Type) where
  params : List α
  residuals : List α
  /-- The length of the residuals. -/
  misfit : α
  /-- The scale of each parameter: the greatest length of its column so far. -/
  scales : List α
  /-- The scaled length of the parameters. -/
  size : α
  /-- The bound on the length of a step. -/
  bound : α
  /-- The parameter that damped the last step. -/
  damping : α
  /-- Whether no step has been taken yet. -/
  first : Bool
  /-- How often the residuals have been evaluated. -/
  evaluations : Nat

/-- The parameters and residuals that a search ended with. -/
structure Result (α : Type) where
  params : List α
  residuals : List α
  converged : Bool
  /-- How often the residuals were evaluated. -/
  evaluations : Nat

namespace State

/-- The result of ending here. -/
def result (s : State α) (converged : Bool) : Result α :=
  ⟨s.params, s.residuals, converged, s.evaluations⟩

/-- The factors of the linear problem near given parameters. -/
def factor (system : System α) (params residuals : List α) : Factor α :=
  Factor.of (system.columns params) residuals

/-- The scaled length of a vector. -/
def scaledNorm (scales xs : List α) : α := norm (scales.zipWith (· * ·) xs)

/-- The state at the start, which trusts steps a hundred times as long as the
parameters. -/
def start (params residuals lengths : List α) : State α :=
  let scales := lengths.map fun d => if Scalar.sameValue d 0.0 then 1.0 else d
  let size := scaledNorm scales params
  let bound := 100.0 * size
  { params := params
    residuals := residuals
    misfit := norm residuals
    scales := scales
    size := size
    bound := if Scalar.sameValue bound 0.0 then 100.0 else bound
    damping := 0.0
    first := true
    evaluations := 1 }

/-- The state with its scales raised to the lengths of new columns. -/
def rescaled (s : State α) (lengths : List α) : State α :=
  { s with scales := s.scales.zipWith Scalar.larger lengths }

end State

/-- The largest cosine between the residuals and a column. -/
def slope (f : Factor α) (misfit : α) : α :=
  if Scalar.sameValue misfit 0.0 then 0.0
  else
    let shares := f.transposedTimes (f.rhs.map (· / misfit))
    ((f.columns.zip shares).filter fun cs => !Scalar.sameValue cs.1.full 0.0).foldl
      (fun best cs => Scalar.larger best (Scalar.abs (cs.2 / cs.1.full))) 0.0

/-- A step that was tried: how much it gained, how much was foreseen, and the
state it leads to. -/
structure Trial (α : Type) where
  gain : α
  foreseen : α
  ratio : α
  taken : Bool
  state : State α

/-- The factor by which the bound shrinks after a poor step. -/
def shrinkage (s : State α) (misfit gain descent : α) : α :=
  let t := if 0.0 ≤ gain then 0.5 else 0.5 * descent / (descent + 0.5 * gain)
  if decide (s.misfit ≤ 0.1 * misfit) || decide (t < 0.1) then 0.1 else t

/-- The bound and the damping after a step of some length. -/
def adapt (s : State α) (damping ratio misfit gain descent size : α) : α × α :=
  if ratio ≤ 0.25 then
    let t := shrinkage s misfit gain descent
    (t * Scalar.smaller s.bound (size / 0.1), damping / t)
  else if Scalar.sameValue damping 0.0 || decide (0.75 ≤ ratio) then (size / 0.5, 0.5 * damping)
  else (s.bound, damping)

/-- Tries the damped step of the linear problem. -/
def attempt (system : System α) (f : Factor α) (s : State α) : Trial α :=
  let damped := DampedStep.of f s.scales s.bound s.damping
  let step := negated damped.step
  let size := State.scaledNorm s.scales step
  let s := if s.first then { s with bound := Scalar.smaller s.bound size } else s
  let params := plus s.params step
  let residuals := system.residuals params
  let misfit := norm residuals
  let gain := if 0.1 * misfit < s.misfit then 1.0 - Scalar.square (misfit / s.misfit) else -1.0
  let linear := Scalar.square (norm (f.times (f.gather step)) / s.misfit)
  let damping := Scalar.square (Scalar.sqrt damped.parameter * size / s.misfit)
  let foreseen := linear + damping / 0.5
  let ratio := if Scalar.sameValue foreseen 0.0 then 0.0 else gain / foreseen
  let (bound, parameter) := adapt s damped.parameter ratio misfit gain (-(linear + damping)) size
  let s := { s with bound := bound, damping := parameter, evaluations := s.evaluations + 1 }
  if 1e-4 ≤ ratio then
    ⟨gain, foreseen, ratio, true,
      { s with params := params, residuals := residuals, misfit := misfit,
               size := State.scaledNorm s.scales params, first := false }⟩
  else ⟨gain, foreseen, ratio, false, s⟩

/-- Whether a trial shows that the search is at its end. -/
def Trial.isLast (t : Trial α) (tolerance : α) : Bool :=
  (decide (Scalar.abs t.gain ≤ tolerance) && decide (t.foreseen ≤ tolerance)
      && decide (0.5 * t.ratio ≤ 1.0))
    || decide (t.state.bound ≤ tolerance * t.state.size)

/-- Trials until the end, but at most so many; the linear problem is kept as
long as no step is taken. -/
def trials (system : System α) (tolerance : α) :
    Nat → Factor α → State α → Result α
  | 0, _, s => s.result false
  | budget + 1, f, s =>
    let t := attempt system f s
    if t.isLast tolerance then t.state.result true
    else if !t.taken then trials system tolerance budget f t.state
    else if budget = 0 then t.state.result false
    else
      let f := State.factor system t.state.params t.state.residuals
      if slope f t.state.misfit ≤ tolerance then t.state.result true
      else trials system tolerance budget f (t.state.rescaled f.lengths)

/-- The search from given parameters, with at most so many evaluations of the
residuals; one trial is made in any case. -/
def search (system : System α) (tolerance : α) (evaluations : Nat) (params : List α) : Result α :=
  let residuals := system.residuals params
  let f := State.factor system params residuals
  let s := State.start params residuals f.lengths
  if slope f s.misfit ≤ tolerance then s.result true
  else trials system tolerance (max 1 (evaluations - 1)) f s

end TrustRegion
end SkySources.Minimise
