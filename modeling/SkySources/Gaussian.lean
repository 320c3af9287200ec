import SkySources.Grid
import SkySources.Scalar

/-!
# Elliptical Gaussians

A Gaussian has an amplitude, a centre, the standard deviations along its major
and minor axes, and the angle of the major axis, from the direction of growing
columns towards that of growing rows. Its value is the amplitude times the
exponential of minus a quadratic form of the distance from the centre.

The derivatives along the six parameters are a record of the same shape, one
entry per parameter.
-/

namespace SkySources

/-- The six parameters of an elliptical Gaussian, or one number for each. -/
structure Gaussian (α : Type) where
  /-- The value at the centre. -/
  amplitude : α
  /-- The column of the centre. -/
  xCentre : α
  /-- The row of the centre. -/
  yCentre : α
  /-- The standard deviation along the major axis. -/
  semimajor : α
  /-- The standard deviation along the minor axis. -/
  semiminor : α
  /-- The angle of the major axis. -/
  theta : α

namespace Gaussian
variable {α β : Type}

/-- The parameters in their order. -/
def toList (g : Gaussian α) : List α :=
  [g.amplitude, g.xCentre, g.yCentre, g.semimajor, g.semiminor, g.theta]

/-- Six numbers, in the order of the parameters. -/
def ofList? : List α → Option (Gaussian α)
  | [a, x, y, s, t, h] => some ⟨a, x, y, s, t, h⟩
  | _ => none

/-- A function applied to each parameter. -/
def map (f : α → β) (g : Gaussian α) : Gaussian β :=
  ⟨f g.amplitude, f g.xCentre, f g.yCentre, f g.semimajor, f g.semiminor, f g.theta⟩

/-- A function applied to each pair of entries of one parameter. -/
def zipWith {γ : Type} (f : α → β → γ) (g : Gaussian α) (h : Gaussian β) : Gaussian γ :=
  ⟨f g.amplitude h.amplitude, f g.xCentre h.xCentre, f g.yCentre h.yCentre,
    f g.semimajor h.semimajor, f g.semiminor h.semiminor, f g.theta h.theta⟩

/-- For each parameter, the Gaussian in which only that one is changed. -/
def changed (f : α → α) (g : Gaussian α) : Gaussian (Gaussian α) :=
  { amplitude := { g with amplitude := f g.amplitude }
    xCentre := { g with xCentre := f g.xCentre }
    yCentre := { g with yCentre := f g.yCentre }
    semimajor := { g with semimajor := f g.semimajor }
    semiminor := { g with semiminor := f g.semiminor }
    theta := { g with theta := f g.theta } }

variable [Scalar α]

/-- Whether every parameter is finite. -/
def isFinite (g : Gaussian α) : Bool := g.toList.all Scalar.isFinite

end Gaussian

/-- The quadratic form `a dx² + 2 b dx dy + c dy²`. -/
structure QuadraticForm (α : Type) where
  (a b c : α)

namespace QuadraticForm
variable {α : Type} [Scalar α]

/-- The value of the form. -/
def eval (q : QuadraticForm α) (dx dy : α) : α :=
  q.a * Scalar.square dx + 2.0 * q.b * dx * dy + q.c * Scalar.square dy

end QuadraticForm

namespace Gaussian
variable {α : Type} [Scalar α]

/-- The form in the exponent: the ellipse of the two axes, turned by the angle. -/
def form (g : Gaussian α) : QuadraticForm α :=
  let cos2 := Scalar.square (Scalar.cos g.theta)
  let sin2 := Scalar.square (Scalar.sin g.theta)
  let major := 1.0 / Scalar.square g.semimajor
  let minor := 1.0 / Scalar.square g.semiminor
  { a := 0.5 * (cos2 * major + sin2 * minor)
    b := 0.25 * Scalar.sin (2.0 * g.theta) * (major - minor)
    c := 0.5 * (sin2 * major + cos2 * minor) }

/-- The bell of height one over a point, for a given form. -/
def bell (g : Gaussian α) (q : QuadraticForm α) (x y : α) : α :=
  Scalar.exp (-(q.eval (x - g.xCentre) (y - g.yCentre)))

/-- The value at a point, for a given form. -/
def valueWith (g : Gaussian α) (q : QuadraticForm α) (x y : α) : α := g.amplitude * g.bell q x y

/-- The value at a point. -/
def value (g : Gaussian α) (x y : α) : α := g.valueWith g.form x y

/-- The form and its derivatives along the two axes and the angle. -/
structure Slopes (α : Type) where
  (form alongMajor alongMinor alongTheta : QuadraticForm α)

/-- The form and its derivatives at given parameters. -/
def slopes (g : Gaussian α) : Slopes α :=
  let cos2 := Scalar.square (Scalar.cos g.theta)
  let sin2 := Scalar.square (Scalar.sin g.theta)
  let sinTwice := Scalar.sin (2.0 * g.theta)
  let cosTwice := Scalar.cos (2.0 * g.theta)
  let major3 := Scalar.cube g.semimajor
  let minor3 := Scalar.cube g.semiminor
  let major := 1.0 / Scalar.square g.semimajor
  let minor := 1.0 / Scalar.square g.semiminor
  { form := g.form
    alongMajor := ⟨-cos2 / major3, -0.5 * sinTwice / major3, -sin2 / major3⟩
    alongMinor := ⟨-sin2 / minor3, 0.5 * sinTwice / minor3, -cos2 / minor3⟩
    alongTheta := ⟨0.5 * sinTwice * (minor - major), 0.5 * cosTwice * (major - minor),
      0.5 * sinTwice * (major - minor)⟩ }

/-- The derivatives of the value at a point, for given slopes of the form. -/
def derivativesWith (g : Gaussian α) (s : Slopes α) (x y : α) : Gaussian α :=
  let dx := x - g.xCentre
  let dy := y - g.yCentre
  let bell := g.bell s.form x y
  let shape (q : QuadraticForm α) := -g.amplitude * bell * q.eval dx dy
  { amplitude := bell
    xCentre := 2.0 * g.amplitude * bell * (s.form.a * dx + s.form.b * dy)
    yCentre := 2.0 * g.amplitude * bell * (s.form.b * dx + s.form.c * dy)
    semimajor := shape s.alongMajor
    semiminor := shape s.alongMinor
    theta := shape s.alongTheta }

/-- The derivatives of the value at a point along each of the parameters. -/
def derivatives (g : Gaussian α) (x y : α) : Gaussian α := g.derivativesWith g.slopes x y

/-- The Gaussian on a grid: the column is `x` and the row is `y`. -/
def onGrid (g : Gaussian α) (rows cols : Nat) : Grid rows cols α :=
  let q := g.form
  Grid.ofFn fun p => g.valueWith q (Scalar.ofNat p.col.val) (Scalar.ofNat p.row.val)

end Gaussian
end SkySources
