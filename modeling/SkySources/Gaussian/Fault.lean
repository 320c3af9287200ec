import SkySources.Gaussian

/-!
# Gaussians that cannot be evaluated

Where parameters and points are given one by one, a division by zero and a
power too large for a number are faults, and not infinities. The axes are
looked at in their order, the major axis first. A point is at fault if the
square of its distance from the centre overflows.
-/

namespace SkySources.Gaussian
variable {α : Type} [Scalar α]

/-- Why a Gaussian has no value. -/
inductive Fault where
  | divisionByZero
  | overflow
  deriving DecidableEq, Repr

/-- A power of a finite number that is not finite is at fault. -/
def overflows (base power : α) : Bool := Scalar.isFinite base && !Scalar.isFinite power

/-- The fault of dividing by the square of an axis. -/
def axisFault (axis : α) : Option Fault :=
  if overflows axis (Scalar.square axis) then some .overflow
  else if Scalar.sameValue (Scalar.square axis) 0.0 then some .divisionByZero
  else none

/-- The fault of the form in the exponent. -/
def formFault (g : Gaussian α) : Option Fault :=
  (axisFault g.semimajor).orElse fun _ => axisFault g.semiminor

/-- The fault of the derivatives of the form, which also take third powers. -/
def slopesFault (g : Gaussian α) : Option Fault :=
  g.formFault.orElse fun _ =>
    if overflows g.semimajor (Scalar.cube g.semimajor)
      || overflows g.semiminor (Scalar.cube g.semiminor) then some .overflow
    else none

/-- The fault of a point. -/
def pointFault (g : Gaussian α) (x y : α) : Option Fault :=
  let dx := x - g.xCentre
  let dy := y - g.yCentre
  if overflows dx (Scalar.square dx) || overflows dy (Scalar.square dy) then some .overflow
  else none

/-- A result, unless there is a fault. -/
def guarded {β : Type} (fault : Option Fault) (result : β) : Except Fault β :=
  match fault with
  | some f => .error f
  | none => .ok result

/-- The form in the exponent, or its fault. -/
def form? (g : Gaussian α) : Except Fault (QuadraticForm α) := guarded g.formFault g.form

/-- The values at a list of points, or the first fault. -/
def values? (g : Gaussian α) (points : List (α × α)) : Except Fault (List α) :=
  guarded (g.formFault.orElse fun _ => points.findSome? fun p => g.pointFault p.1 p.2)
    (points.map fun p => g.value p.1 p.2)

/-- The derivatives at a list of points, or the first fault. -/
def derivatives? (g : Gaussian α) (points : List (α × α)) : Except Fault (List (Gaussian α)) :=
  guarded (g.slopesFault.orElse fun _ => points.findSome? fun p => g.pointFault p.1 p.2)
    (points.map fun p => g.derivatives p.1 p.2)

/-- The Gaussian on a grid, or the fault of its form. -/
def onGrid? (g : Gaussian α) (rows cols : Nat) : Except Fault (Grid rows cols α) :=
  guarded g.formFault (g.onGrid rows cols)

end SkySources.Gaussian
