import Mathlib
import SkySources.Fit
import SkySources.Proofs.Double.Magnitude

/-!
# The range of normal angles of doubles

With doubles, a normal angle is computed with roundings: the number pi is one of them, and
half a turn is added or taken away. Sums of doubles keep the order of their terms, so it is
enough to know them at the ends of the interval, where they can be computed. No rounding
leads out of the interval, and its lower end is never reached.

What is proved:
  1. `isFinite_add_quarter`: a quarter turn more never makes an angle infinite;
  2. `place_leftOver`: the division leaves half a turn at most;
  3. `normaliseAngle_between`: so the angle is above minus and up to plus a quarter turn.
-/

namespace SkySources.Fit

open Double

/-- A quarter turn, as it is computed. -/
def quarter : Float := Scalar.pi / 2.0

/-- A quarter turn the other way, as it is computed. -/
def quarterBack : Float := -Scalar.pi / 2.0

/-- The largest double. -/
def largest : Float := Float.ofBits 0x7FEFFFFFFFFFFFFF

/-- The next double after a quarter turn. -/
def afterQuarter : Float := Float.ofBits (quarter.toBits + 1)

theorem place_pi : 0 < place Scalar.pi ∧ place Scalar.pi < top := by decide +kernel

theorem isFinite_pi : (Scalar.pi : Float).isFinite = true := by decide +kernel

theorem place_quarter : 0 < place quarter ∧ place quarter < top := by decide +kernel

theorem place_quarterBack : place quarterBack = -place quarter := by decide +kernel

/-- A quarter turn more never makes an angle infinite. -/
theorem isFinite_add_quarter {x : Float} (hx : x.isFinite = true) :
    (x + quarter).isFinite = true := by
  have hquarter : quarter.isFinite = true := by decide +kernel
  have hlargest : largest.isFinite = true ∧ place largest = top - 1 ∧
      place (largest + quarter) < top := by decide +kernel
  have hleast : (-largest).isFinite = true ∧ place (-largest) = -top + 1 ∧
      -top < place (-largest + quarter) := by decide +kernel
  obtain ⟨hlow, hhigh⟩ := isFinite_iff.1 hx
  have hup := place_add_mono hx hlargest.1 hquarter (by omega)
  have hdown := place_add_mono hleast.1 hx hquarter (by omega)
  exact isFinite_iff.2 ⟨by omega, by omega⟩

/-- The division of an angle leaves half a turn at most. -/
theorem place_leftOver {x : Float} (hx : x.isFinite = true) :
    |place (Binary.remainder x Scalar.pi)| ≤ place Scalar.pi :=
  abs_place_remainder hx isFinite_pi place_pi.1

/-- The normal angle of a double lies above minus and up to plus a quarter turn. -/
theorem normaliseAngle_between {x : Float} (hx : x.isFinite = true) :
    quarterBack < normaliseAngle x ∧ normaliseAngle x ≤ quarter := by
  have hpi := place_pi
  have hquarter := place_quarter
  have hback := place_quarterBack
  have hleft := abs_le.1 (place_leftOver hx)
  set rest := Binary.remainder x Scalar.pi with hrest
  have hfinite : rest.isFinite = true := isFinite_iff.2 ⟨by omega, by omega⟩
  have hup : quarter < rest ↔ place quarter < place rest := by
    rw [lt_iff]
    exact and_iff_left (by omega)
  have hdown : rest ≤ quarterBack ↔ place rest ≤ -place quarter := by
    rw [le_iff, hback]
    exact and_iff_left (by omega)
  -- the sums at the ends of the interval
  have hafter : afterQuarter.isFinite = true ∧ place afterQuarter = place quarter + 1 ∧
      -place quarter < place (afterQuarter - Scalar.pi) ∧
      place (Scalar.pi - Scalar.pi : Float) ≤ place quarter := by decide +kernel
  have hbefore : quarterBack.isFinite = true ∧ (-Scalar.pi : Float).isFinite = true ∧
      place (-Scalar.pi : Float) = -place Scalar.pi ∧
      place (quarterBack + Scalar.pi) ≤ place quarter ∧
      -place quarter < place (-Scalar.pi + Scalar.pi : Float) := by decide +kernel
  have hangle : normaliseAngle x =
      if quarter < rest then rest - Scalar.pi
      else if rest ≤ quarterBack then rest + Scalar.pi else rest := rfl
  have hbetween : -place quarter < place (normaliseAngle x) ∧
      place (normaliseAngle x) ≤ place quarter := by
    rw [hangle]
    split
    · next habove =>
      have hlow := place_sub_mono hafter.1 hfinite isFinite_pi (by rw [hup] at habove; omega)
      have hhigh := place_sub_mono hfinite isFinite_pi isFinite_pi hleft.2
      omega
    · next habove =>
      split
      · next hbelow =>
        have hlow := place_add_mono hbefore.2.1 hfinite isFinite_pi (by omega)
        have hhigh := place_add_mono hfinite hbefore.1 isFinite_pi (by rw [hdown] at hbelow; omega)
        omega
      · next hbelow =>
        rw [hup] at habove
        rw [hdown] at hbelow
        omega
  rw [lt_iff, le_iff, hback]
  omega

end SkySources.Fit
