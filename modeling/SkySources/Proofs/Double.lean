import Mathlib
import SkySources.Scalar

/-!
# Doubles that are not finite

A difference of doubles is only finite if its first term is, so a value that is
not finite never has a finite distance from a background.
-/

namespace SkySources.Double

open Float.Model

theorem isFinite_pack_notANumber : (pack .notANumber).unpack.isFinite = false := by
  decide +kernel

theorem isFinite_pack_infinity (s : UnpackedFloat.Sign) :
    (pack (.infinity s)).unpack.isFinite = false := by
  cases s <;> decide +kernel

/-- Nothing can be taken from infinity that leaves a finite number. -/
theorem sub_infinity (spec : Format) (s : UnpackedFloat.Sign) (y : UnpackedFloat) :
    UnpackedFloat.sub spec (.infinity s) y = .notANumber ∨
      UnpackedFloat.sub spec (.infinity s) y = .infinity s := by
  cases y with
  | notANumber => exact .inl rfl
  | zero t => exact .inr rfl
  | finite t m e hm => exact .inr rfl
  | infinity t =>
    simp only [UnpackedFloat.sub]
    split
    · exact .inr rfl
    · exact .inl rfl

/-- A difference whose first term is not finite is not finite. -/
theorem isFinite_of_isFinite_sub {x y : Float} (h : (x - y).isFinite = true) :
    x.isFinite = true := by
  change (pack (UnpackedFloat.sub _ x.toModel.unpack y.toModel.unpack)).unpack.isFinite = true at h
  change x.toModel.unpack.isFinite = true
  cases hx : x.toModel.unpack with
  | zero s => rfl
  | finite s m e hm => rfl
  | notANumber =>
    rw [hx, UnpackedFloat.sub, isFinite_pack_notANumber] at h
    cases h
  | infinity s =>
    rw [hx] at h
    rcases sub_infinity _ s y.toModel.unpack with he | he
    · rw [he, isFinite_pack_notANumber] at h
      cases h
    · rw [he, isFinite_pack_infinity] at h
      cases h

end SkySources.Double
