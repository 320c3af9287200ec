import SkySources.Settings.Quantity
import SkySources.Proofs.Double.Whole

/-!
# Quantities in order

Quantities are compared exactly, whole numbers by their digits; what a search works
with are the nearest doubles. Rounding to a double keeps order, so the doubles of
quantities that are in order are in order too (`place_toFloat_le`).
-/

namespace SkySources

namespace Binary

theorem signed_scale (b : Binary) (k j : Nat) : b.signed k * 2 ^ j = b.signed (k * 2 ^ j) := by
  unfold signed
  split
  · rw [Int.neg_mul]
    rfl
  · rfl

/-- A comparison of a whole number with the digits of a double, on one scale. -/
theorem mul_unity {b : Binary} (hlow : -1074 ≤ b.exponent) (n : Int) :
    ∃ j : Nat,
      n * Nat.pow 2 (-b.exponent).toNat * 2 ^ j = n * Double.unity ∧
      b.signed (b.significand * Nat.pow 2 b.exponent.toNat) * 2 ^ j =
        b.signed (b.significand * 2 ^ (b.exponent + 2148).toNat) := by
  refine ⟨2148 - (-b.exponent).toNat, ?_, ?_⟩
  · rw [Int.mul_assoc, Nat.pow_eq, Nat.cast_pow, Nat.cast_two, ← pow_add,
      ← Double.two_pow_eq_unity (k := (-b.exponent).toNat + (2148 - (-b.exponent).toNat))
        (by omega)]
    rfl
  · rw [signed_scale, Nat.pow_eq, Nat.mul_assoc, ← Nat.pow_add]
    congr 3
    omega

end Binary

namespace Quantity
open Double

variable {a b : Quantity}

/-- The first quantity is a number, and the second does not lie below it. -/
def AtMost (a b : Quantity) : Prop := Scalar.isNumber a.toFloat = true ∧ b.isBelow a = false

/-- The double of a quantity that another one does not lie below comes no later. -/
theorem place_toFloat_le (h : b.isBelow a = false) (hn : place a.toFloat ≤ top) :
    place a.toFloat ≤ place b.toFloat := by
  have htop := top_pos
  cases b with
  | whole m =>
    cases a with
    | whole n =>
      have hle : n ≤ m := not_lt.1 (of_decide_eq_false h)
      rw [toFloat, toFloat, place_ofInt, place_ofInt]
      exact standing_mono (Int.mul_le_mul_of_nonneg_right hle (Int.natCast_nonneg _))
    | float y =>
      show place y ≤ place (Float.ofInt m)
      change place y ≤ top at hn
      rw [isBelow] at h
      cases hy : Binary.ofFloat? y with
      | some d =>
        obtain ⟨hlow, hplace⟩ := place_eq_standing hy
        obtain ⟨j, hwhole, hdigits⟩ := Binary.mul_unity hlow m
        rw [hy] at h
        have hle := Int.mul_le_mul_of_nonneg_right (not_lt.1 (of_decide_eq_false h))
          (pow_nonneg (show (0 : Int) ≤ 2 by decide) j)
        rw [hwhole, hdigits] at hle
        rw [hplace, place_ofInt]
        exact standing_mono hle
      | none =>
        -- of the infinities only the negative one does not lie above zero
        rw [hy] at h
        have hlt : ¬(0.0 : Float) < y := of_decide_eq_false h
        rw [lt_iff, place_zero] at hlt
        rcases place_of_ofFloat?_eq_none hy with hlow | hhigh
        · rw [hlow]
          exact neg_top_le_place _
        · exact absurd ⟨by omega, hn⟩ hlt
  | float x =>
    cases a with
    | whole n =>
      show place (Float.ofInt n) ≤ place x
      change place (Float.ofInt n) ≤ top at hn
      rw [isBelow] at h
      cases hx : Binary.ofFloat? x with
      | some d =>
        obtain ⟨hlow, hplace⟩ := place_eq_standing hx
        obtain ⟨j, hwhole, hdigits⟩ := Binary.mul_unity hlow n
        rw [hx] at h
        have hle := Int.mul_le_mul_of_nonneg_right (not_lt.1 (of_decide_eq_false h))
          (pow_nonneg (show (0 : Int) ≤ 2 by decide) j)
        rw [hwhole, hdigits] at hle
        rw [hplace, place_ofInt]
        exact standing_mono hle
      | none =>
        rw [hx] at h
        have hlt : ¬x < (0.0 : Float) := of_decide_eq_false h
        rw [lt_iff, place_zero] at hlt
        rcases place_of_ofFloat?_eq_none hx with hlow | hhigh
        · exact absurd ⟨by omega, htop.le⟩ hlt
        · exact hn.trans hhigh
    | float y =>
      have hlt : ¬x < y := of_decide_eq_false h
      rw [lt_iff] at hlt
      show place y ≤ place x
      by_contra hgt
      exact hlt ⟨not_le.1 hgt, hn⟩

theorem AtMost.place_le (h : a.AtMost b) : place a.toFloat ≤ place b.toFloat :=
  place_toFloat_le h.2 (le_iff.1 (of_decide_eq_true h.1)).2

theorem isBelow_asymm (h : a.isBelow b = true) : b.isBelow a = false := by
  cases a with
  | whole m =>
    cases b with
    | whole n => exact decide_eq_false (not_lt.2 (of_decide_eq_true h).le)
    | float y =>
      simp only [isBelow] at h ⊢
      cases hy : Binary.ofFloat? y with
      | some d =>
        rw [hy] at h
        exact decide_eq_false (not_lt.2 (of_decide_eq_true h).le)
      | none =>
        rw [hy] at h
        exact decide_eq_false (lt_asymm_double (of_decide_eq_true h))
  | float x =>
    cases b with
    | whole n =>
      simp only [isBelow] at h ⊢
      cases hx : Binary.ofFloat? x with
      | some d =>
        rw [hx] at h
        exact decide_eq_false (not_lt.2 (of_decide_eq_true h).le)
      | none =>
        rw [hx] at h
        exact decide_eq_false (lt_asymm_double (of_decide_eq_true h))
    | float y => exact decide_eq_false (lt_asymm_double (of_decide_eq_true h))

theorem place_toFloat_zero : place (whole 0).toFloat = 0 := by
  rw [toFloat, place_ofInt, Int.zero_mul, standing_zero]

/-- A quantity that is not below zero has such a double, or none. -/
theorem place_toFloat_nonneg (h : a.isBelow (whole 0) = false) : 0 ≤ place a.toFloat := by
  have hle := place_toFloat_le h (place_toFloat_zero.trans_le top_pos.le)
  rwa [place_toFloat_zero] at hle

end Quantity
end SkySources
