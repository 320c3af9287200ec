import SkySources.Proofs.Double.Sum

/-!
# Doubles that are not negative

Among doubles that are not negative, nothing goes missing: their sums, products and
square roots are not negative either, and they may be infinite but never missing. Only
zero by infinity has no product. Signs of a unit are exact: they turn a double over or
leave it alone.

What is proved:
  1. `place_add_between`, `place_mul_between`, `place_sqrt_between`: sums, products and
     square roots;
  2. `place_abs`: the distance of a double from zero;
  3. `place_unit_mul`: the product with one and with minus one.
-/

namespace SkySources.Double

open Float.Model Float.Model.UnpackedFloat

/-! ## Numbers that are stored -/

theorem unpack_ne_notANumber {b : BitVec Format.binary64.numBits} (h : unpackExponent b ≠ -1#11) :
    UnpackedFloat.unpack .binary64 b ≠ .notANumber := by
  rw [UnpackedFloat.unpack, if_neg h]
  split
  · split <;> exact UnpackedFloat.noConfusion
  · exact UnpackedFloat.noConfusion

/-- What is a number is stored as one. -/
theorem unpack_pack_ne_notANumber {u : UnpackedFloat} (h : u ≠ .notANumber) :
    (pack u).unpack ≠ .notANumber := by
  cases u with
  | notANumber => exact absurd rfl h
  | infinity s =>
    rw [unpack_pack_of_canonical (u := .infinity s) trivial]
    exact UnpackedFloat.noConfusion
  | zero s =>
    rw [unpack_pack_of_canonical (u := .zero s) trivial]
    exact UnpackedFloat.noConfusion
  | finite s m e hm =>
    change UnpackedFloat.unpack .binary64 (UnpackedFloat.pack .binary64 (.finite s m e hm)) ≠ _
    rw [UnpackedFloat.pack]
    split
    · cases s <;> exact UnpackedFloat.noConfusion
    · next hexponent =>
      split
      · apply unpack_ne_notANumber
        rw [unpackExponent_packComponents]
        intro hbits
        have hnat := congrArg BitVec.toNat hbits
        rw [toNat_ofNat_exponent (by change ¬2 ^ 11 ≤ _ at hexponent; omega)] at hnat
        change _ = 2047 at hnat
        change ¬2 ^ 11 ≤ _ at hexponent
        omega
      · apply unpack_ne_notANumber
        rw [unpackExponent_packComponents]
        decide

/-! ## Sums, products and square roots -/

theorem standing_between {z : Int} (h : 0 ≤ z) : 0 ≤ standing z ∧ standing z ≤ top := by
  have hzero := standing_mono h
  rw [standing_zero] at hzero
  refine ⟨hzero, ?_⟩
  rw [standing, if_pos h]
  exact min_le_left _ _

theorem measure_nonneg {u : UnpackedFloat} (hu : Canonical u) (h : 0 ≤ rank u) : 0 ≤ measure u := by
  cases u with
  | finite s m e hm =>
    have hpos := hu.1.spot_pos hm
    cases s
    · simp only [rank, apply_negative] at h
      omega
    · exact Int.natCast_nonneg _
  | _ => exact le_refl 0

/-- What is not negative is zero, has digits, or is infinite. -/
theorem nonneg_cases {u : UnpackedFloat} (hu : Canonical u) (h : 0 ≤ rank u ∧ rank u ≤ top) :
    (∃ s, u = .zero s) ∨ (∃ m e hm, u = .finite .positive m e hm) ∨ u = .infinity .positive := by
  cases u with
  | notANumber => exact absurd h.2 (by decide)
  | zero s => exact .inl ⟨s, rfl⟩
  | infinity s =>
    cases s
    · exact absurd h.1 (by decide)
    · exact .inr (.inr rfl)
  | finite s m e hm =>
    have hpos := hu.1.spot_pos hm
    cases s
    · simp only [rank, apply_negative] at h
      omega
    · exact .inr (.inl ⟨m, e, hm, rfl⟩)

section Unpacked
variable {u v : UnpackedFloat} (hu : Canonical u) (hv : Canonical v)
  (h : 0 ≤ rank u ∧ rank u ≤ top) (h' : 0 ≤ rank v ∧ rank v ≤ top)

include hu hv h h' in
theorem rank_add_between : 0 ≤ rank (pack (UnpackedFloat.add .binary64 u v)).unpack ∧
    rank (pack (UnpackedFloat.add .binary64 u v)).unpack ≤ top := by
  have htop := top_pos
  have hinfinity : 0 ≤ rank (pack (.infinity .positive)).unpack ∧
      rank (pack (.infinity .positive)).unpack ≤ top := by decide +kernel
  by_cases hfinite : rank u < top ∧ rank v < top
  · rw [rank_add hu hv (by omega) (by omega)]
    exact standing_between (Int.mul_nonneg
      (Int.add_nonneg (measure_nonneg hu h.1) (measure_nonneg hv h'.1)) (Int.natCast_nonneg _))
  · -- one of them is infinite, and so is the sum
    have hsum : UnpackedFloat.add .binary64 u v = .infinity .positive := by
      rcases nonneg_cases hu h with ⟨s, rfl⟩ | ⟨m, e, hm, rfl⟩ | rfl
      · rcases nonneg_cases hv h' with ⟨t, rfl⟩ | ⟨n, f, hn, rfl⟩ | rfl
        · exact absurd ⟨htop, htop⟩ hfinite
        · exact absurd ⟨htop, (rank_between hv).2⟩ hfinite
        · rfl
      · rcases nonneg_cases hv h' with ⟨t, rfl⟩ | ⟨n, f, hn, rfl⟩ | rfl
        · exact absurd ⟨(rank_between hu).2, htop⟩ hfinite
        · exact absurd ⟨(rank_between hu).2, (rank_between hv).2⟩ hfinite
        · rfl
      · rcases nonneg_cases hv h' with ⟨t, rfl⟩ | ⟨n, f, hn, rfl⟩ | rfl <;> rfl
    rw [hsum]
    exact hinfinity

include hu hv h h' in
/-- Zero by infinity is the only product that is missing. -/
theorem rankMul_between (hpos : 0 < rank u) (hmeet : rank u < top ∨ 0 < rank v) :
    0 ≤ rankMul u v ∧ rankMul u v ≤ top := by
  refine ⟨rankMul_nonneg hu hv h.1 h'.1, ?_⟩
  rcases nonneg_cases hu h with ⟨s, rfl⟩ | ⟨m, e, hm, rfl⟩ | rfl
  · exact absurd hpos (lt_irrefl 0)
  · rcases nonneg_cases hv h' with ⟨t, rfl⟩ | ⟨n, f, hn, rfl⟩ | rfl
    · rw [rankMul_zero_right hu, if_pos (rank_between hu)]
      exact top_pos.le
    · rw [rankMul_finite hu hv]
      exact min_le_left _ _
    · rw [rankMul_of_mul_eq (w := .infinity .positive) trivial rfl]
      exact le_refl top
  · rcases nonneg_cases hv h' with ⟨t, rfl⟩ | ⟨n, f, hn, rfl⟩ | rfl
    · rcases hmeet with hlt | hlt
      · exact absurd hlt (lt_irrefl top)
      · exact absurd hlt (lt_irrefl 0)
    · rw [rankMul_of_mul_eq (w := .infinity .positive) trivial rfl]
      exact le_refl top
    · rw [rankMul_of_mul_eq (w := .infinity .positive) trivial rfl]
      exact le_refl top

include hu h in
theorem sqrt_ne_notANumber : UnpackedFloat.sqrt .binary64 u ≠ .notANumber := by
  rcases nonneg_cases hu h with ⟨s, rfl⟩ | ⟨m, e, hm, rfl⟩ | rfl
  · exact UnpackedFloat.noConfusion
  · simp only [UnpackedFloat.sqrt, roundWithAccuracy]
    split <;> exact UnpackedFloat.noConfusion
  · exact UnpackedFloat.noConfusion

end Unpacked

section Doubles
variable {x y : Float} (hx : 0 ≤ place x ∧ place x ≤ top) (hy : 0 ≤ place y ∧ place y ≤ top)

include hx hy in
theorem place_add_between : 0 ≤ place (x + y) ∧ place (x + y) ≤ top :=
  rank_add_between (canonical_toModel x) (canonical_toModel y) hx hy

include hx hy in
theorem place_mul_between (hpos : 0 < place x) (hmeet : place x < top ∨ 0 < place y) :
    0 ≤ place (x * y) ∧ place (x * y) ≤ top :=
  rankMul_between (canonical_toModel x) (canonical_toModel y) hx hy hpos hmeet

include hx in
theorem place_sqrt_between : 0 ≤ place x.sqrt ∧ place x.sqrt ≤ top :=
  ⟨place_sqrt_nonneg x, (rank_le_top (canonical_toModel _)).2
    (unpack_pack_ne_notANumber (sqrt_ne_notANumber (canonical_toModel x) hx))⟩

end Doubles

/-! ## Signs -/

/-- The distance of a number from zero. -/
theorem place_abs {x : Float} (hx : x.isFinite = true) : place (Scalar.abs x) = |place x| := by
  have htop := top_pos
  have hfinite := isFinite_iff.1 hx
  have hlt : x < 0.0 ↔ place x < 0 := by
    rw [lt_iff, place_zero]
    exact and_iff_left htop.le
  rw [Scalar.abs]
  by_cases h : place x < 0
  · rw [if_pos (hlt.2 h), abs_of_neg h]
    exact (place_neg x).trans (if_pos hfinite.2.le)
  · rw [if_neg (mt hlt.1 h), abs_of_nonneg (not_lt.1 h)]

/-- Ones of either sign, as doubles have them. -/
theorem unpack_ofInt_one : (Float.ofInt 1).toModel.unpack =
    .finite .positive (2 ^ 52) (-52) (Nat.two_pow_pos 52) := rfl

theorem unpack_ofInt_neg_one : (Float.ofInt (-1)).toModel.unpack =
    .finite .negative (2 ^ 52) (-52) (Nat.two_pow_pos 52) := rfl

/-- A one of either sign leaves the digits alone. -/
theorem rankMul_one {s : Sign} {u : UnpackedFloat} (hu : Canonical u)
    (h : -top < rank u ∧ rank u < top) :
    rankMul (.finite s (2 ^ 52) (-52) (Nat.two_pow_pos 52)) u = s.apply (rank u) := by
  have hone : Canonical (.finite s (2 ^ 52) (-52) (Nat.two_pow_pos 52)) :=
    ⟨⟨by omega, by decide, .inl (le_refl _)⟩, by omega⟩
  rcases finite_cases h with ⟨t, rfl⟩ | ⟨t, n, f, hn, rfl⟩
  · rw [rankMul_zero_right hone, if_pos (rank_between hone)]
    cases s <;> rfl
  · have hunits : units (2 ^ 52) (-52) * units n f = units n f * unit := by
      rw [units, ← Nat.pow_add, two_pow_eq_unit (by omega), Nat.mul_comm]
    have hspot := hu.1.spot_eq hn
    rw [two_pow_eq_unit rfl] at hspot
    rw [rankMul_finite hone hu, hunits, ← hspot, min_eq_right (hu.1.spot_lt_top hu.2).le, rank]
    cases s <;> cases t
    · exact (Int.neg_neg _).symm
    · rfl
    · rfl
    · rfl

/-- One leaves a double alone, and minus one turns it over. -/
theorem place_unit_mul {s : Int} (hs : s = 1 ∨ s = -1) {x : Float} (hx : x.isFinite = true) :
    place (Scalar.ofInt s * x) = s * place x := by
  have hc := canonical_toModel x
  have hfinite := isFinite_iff.1 hx
  rcases hs with rfl | rfl
  · change rankMul (Float.ofInt 1).toModel.unpack x.toModel.unpack = _
    rw [unpack_ofInt_one, rankMul_one hc hfinite, Int.one_mul]
    rfl
  · change rankMul (Float.ofInt (-1)).toModel.unpack x.toModel.unpack = _
    rw [unpack_ofInt_neg_one, rankMul_one hc hfinite, Int.neg_one_mul]
    rfl

end SkySources.Double
