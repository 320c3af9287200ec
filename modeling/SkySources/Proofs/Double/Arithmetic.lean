import SkySources.Proofs.Double.Rounding

/-!
# Signs and products of doubles

A threshold is a product of doubles, and it is compared to a deviation from both
sides. So what matters here is where products and negated numbers stand in line.

What is proved:
  1. `place_neg`: negation turns the line around;
  2. `place_mul_le`: multiplying by a double that is not negative keeps order, as long
     as the smaller product is not missing;
  3. `place_mul_zero`, `place_mul_le_top`: zero and infinity have no product, and finite
     doubles have one;
  4. `place_sqrt_nonneg`: no square root lies below zero.
-/

namespace SkySources.Double

open Float.Model Float.Model.UnpackedFloat

/-! ## Negation -/

theorem unpack_pack_of_canonical {u : UnpackedFloat} (h : Canonical u) : (pack u).unpack = u := by
  cases u with
  | notANumber => rfl
  | infinity s => cases s <;> rfl
  | zero s => cases s <;> rfl
  | finite s m e hm => exact unpack_pack hm h.1 h.2

theorem canonical_neg {u : UnpackedFloat} (h : Canonical u) : Canonical u.neg := by
  cases u with
  | finite s m e hm => exact h
  | _ => exact trivial

theorem rank_neg {u : UnpackedFloat} (h : u ≠ .notANumber) : rank u.neg = -rank u := by
  cases u with
  | notANumber => exact absurd rfl h
  | infinity s => cases s <;> rfl
  | zero s => rfl
  | finite s m e hm =>
    cases s
    · exact (Int.neg_neg _).symm
    · rfl

/-- A number that is not missing changes sides; a missing one stays missing. -/
theorem place_neg (x : Float) : place (-x) = if place x ≤ top then -place x else top + 1 := by
  have h := canonical_toModel x
  show rank (pack x.toModel.unpack.neg).unpack = _
  rw [unpack_pack_of_canonical (canonical_neg h), place]
  by_cases hn : x.toModel.unpack = .notANumber
  · rw [if_neg ((rank_le_top h).not.2 (not_not.2 hn)), hn]
    rfl
  · rw [if_pos ((rank_le_top h).2 hn), rank_neg hn]

/-! ## Products -/

/-- The place of a product. -/
def rankMul (u v : UnpackedFloat) : Int := rank (pack (UnpackedFloat.mul .binary64 u v)).unpack

theorem place_mul (x y : Float) : place (x * y) = rankMul x.toModel.unpack y.toModel.unpack := rfl

section Mul
variable {u u' v : UnpackedFloat}

theorem rankMul_of_mul_eq {w : UnpackedFloat} (hw : Canonical w)
    (h : UnpackedFloat.mul .binary64 u v = w) : rankMul u v = rank w := by
  rw [rankMul, h, unpack_pack_of_canonical hw]

theorem rankMul_finite {s t : Sign} {m n : Nat} {e f : Int} {hm : 0 < m} {hn : 0 < n}
    (h : Canonical (.finite s m e hm)) (h' : Canonical (.finite t n f hn)) :
    rankMul (.finite s m e hm) (.finite t n f hn) =
      (s * t).apply (min top (grade (units m e * units n f))) :=
  rank_round_mul (s * t) hm hn h.1 h'.1

theorem rankMul_notANumber_left : rankMul .notANumber v = top + 1 :=
  rankMul_of_mul_eq (w := .notANumber) trivial rfl

theorem rankMul_notANumber_right : rankMul u .notANumber = top + 1 :=
  rankMul_of_mul_eq (w := .notANumber) trivial (by cases u <;> rfl)

/-- With zero a product is zero or missing. -/
theorem rankMul_zero_right {t : Sign} (hu : Canonical u) :
    rankMul u (.zero t) = if -top < rank u ∧ rank u < top then 0 else top + 1 := by
  have htop := top_pos
  cases u with
  | notANumber => exact rankMul_notANumber_left
  | infinity s =>
    rw [rankMul_of_mul_eq (w := .notANumber) trivial rfl]
    cases s <;> rfl
  | zero s =>
    rw [rankMul_of_mul_eq (w := .zero (s * t)) trivial rfl]
    rfl
  | finite s m e hm =>
    rw [rankMul_of_mul_eq (w := .zero (s * t)) trivial rfl, if_pos (rank_between hu)]
    rfl

/-- With infinity a product is infinite or missing. -/
theorem rankMul_infinity_right (hu : Canonical u) : rankMul u (.infinity .positive) =
    if rank u < 0 then -top else if 0 < rank u ∧ rank u ≤ top then top else top + 1 := by
  have htop := top_pos
  cases u with
  | notANumber =>
    rw [rankMul_notANumber_left, if_neg (by simp only [rank]; omega),
      if_neg (by simp only [rank]; omega)]
  | infinity s =>
    rw [rankMul_of_mul_eq (w := .infinity (s * .positive)) trivial rfl]
    cases s
    · exact (if_pos (by simp only [rank, apply_negative]; omega)).symm
    · rw [if_neg (by simp only [rank, apply_positive]; omega),
        if_pos (by simp only [rank, apply_positive]; omega)]
      rfl
  | zero s =>
    rw [rankMul_of_mul_eq (w := .notANumber) trivial rfl]
    rfl
  | finite s m e hm =>
    have hpos := hu.1.spot_pos hm
    have hlt := hu.1.spot_lt_top hu.2
    rw [rankMul_of_mul_eq (w := .infinity (s * .positive)) trivial rfl]
    cases s
    · exact (if_pos (by simp only [rank, apply_negative]; omega)).symm
    · rw [if_neg (by simp only [rank, apply_positive]; omega),
        if_pos (by simp only [rank, apply_positive]; omega)]
      rfl

/-- The place of a number times a positive magnitude. -/
def scaled (k : Nat) : UnpackedFloat → Int
  | .notANumber => top + 1
  | .infinity s => s.apply top
  | .zero _ => 0
  | .finite s m e _ => s.apply (min top (grade (units m e * k)))

theorem rankMul_finite_right {n : Nat} {f : Int} {hn : 0 < n}
    (hv : Canonical (.finite .positive n f hn)) (hu : Canonical u) :
    rankMul u (.finite .positive n f hn) = scaled (units n f) u := by
  cases u with
  | notANumber => exact rankMul_notANumber_left
  | infinity s =>
    rw [rankMul_of_mul_eq (w := .infinity (s * .positive)) trivial rfl]
    cases s <;> rfl
  | zero s => exact rankMul_of_mul_eq (w := .zero (s * .positive)) trivial rfl
  | finite s m e hm =>
    rw [rankMul_finite hu hv]
    cases s <;> rfl

theorem scaled_neg {k : Nat} (h : u ≠ .notANumber) : scaled k u.neg = -scaled k u := by
  cases u with
  | notANumber => exact absurd rfl h
  | infinity s => cases s <;> rfl
  | zero s => rfl
  | finite s m e hm =>
    cases s
    · exact (Int.neg_neg _).symm
    · rfl

theorem scaled_nonneg {k : Nat} (hu : Canonical u) (h : 0 ≤ rank u) : 0 ≤ scaled k u := by
  have htop := top_pos
  cases u with
  | notANumber => simp only [scaled]; omega
  | infinity s => exact h
  | zero s => exact le_refl 0
  | finite s m e hm =>
    have hpos := hu.1.spot_pos hm
    cases s
    · simp only [rank, apply_negative] at h
      omega
    · exact le_min htop.le (grade_nonneg _)

theorem scaled_le_top {k : Nat} (h : u ≠ .notANumber) : scaled k u ≤ top := by
  have htop := top_pos
  cases u with
  | notANumber => exact absurd rfl h
  | infinity s => cases s <;> simp only [scaled, apply_negative, apply_positive] <;> omega
  | zero s => exact htop.le
  | finite s m e hm =>
    have := grade_nonneg (units m e * k)
    cases s <;> simp only [scaled, apply_negative, apply_positive] <;> omega

theorem top_le_scaled {k : Nat} (hu : Canonical u) (h : top ≤ rank u) : top ≤ scaled k u := by
  have htop := top_pos
  cases u with
  | notANumber => exact h
  | infinity s => exact h
  | zero s => exact h
  | finite s m e hm => exact absurd (rank_between hu).2 (not_lt.2 h)

theorem scaled_mono_of_pos {k : Nat} (hu : Canonical u) (hu' : Canonical u') (hpos : 0 < rank u)
    (h : rank u ≤ rank u') (hn : u ≠ .notANumber) : scaled k u ≤ scaled k u' := by
  by_cases hfar : top ≤ rank u'
  · exact (scaled_le_top hn).trans (top_le_scaled hu' hfar)
  · -- both numbers are finite, so their magnitudes are compared
    cases u with
    | notANumber => exact absurd rfl hn
    | zero s => exact absurd hpos (lt_irrefl 0)
    | infinity s =>
      cases s
      · exact absurd hpos (by decide)
      · exact absurd h hfar
    | finite s m e hm =>
      cases u' with
      | notANumber => exact absurd (by simp only [rank]; omega) hfar
      | zero t => exact absurd (hpos.trans_le h) (lt_irrefl 0)
      | infinity t =>
        cases t
        · exact absurd (hpos.trans_le h) (by decide)
        · exact absurd (le_refl top) hfar
      | finite t m' e' hm' =>
        have hspot := hu.1.spot_pos hm
        have hspot' := hu'.1.spot_pos hm'
        cases s <;> cases t <;> simp only [rank, apply_negative, apply_positive] at hpos h
        · omega
        · omega
        · omega
        · have := grade_mono (Nat.mul_le_mul_right k (hu.1.units_le hu'.1 h))
          exact min_le_min_left top this

theorem scaled_mono {k : Nat} (hu : Canonical u) (hu' : Canonical u') (h : rank u ≤ rank u')
    (hn' : u' ≠ .notANumber) : scaled k u ≤ scaled k u' := by
  have hn : u ≠ .notANumber := (rank_le_top hu).1 (h.trans ((rank_le_top hu').2 hn'))
  rcases lt_or_ge 0 (rank u) with hpos | hneg
  · exact scaled_mono_of_pos hu hu' hpos h hn
  · have hflip : 0 ≤ scaled k u.neg :=
      scaled_nonneg (canonical_neg hu) (by rw [rank_neg hn]; omega)
    rw [scaled_neg hn] at hflip
    rcases le_or_gt 0 (rank u') with hpos' | hneg'
    · have := scaled_nonneg (k := k) hu' hpos'
      omega
    · -- below zero both numbers change sides, and so does the order
      have hlow := neg_top_le_rank hu'
      have hflip' : u'.neg ≠ .notANumber :=
        (rank_le_top (canonical_neg hu')).1 (by rw [rank_neg hn']; omega)
      have := scaled_mono_of_pos (k := k) (canonical_neg hu') (canonical_neg hu)
        (by rw [rank_neg hn']; omega) (by rw [rank_neg hn, rank_neg hn']; omega) hflip'
      rw [scaled_neg hn, scaled_neg hn'] at this
      omega

/-- Multiplying by a number that is not negative keeps order. -/
theorem rankMul_mono (hu : Canonical u) (hu' : Canonical u') (hv : Canonical v)
    (h : rank u ≤ rank u') (hpos : 0 ≤ rank v) (hlow : -top < rank u ∨ rank v ≠ 0)
    (hfin : rankMul u' v < top) : rankMul u v ≤ rankMul u' v := by
  have htop := top_pos
  cases v with
  | notANumber =>
    rw [rankMul_notANumber_right] at hfin
    omega
  | zero t =>
    have hlow := hlow.resolve_right (fun h0 => h0 rfl)
    rw [rankMul_zero_right hu'] at hfin ⊢
    rw [rankMul_zero_right hu]
    split at hfin <;> split <;> omega
  | infinity t =>
    cases t
    · exact absurd hpos (by decide)
    · rw [rankMul_infinity_right hu'] at hfin ⊢
      rw [rankMul_infinity_right hu]
      split at hfin <;> (try split at hfin) <;> split <;> omega
  | finite t n f hn =>
    cases t
    · have := hv.1.spot_pos hn
      simp only [rank, apply_negative] at hpos
      omega
    · rw [rankMul_finite_right hv hu'] at hfin ⊢
      rw [rankMul_finite_right hv hu]
      refine scaled_mono hu hu' h ?_
      rintro rfl
      simp only [scaled] at hfin
      omega

theorem rankMul_nonneg (hu : Canonical u) (hv : Canonical v) (h : 0 ≤ rank u) (h' : 0 ≤ rank v) :
    0 ≤ rankMul u v := by
  have htop := top_pos
  cases v with
  | notANumber =>
    rw [rankMul_notANumber_right]
    omega
  | zero t =>
    rw [rankMul_zero_right hu]
    split <;> omega
  | infinity t =>
    cases t
    · exact absurd h' (by decide)
    · rw [rankMul_infinity_right hu, if_neg (not_lt.2 h)]
      split <;> omega
  | finite t n f hn =>
    cases t
    · have := hv.1.spot_pos hn
      simp only [rank, apply_negative] at h'
      omega
    · rw [rankMul_finite_right hv hu]
      exact scaled_nonneg hu h

/-- What is between the infinities is zero, or has digits. -/
theorem finite_cases (h : -top < rank u ∧ rank u < top) :
    (∃ s, u = .zero s) ∨ ∃ s m e hm, u = .finite s m e hm := by
  cases u with
  | notANumber => exact absurd h.2 (by decide)
  | infinity s => cases s <;> exact absurd h (by decide)
  | zero s => exact .inl ⟨s, rfl⟩
  | finite s m e hm => exact .inr ⟨s, m, e, hm, rfl⟩

/-- Numbers between the infinities have a product. -/
theorem rankMul_le_top (hu : Canonical u) (hv : Canonical v) (h : -top < rank u ∧ rank u < top)
    (h' : -top < rank v ∧ rank v < top) : rankMul u v ≤ top := by
  have htop := top_pos
  rcases finite_cases h' with ⟨t, rfl⟩ | ⟨t, n, f, hn, rfl⟩
  · rw [rankMul_zero_right hu, if_pos h]
    exact htop.le
  · rcases finite_cases h with ⟨s, rfl⟩ | ⟨s, m, e, hm, rfl⟩
    · rw [rankMul_of_mul_eq (w := .zero (s * t)) trivial rfl]
      exact htop.le
    · have hgrade := grade_nonneg (units m e * units n f)
      rw [rankMul_finite hu hv]
      cases s * t <;> simp only [apply_negative, apply_positive] <;> omega

/-- Zero is the only number with its place. -/
theorem eq_zero_of_rank (hu : Canonical u) (h : rank u = 0) : ∃ s, u = .zero s := by
  cases u with
  | notANumber => exact absurd h (by decide)
  | infinity s => cases s <;> exact absurd h (by decide)
  | zero s => exact ⟨s, rfl⟩
  | finite s m e hm =>
    have := hu.1.spot_pos hm
    cases s <;> simp only [rank, apply_negative, apply_positive] at h <;> omega

end Mul

/-- Multiplying by a double that is not negative keeps order, unless the larger
product is infinite or missing, or infinity is taken by zero. -/
theorem place_mul_le {x x' y : Float} (h : place x ≤ place x') (hy : 0 ≤ place y)
    (hlow : -top < place x ∨ place y ≠ 0) (hfin : place (x' * y) < top) :
    place (x * y) ≤ place (x' * y) :=
  rankMul_mono (canonical_toModel x) (canonical_toModel x') (canonical_toModel y) h hy hlow hfin

theorem place_mul_nonneg {x y : Float} (hx : 0 ≤ place x) (hy : 0 ≤ place y) :
    0 ≤ place (x * y) :=
  rankMul_nonneg (canonical_toModel x) (canonical_toModel y) hx hy

/-- A product of finite doubles is not missing. -/
theorem place_mul_le_top {x y : Float} (hx : x.isFinite = true) (hy : y.isFinite = true) :
    place (x * y) ≤ top :=
  rankMul_le_top (canonical_toModel x) (canonical_toModel y) (isFinite_iff.1 hx) (isFinite_iff.1 hy)

/-- Infinity by zero is missing. -/
theorem place_mul_zero {x y : Float} (hx : place x = -top) (hy : place y = 0) :
    top < place (x * y) := by
  obtain ⟨t, ht⟩ := eq_zero_of_rank (canonical_toModel y) hy
  have hx : rank x.toModel.unpack = -top := hx
  rw [place_mul, ht, rankMul_zero_right (canonical_toModel x), hx, if_neg (by omega)]
  exact Int.lt_succ top

/-! ## Square roots -/

/-- A number that is not below zero. -/
def Upright : UnpackedFloat → Prop
  | .infinity s => s = .positive
  | .finite s _ _ _ => s = .positive
  | _ => True

theorem rank_nonneg {u : UnpackedFloat} (hu : Canonical u) (h : Upright u) : 0 ≤ rank u := by
  have htop := top_pos
  cases u with
  | notANumber => simp only [rank]; omega
  | infinity s => exact h ▸ htop.le
  | zero s => exact le_refl 0
  | finite s m e hm =>
    have hpos := hu.1.spot_pos hm
    exact h ▸ hpos.le

theorem upright_unpack {b : BitVec Format.binary64.numBits}
    (h : Sign.ofBitVec (unpackSign b) = .positive) :
    Upright (UnpackedFloat.unpack .binary64 b) := by
  rw [UnpackedFloat.unpack, h]
  split
  · split
    · exact rfl
    · exact trivial
  · split
    · split
      · exact trivial
      · exact rfl
    · exact rfl

theorem upright_unpack_pack {u : UnpackedFloat} (h : Upright u) : Upright (pack u).unpack := by
  cases u with
  | notANumber => exact trivial
  | zero s =>
    rw [unpack_pack_of_canonical (u := .zero s) trivial]
    exact trivial
  | infinity s =>
    rw [unpack_pack_of_canonical (u := .infinity s) trivial]
    exact h
  | finite s m e hm =>
    have h : s = .positive := h
    subst h
    -- rounded or not, what is stored has the sign of the number
    apply upright_unpack
    show Sign.ofBitVec (unpackSign (UnpackedFloat.pack .binary64 _)) = _
    rw [UnpackedFloat.pack]
    split
    · exact unpackSign_packComponents _ _ _
    · split <;> exact unpackSign_packComponents _ _ _

theorem upright_sqrt (u : UnpackedFloat) : Upright (UnpackedFloat.sqrt .binary64 u) := by
  cases u with
  | notANumber => exact trivial
  | zero s => exact trivial
  | infinity s =>
    cases s
    · exact trivial
    · exact rfl
  | finite s m e hm =>
    cases s
    · exact trivial
    · simp only [UnpackedFloat.sqrt, roundWithAccuracy]
      split
      · exact trivial
      · exact rfl

theorem place_sqrt_nonneg (x : Float) : 0 ≤ place x.sqrt := by
  have h : Upright x.sqrt.toModel.unpack := upright_unpack_pack (upright_sqrt _)
  exact rank_nonneg (canonical_toModel _) h

end SkySources.Double
