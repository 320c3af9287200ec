import SkySources.Proofs.Double
import SkySources.Proofs.Double.Arithmetic

/-!
# Differences of doubles

A deviation from a background is a difference of doubles, and it is rounded. But the
exact difference is taken first, so rounding never brings it to the other side of
zero: what has a deviation above zero lies above the background.

What is proved:
  1. `apply_rank_unpack`: the sign that is stored tells the side of zero;
  2. `digits_le`: numbers in order have digits in order, on one scale;
  3. `lt_of_sub_pos`, `lt_of_sub_neg`: a difference that is not zero tells which of
     its terms is the larger one.
-/

namespace SkySources.Double

open Float.Model Float.Model.UnpackedFloat

/-! ## The sign of what is stored -/

/-- The sign that is stored tells on which side of zero a number lies. -/
theorem apply_rank_unpack {b : BitVec Format.binary64.numBits}
    (hn : UnpackedFloat.unpack .binary64 b ≠ .notANumber) :
    0 ≤ (Sign.ofBitVec (unpackSign b)).apply (rank (UnpackedFloat.unpack .binary64 b)) := by
  have htop := top_pos
  have hc := canonical_unpack b
  have hside {s : Sign} {n : Int} (h : 0 ≤ n) : 0 ≤ s.apply (s.apply n) := by
    cases s <;> simp only [apply_negative, apply_positive, Int.neg_neg] <;> exact h
  rw [UnpackedFloat.unpack] at hn hc ⊢
  split at hn
  · split at hn
    · next hinf hm =>
      rw [if_pos hinf, if_pos hm]
      exact hside htop.le
    · exact absurd rfl hn
  · next hinf =>
    rw [if_neg hinf] at hc ⊢
    split at hn
    · next hsub =>
      rw [if_pos hsub] at hc ⊢
      split at hn
      · next hm =>
        rw [dif_pos hm]
        cases Sign.ofBitVec (unpackSign b) <;> exact le_refl 0
      · next hm =>
        rw [dif_neg hm] at hc ⊢
        exact hside (hc.1.spot_pos ((BitVec.pos_iff_ne_zero _).2 hm)).le
    · next hsub =>
      rw [if_neg hsub] at hc ⊢
      exact hside (hc.1.spot_pos (by rw [toNat_implicit]; omega)).le

theorem sign_pack_finite {s : Sign} {m : Nat} {e : Int} (hm : 0 < m) :
    Sign.ofBitVec (unpackSign (UnpackedFloat.pack .binary64 (.finite s m e hm))) = s := by
  rw [UnpackedFloat.pack]
  split
  · exact unpackSign_packComponents _ _ _
  · split <;> exact unpackSign_packComponents _ _ _

/-- What is rounded is a number again, or a zero of the same sign. -/
theorem round_cases (s : Sign) (m : Nat) (e : Int) :
    UnpackedFloat.round .binary64 s m e = .zero s ∨
      ∃ n f hn, UnpackedFloat.round .binary64 s m e = .finite s n f hn := by
  unfold UnpackedFloat.round roundWithAccuracy
  simp only
  split
  · exact .inl rfl
  · next h => exact .inr ⟨_, _, Nat.pos_of_ne_zero h, rfl⟩

/-- What is rounded keeps its side of zero. -/
theorem apply_rank_round {s : Sign} {m : Nat} {e : Int}
    (hn : rank (pack (UnpackedFloat.round .binary64 s m e)).unpack ≤ top) :
    0 ≤ s.apply (rank (pack (UnpackedFloat.round .binary64 s m e)).unpack) := by
  rcases round_cases s m e with h | ⟨n, f, hpos, h⟩ <;> rw [h] at hn ⊢
  · cases s <;> decide +kernel
  · have hside := apply_rank_unpack (b := UnpackedFloat.pack .binary64 (.finite s n f hpos))
      ((rank_le_top (canonical_unpack _)).1 hn)
    rw [sign_pack_finite] at hside
    exact hside

/-- A difference of digits is rounded to its own side of zero. -/
theorem rank_normalize {d e : Int}
    (hn : rank (pack (UnpackedFloat.normalize .binary64 d e .positive)).unpack ≤ top) :
    (0 ≤ d → 0 ≤ rank (pack (UnpackedFloat.normalize .binary64 d e .positive)).unpack) ∧
      (d ≤ 0 → rank (pack (UnpackedFloat.normalize .binary64 d e .positive)).unpack ≤ 0) := by
  have hzero : rank (pack (.zero .positive)).unpack = 0 := by decide +kernel
  unfold UnpackedFloat.normalize at hn ⊢
  rcases lt_trichotomy d 0 with h | rfl | h
  · rw [compare_lt_iff_lt.2 h] at hn ⊢
    have := apply_rank_round hn
    exact ⟨fun h' => absurd h' (not_le.2 h),
      fun _ => by rwa [apply_negative, Int.neg_nonneg] at this⟩
  · rw [compare_eq_iff_eq.2 rfl]
    exact ⟨fun _ => hzero.ge, fun _ => hzero.le⟩
  · rw [compare_gt_iff_gt.2 h] at hn ⊢
    have := apply_rank_round hn
    exact ⟨fun _ => this, fun h' => absurd h' (not_le.2 h)⟩

/-! ## Numbers on one scale -/

section Digits
variable {s t : Sign} {m n : Nat} {e f : Int} {hm : 0 < m} {hn : 0 < n}

/-- Numbers in order are in order when they are counted in units of the smallest
double. -/
theorem apply_units_le (h : Canonical (.finite s m e hm)) (h' : Canonical (.finite t n f hn))
    (hle : rank (.finite s m e hm) ≤ rank (.finite t n f hn)) :
    s.apply (units m e) ≤ t.apply (units n f) := by
  have hpos := h.1.spot_pos hm
  have hpos' := h'.1.spot_pos hn
  simp only [rank] at hle
  cases s <;> cases t <;> simp only [apply_negative, apply_positive] at hle ⊢
  · have := h'.1.units_le h.1 (by omega)
    omega
  · omega
  · omega
  · have := h.1.units_le h'.1 hle
    omega

theorem decreaseExponent_units {low : Int} (hlow : -1074 ≤ low) (h : low ≤ e) :
    (decreaseExponent m e low).1 * 2 ^ (low + 1074).toNat = units m e := by
  rw [decreaseExponent, Nat.shiftLeft_eq, units, Nat.mul_assoc, ← Nat.pow_add]
  congr 2
  omega

/-- On one scale, numbers in order have digits in order. -/
theorem digits_le (h : Canonical (.finite s m e hm)) (h' : Canonical (.finite t n f hn))
    (hle : rank (.finite s m e hm) ≤ rank (.finite t n f hn)) :
    s.apply (decreaseExponent m e (min e f)).1 ≤ t.apply (decreaseExponent n f (min e f)).1 := by
  have hlow : -1074 ≤ min e f := le_min h.1.low h'.1.low
  have hunits := apply_units_le h h' hle
  rw [← decreaseExponent_units hlow (min_le_left e f),
    ← decreaseExponent_units hlow (min_le_right e f)] at hunits
  have hscale : (0 : Int) < 2 ^ (min e f + 1074).toNat := pow_pos (by decide) _
  have happly (s : Sign) (k : Nat) : s.apply ((k * 2 ^ (min e f + 1074).toNat : Nat) : Int) =
      s.apply k * 2 ^ (min e f + 1074).toNat := by
    cases s
    · rw [apply_negative, apply_negative, Int.neg_mul]
      push_cast
      rfl
    · push_cast
      rfl
  rw [happly, happly] at hunits
  exact le_of_mul_le_mul_right hunits hscale

end Digits

/-! ## Differences -/

/-- The place of a difference. -/
def rankSub (u v : UnpackedFloat) : Int := rank (pack (UnpackedFloat.sub .binary64 u v)).unpack

theorem place_sub (x y : Float) : place (x - y) = rankSub x.toModel.unpack y.toModel.unpack := rfl

section Sub
variable {u v : UnpackedFloat}

theorem rankSub_of_sub_eq {w : UnpackedFloat} (hw : Canonical w)
    (h : UnpackedFloat.sub .binary64 u v = w) : rankSub u v = rank w := by
  rw [rankSub, h, unpack_pack_of_canonical hw]

theorem rankSub_notANumber_left : rankSub .notANumber v = top + 1 :=
  rankSub_of_sub_eq (w := .notANumber) trivial rfl

theorem rankSub_notANumber_right : rankSub u .notANumber = top + 1 :=
  rankSub_of_sub_eq (w := .notANumber) trivial (by cases u <;> rfl)

/-- A difference that is a number lies on the side of zero that the order of its terms
tells. -/
theorem rankSub_side (hu : Canonical u) (hv : Canonical v) (hn : rankSub u v ≤ top) :
    (rank v ≤ rank u → 0 ≤ rankSub u v) ∧ (rank u ≤ rank v → rankSub u v ≤ 0) := by
  have htop := top_pos
  cases u with
  | notANumber =>
    rw [rankSub_notANumber_left] at hn
    omega
  | infinity s =>
    have hb := neg_top_le_rank hv
    cases v with
    | notANumber =>
      rw [rankSub_notANumber_right] at hn
      omega
    | infinity t =>
      cases s <;> cases t
      · rw [rankSub_of_sub_eq (w := .notANumber) trivial rfl] at hn
        exact absurd hn (by decide)
      · rw [rankSub_of_sub_eq (w := .infinity .negative) trivial rfl]
        decide
      · rw [rankSub_of_sub_eq (w := .infinity .positive) trivial rfl]
        decide
      · rw [rankSub_of_sub_eq (w := .notANumber) trivial rfl] at hn
        exact absurd hn (by decide)
    | zero t =>
      rw [rankSub_of_sub_eq (w := .infinity s) trivial rfl]
      exact ⟨id, id⟩
    | finite t n f hn' =>
      have hbetween := rank_between hv
      rw [rankSub_of_sub_eq (w := .infinity s) trivial rfl]
      cases s <;> simp only [rank, apply_negative, apply_positive] at hbetween ⊢ <;> omega
  | zero s =>
    cases v with
    | notANumber =>
      rw [rankSub_notANumber_right] at hn
      omega
    | infinity t =>
      rw [rankSub_of_sub_eq (w := .infinity (-t)) trivial rfl]
      cases t
      · change (-top ≤ 0 → 0 ≤ top) ∧ (0 ≤ -top → top ≤ 0)
        omega
      · change (top ≤ 0 → 0 ≤ -top) ∧ (0 ≤ top → -top ≤ 0)
        omega
    | zero t =>
      cases s <;> cases t
      · rw [rankSub_of_sub_eq (w := .zero .positive) trivial rfl]
        decide
      · rw [rankSub_of_sub_eq (w := .zero .negative) trivial rfl]
        decide
      · rw [rankSub_of_sub_eq (w := .zero .positive) trivial rfl]
        decide
      · rw [rankSub_of_sub_eq (w := .zero .positive) trivial rfl]
        decide
    | finite t n f hn' =>
      rw [rankSub_of_sub_eq (w := (UnpackedFloat.finite t n f hn').neg) (canonical_neg hv) rfl,
        rank_neg UnpackedFloat.noConfusion]
      simp only [show rank (.zero s) = 0 from rfl]
      omega
  | finite s m e hm =>
    cases v with
    | notANumber =>
      rw [rankSub_notANumber_right] at hn
      omega
    | infinity t =>
      have hbetween := rank_between hu
      rw [rankSub_of_sub_eq (w := .infinity (-t)) trivial rfl]
      cases t
      · change (-top ≤ _ → 0 ≤ top) ∧ (_ ≤ -top → top ≤ 0)
        omega
      · change (top ≤ _ → 0 ≤ -top) ∧ (_ ≤ top → -top ≤ 0)
        omega
    | zero t =>
      rw [rankSub_of_sub_eq hu rfl]
      exact ⟨id, id⟩
    | finite t n f hn' =>
      -- the exact difference of the digits is rounded
      obtain ⟨hnonneg, hnonpos⟩ := rank_normalize (d := s.apply (decreaseExponent m e (min e f)).1 -
        t.apply (decreaseExponent n f (min e f)).1) (e := min e f) hn
      constructor
      · intro hle
        have := digits_le hv hu hle
        rw [min_comm f e] at this
        exact hnonneg (Int.sub_nonneg.2 this)
      · intro hle
        exact hnonpos (Int.sub_nonpos_of_le (digits_le hu hv hle))

end Sub

variable {x y : Float}

/-- What has a difference above zero is the larger term. -/
theorem lt_of_sub_pos (h : 0 < place (x - y)) (hfin : (x - y).isFinite = true) : y < x := by
  have hn := (isFinite_iff.1 hfin).2
  have hx := (isFinite_iff.1 (isFinite_of_isFinite_sub hfin)).2
  have hside := rankSub_side (canonical_toModel x) (canonical_toModel y) hn.le
  rw [← place_sub] at hside
  rw [lt_iff]
  refine ⟨?_, hx.le⟩
  by_contra hle
  have := hside.2 (not_lt.1 hle)
  omega

/-- What has a difference below zero is the smaller term. -/
theorem lt_of_sub_neg (h : place (x - y) < 0) (hfin : (x - y).isFinite = true) : x < y := by
  have hn := (isFinite_iff.1 hfin).2
  have hside := rankSub_side (canonical_toModel x) (canonical_toModel y) hn.le
  rw [← place_sub] at hside
  have hlt : place x < place y := by
    by_contra hle
    have := hside.1 (not_lt.1 hle)
    omega
  refine lt_iff.2 ⟨hlt, ?_⟩
  -- a difference with a missing number is missing
  rw [place, rank_le_top (canonical_toModel y)]
  intro hmissing
  rw [place_sub, hmissing, rankSub_notANumber_right] at h
  exact absurd h (by decide)

end SkySources.Double
