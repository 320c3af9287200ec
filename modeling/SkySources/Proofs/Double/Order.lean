import Mathlib
import SkySources.Scalar

/-!
# The order of doubles

The doubles stand in line: every one has a place, a whole number that counts how
many magnitudes lie between it and zero (`place`). Infinity comes last, both zeros
share their place, and a missing number is put behind infinity. Comparing doubles
is comparing their places (`lt_iff`, `le_iff`), so the rest is arithmetic of whole
numbers.

What is proved:
  1. `canonical_unpack`: the digits of a double are as many as its format has;
  2. `compare_eq`: numbers in that form are ordered by their places;
  3. `rank_unpack_pack`: a number that is stored keeps its place, or becomes
     infinite if that lies behind infinity.
-/

namespace SkySources.Double

open Float.Model Float.Model.UnpackedFloat

/-- The place of infinity. -/
def top : Int := 2047 * 2 ^ 52

/-- The place of a positive magnitude, with so many digits that count so much. -/
def spot (m : Nat) (e : Int) : Int := (e + 1074) * 2 ^ 52 + m

/-- The place of a number, counted from zero. -/
def rank : UnpackedFloat → Int
  | .notANumber => top + 1
  | .infinity s => s.apply top
  | .zero _ => 0
  | .finite s m e _ => s.apply (spot m e)

/-- The place of a double. -/
def place (x : Float) : Int := rank x.toModel.unpack

/-- A magnitude as doubles have it: 53 digits, or fewer if the last of them counts
as little as a digit can. -/
structure Fits (m : Nat) (e : Int) : Prop where
  low : -1074 ≤ e
  short : m < 2 ^ 53
  full : 2 ^ 52 ≤ m ∨ e = -1074

/-- A number as a double holds it. -/
def Canonical : UnpackedFloat → Prop
  | .finite _ m e _ => Fits m e ∧ e ≤ 971
  | _ => True

/-! ## What a double holds -/

theorem bias_eq : ((Format.binary64.exponentBias : Int) +
    (Format.binary64.mantissaBitsWithoutImplicit : Int)) = 1075 := rfl

theorem toNat_implicit (v : BitVec 52) : (1#1 ++ v).toNat = 2 ^ 52 + v.toNat := by
  rw [BitVec.toNat_append, ← Nat.shiftLeft_add_eq_or_of_lt v.isLt, Nat.shiftLeft_eq]
  rfl

theorem canonical_unpack (b : BitVec Format.binary64.numBits) :
    Canonical (UnpackedFloat.unpack .binary64 b) := by
  have hm : (unpackMantissa b).toNat < 2 ^ 52 := (unpackMantissa b).isLt
  have he : (unpackExponent b).toNat < 2 ^ 11 := (unpackExponent b).isLt
  rw [UnpackedFloat.unpack]
  split
  · split <;> exact trivial
  · next hinf =>
    split
    · next hsub =>
      have he0 : (unpackExponent b).toNat = 0 := by rw [hsub]; rfl
      split
      · exact trivial
      · -- the least exponent, with fewer digits
        refine ⟨⟨?_, by omega, .inr ?_⟩, ?_⟩ <;> rw [he0, bias_eq] <;> decide
    · next hsub =>
      have hpos : (unpackExponent b).toNat ≠ 0 := fun h => hsub (BitVec.eq_of_toNat_eq h)
      have hlt : (unpackExponent b).toNat ≠ 2047 := fun h => hinf (BitVec.eq_of_toNat_eq h)
      have hdigits := toNat_implicit (unpackMantissa b)
      rw [Canonical, bias_eq]
      refine ⟨⟨by omega, by omega, .inl (by omega)⟩, by omega⟩

/-! ## Comparing -/

theorem top_pos : 0 < top := by decide

theorem Fits.spot_pos {m : Nat} {e : Int} (h : Fits m e) (hm : 0 < m) : 0 < spot m e := by
  have := h.low
  unfold spot
  omega

theorem Fits.spot_lt_top {m : Nat} {e : Int} (h : Fits m e) (he : e ≤ 971) : spot m e < top := by
  have := h.short
  unfold spot top
  omega

/-- The exponent decides, and then the digits. -/
theorem Fits.compare_eq {m m' : Nat} {e e' : Int} (h : Fits m e) (h' : Fits m' e') :
    (compare e e').then (compare m m') = compare (spot m e) (spot m' e') := by
  unfold spot
  obtain ⟨hlow, hshort, hfull⟩ := h
  obtain ⟨hlow', hshort', hfull'⟩ := h'
  rcases lt_trichotomy e e' with hlt | rfl | hgt
  · rw [compare_lt_iff_lt.2 hlt]
    exact (compare_lt_iff_lt.2 (by omega)).symm
  · rw [compare_eq_iff_eq.2 rfl]
    show compare m m' = _
    rcases lt_trichotomy m m' with hlt | rfl | hgt
    · rw [compare_lt_iff_lt.2 hlt, eq_comm, compare_lt_iff_lt]
      omega
    · rw [compare_eq_iff_eq.2 rfl, compare_eq_iff_eq.2 rfl]
    · rw [compare_gt_iff_gt.2 hgt, eq_comm, compare_gt_iff_gt]
      omega
  · rw [compare_gt_iff_gt.2 hgt]
    exact (compare_gt_iff_gt.2 (by omega)).symm

theorem compare_neg (a b : Int) : compare (-a) (-b) = (compare a b).swap := by
  rcases lt_trichotomy a b with h | rfl | h
  · rw [compare_lt_iff_lt.2 h, compare_gt_iff_gt.2 (Int.neg_lt_neg h)]
    rfl
  · rw [compare_eq_iff_eq.2 rfl, compare_eq_iff_eq.2 rfl]
    rfl
  · rw [compare_gt_iff_gt.2 h, compare_lt_iff_lt.2 (Int.neg_lt_neg h)]
    rfl

@[simp] theorem apply_negative (n : Int) : Sign.negative.apply n = -n := rfl
@[simp] theorem apply_positive (n : Int) : Sign.positive.apply n = n := rfl

/-- Every finite number has its place between the infinities. -/
theorem rank_between {s : Sign} {m : Nat} {e : Int} {hm : 0 < m}
    (h : Canonical (.finite s m e hm)) :
    -top < rank (.finite s m e hm) ∧ rank (.finite s m e hm) < top := by
  have hpos := h.1.spot_pos hm
  have hlt := h.1.spot_lt_top h.2
  cases s <;> simp only [rank, apply_negative, apply_positive] <;> omega

/-- Numbers are ordered by their places. -/
theorem compare_eq {u v : UnpackedFloat} (hu : Canonical u) (hv : Canonical v)
    (hu' : u ≠ .notANumber) (hv' : v ≠ .notANumber) :
    u.compare v = some (compare (rank u) (rank v)) := by
  cases u with
  | notANumber => exact absurd rfl hu'
  | infinity s =>
    cases v with
    | notANumber => exact absurd rfl hv'
    | infinity t => cases s <;> cases t <;> rfl
    | zero t => cases s <;> rfl
    | finite t m e hm =>
      have hb := rank_between hv
      cases s
      · exact congrArg some (compare_lt_iff_lt.2 hb.1).symm
      · exact congrArg some (compare_gt_iff_gt.2 hb.2).symm
  | zero s =>
    cases v with
    | notANumber => exact absurd rfl hv'
    | infinity t => cases t <;> rfl
    | zero t => rfl
    | finite t m e hm =>
      have hpos := hv.1.spot_pos hm
      cases t
      · exact congrArg some (compare_gt_iff_gt.2 (Int.neg_neg_of_pos hpos)).symm
      · exact congrArg some (compare_lt_iff_lt.2 hpos).symm
  | finite s m e hm =>
    have hpos := hu.1.spot_pos hm
    have hb := rank_between hu
    cases v with
    | notANumber => exact absurd rfl hv'
    | infinity t =>
      cases t
      · rw [show rank (.infinity .negative) = -top from rfl, compare_gt_iff_gt.2 hb.1]
        cases s <;> rfl
      · rw [show rank (.infinity .positive) = top from rfl, compare_lt_iff_lt.2 hb.2]
        cases s <;> rfl
    | zero t =>
      cases s
      · exact congrArg some (compare_lt_iff_lt.2 (Int.neg_neg_of_pos hpos)).symm
      · exact congrArg some (compare_gt_iff_gt.2 hpos).symm
    | finite t m' e' hm' =>
      have hpos' := hv.1.spot_pos hm'
      have hmag := hu.1.compare_eq hv.1
      cases s <;> cases t <;> simp only [rank, apply_negative, apply_positive]
      · rw [compare_neg, ← hmag]
        rfl
      · rw [compare_lt_iff_lt.2 (by omega)]
        rfl
      · rw [compare_gt_iff_gt.2 (by omega)]
        rfl
      · exact congrArg some hmag

theorem rank_le_top {u : UnpackedFloat} (hu : Canonical u) : rank u ≤ top ↔ u ≠ .notANumber := by
  have htop := top_pos
  cases u with
  | notANumber => simp [rank]
  | infinity s => cases s <;> simp [rank]; omega
  | zero s => simp [rank]; omega
  | finite s m e hm =>
    have := (rank_between hu).2
    simp only [ne_eq, reduceCtorEq, not_false_eq_true, iff_true]
    omega

/-- A missing number is compared to nothing. -/
theorem compare_eq_none {u v : UnpackedFloat} (h : u = .notANumber ∨ v = .notANumber) :
    u.compare v = none := by
  rcases h with rfl | rfl
  · rfl
  · cases u with
    | infinity s => cases s <;> rfl
    | finite s m e hm => cases s <;> rfl
    | _ => rfl

theorem lt_eq_true_iff {u v : UnpackedFloat} (hu : Canonical u) (hv : Canonical v) :
    u.lt v = true ↔ rank u < rank v ∧ rank v ≤ top := by
  by_cases hn : u = .notANumber ∨ v = .notANumber
  · rw [UnpackedFloat.lt, compare_eq_none hn]
    have := rank_le_top hu
    have := rank_le_top hv
    simp only [beq_iff_eq, reduceCtorEq, false_iff]
    rcases hn with rfl | rfl
    · simp only [rank]
      omega
    · simp only [rank]
      omega
  · rw [not_or] at hn
    rw [UnpackedFloat.lt, compare_eq hu hv hn.1 hn.2, beq_iff_eq, Option.some.injEq,
      compare_lt_iff_lt]
    exact (and_iff_left ((rank_le_top hv).2 hn.2)).symm

theorem le_eq_true_iff {u v : UnpackedFloat} (hu : Canonical u) (hv : Canonical v) :
    u.le v = true ↔ rank u ≤ rank v ∧ rank v ≤ top := by
  by_cases hn : u = .notANumber ∨ v = .notANumber
  · rw [UnpackedFloat.le, compare_eq_none hn]
    simp only [Option.any_none, Bool.false_eq_true, false_iff]
    rcases hn with rfl | rfl
    · simp only [rank]
      omega
    · simp only [rank]
      omega
  · rw [not_or] at hn
    rw [UnpackedFloat.le, compare_eq hu hv hn.1 hn.2, Option.any_some, Ordering.isLE_iff_ne_gt,
      compare_gt_iff_gt.not, not_lt]
    exact (and_iff_left ((rank_le_top hv).2 hn.2)).symm

/-! ## Doubles -/

theorem place_zero : place 0.0 = 0 := by decide +kernel

theorem canonical_toModel (x : Float) : Canonical x.toModel.unpack := canonical_unpack _

theorem lt_iff {x y : Float} : x < y ↔ place x < place y ∧ place y ≤ top := by
  rw [place, place, ← lt_eq_true_iff (canonical_toModel x) (canonical_toModel y)]
  exact decide_eq_true_iff

theorem le_iff {x y : Float} : x ≤ y ↔ place x ≤ place y ∧ place y ≤ top := by
  rw [place, place, ← le_eq_true_iff (canonical_toModel x) (canonical_toModel y)]
  exact decide_eq_true_iff

theorem lt_asymm_double {x y : Float} (h : x < y) : ¬y < x :=
  fun h' => absurd (lt_iff.1 h').1 (lt_iff.1 h).1.not_gt

theorem isFinite_iff {x : Float} : x.isFinite = true ↔ -top < place x ∧ place x < top := by
  show x.toModel.unpack.isFinite = true ↔ _
  have h := canonical_toModel x
  have htop := top_pos
  unfold place
  cases hx : x.toModel.unpack with
  | notANumber => simp [rank, UnpackedFloat.isFinite]
  | infinity s => cases s <;> simp [rank, UnpackedFloat.isFinite]
  | zero s =>
    simp only [rank, UnpackedFloat.isFinite, true_iff]
    omega
  | finite s m e hm =>
    rw [hx] at h
    exact iff_of_true rfl (rank_between h)

theorem neg_top_le_rank {u : UnpackedFloat} (h : Canonical u) : -top ≤ rank u := by
  have htop := top_pos
  cases u with
  | notANumber => simp only [rank]; omega
  | infinity s => cases s <;> simp [rank]; omega
  | zero s => simp only [rank]; omega
  | finite s m e hm => exact (rank_between h).1.le

theorem neg_top_le_place (x : Float) : -top ≤ place x := neg_top_le_rank (canonical_toModel x)

/-! ## Storing a number -/

theorem unpackSign_packComponents (s : Sign) (e : BitVec 11) (m : BitVec 52) :
    Sign.ofBitVec (unpackSign (packComponents .binary64 s e m)) = s := by
  simp only [unpackSign, packComponents, BitVec.extractLsb]
  rw [BitVec.extractLsb'_append_eq_of_le (by omega), BitVec.extractLsb'_append_eq_of_le (by omega)]
  cases s <;> rfl

theorem biased_eq {e : Int} (h : -1074 ≤ e) :
    (e + Format.binary64.exponentBias + Format.binary64.mantissaBitsWithoutImplicit).toNat =
      (e + 1074).toNat + 1 := by
  rw [Int.add_assoc, bias_eq]
  omega

theorem toNat_ofNat_exponent {n : Nat} (h : n < 2 ^ 11) : (BitVec.ofNat 11 n).toNat = n := by
  rw [BitVec.toNat_ofNat, Nat.mod_eq_of_lt h]

/-- What fits is stored as it is. -/
theorem unpack_pack {s : Sign} {m : Nat} {e : Int} (hm : 0 < m) (h : Fits m e) (he : e ≤ 971) :
    (pack (.finite s m e hm)).unpack = .finite s m e hm := by
  obtain ⟨hlow, hshort, hfull⟩ := h
  show UnpackedFloat.unpack .binary64 (UnpackedFloat.pack .binary64 (.finite s m e hm)) = _
  rw [UnpackedFloat.pack]
  simp only [biased_eq hlow]
  rw [if_neg (by show ¬2 ^ 11 ≤ _; omega)]
  by_cases hnormal : 2 ^ 52 ≤ m
  · have hlog : m.log2 + 1 = Format.binary64.mantissaBits := by
      show m.log2 + 1 = 53
      rw [(Nat.log2_eq_iff (by omega)).2 ⟨hnormal, hshort⟩]
    have hexp : (BitVec.ofNat 11 ((e + 1074).toNat + 1)).toNat = (e + 1074).toNat + 1 :=
      toNat_ofNat_exponent (by omega)
    have hinf : BitVec.ofNat 11 ((e + 1074).toNat + 1) ≠ -1#11 := by
      intro h
      have := congrArg BitVec.toNat h
      rw [hexp] at this
      change _ = 2047 at this
      omega
    have hsub : BitVec.ofNat 11 ((e + 1074).toNat + 1) ≠ 0#11 := by
      intro h
      have := congrArg BitVec.toNat h
      rw [hexp] at this
      change _ = 0 at this
      omega
    have hdigits : (1#1 ++ BitVec.ofNat 52 m).toNat = m := by
      rw [toNat_implicit, BitVec.toNat_ofNat]
      omega
    rw [if_pos hlog, UnpackedFloat.unpack]
    simp only [unpackMantissa_packComponents, unpackExponent_packComponents]
    rw [if_neg hinf, if_neg hsub]
    simp only [UnpackedFloat.finite.injEq]
    refine ⟨unpackSign_packComponents _ _ _, hdigits, ?_⟩
    rw [hexp, bias_eq]
    omega
  · have he0 : e = -1074 := hfull.resolve_left hnormal
    have hlog : m.log2 + 1 ≠ Format.binary64.mantissaBits := by
      show m.log2 + 1 ≠ 53
      have := (Nat.log2_lt (by omega)).2 (by omega : m < 2 ^ 52)
      omega
    have hdigits : (BitVec.ofNat 52 m).toNat = m := by
      rw [BitVec.toNat_ofNat]
      omega
    have hzero : BitVec.ofNat 52 m ≠ 0#52 := by
      intro h
      have := congrArg BitVec.toNat h
      rw [hdigits] at this
      change _ = 0 at this
      omega
    rw [if_neg hlog, UnpackedFloat.unpack]
    simp only [unpackMantissa_packComponents, unpackExponent_packComponents]
    rw [if_neg (by decide), if_pos trivial, dif_neg hzero]
    simp only [UnpackedFloat.finite.injEq]
    exact ⟨unpackSign_packComponents _ _ _, hdigits, he0.symm⟩

/-- A number that fits keeps its place when it is stored; behind infinity, it
becomes infinite. -/
theorem rank_unpack_pack {s : Sign} {m : Nat} {e : Int} (hm : 0 < m) (h : Fits m e) :
    rank (pack (.finite s m e hm)).unpack = s.apply (min top (spot m e)) := by
  by_cases he : e ≤ 971
  · rw [unpack_pack hm h he, rank, min_eq_right (h.spot_lt_top he).le]
  · obtain ⟨hlow, hshort, hfull⟩ := h
    have hspot : top ≤ spot m e := by
      unfold top spot
      omega
    have hinf : UnpackedFloat.pack .binary64 (.finite s m e hm) = packedInfinity .binary64 s := by
      have hbiased := biased_eq hlow
      rw [UnpackedFloat.pack, hbiased, if_pos]
      show 2 ^ 11 ≤ (e + 1074).toNat + 1 + 1
      omega
    show rank (UnpackedFloat.unpack .binary64 (UnpackedFloat.pack .binary64 _)) = _
    rw [hinf, min_eq_left hspot]
    cases s <;> rfl

end SkySources.Double
