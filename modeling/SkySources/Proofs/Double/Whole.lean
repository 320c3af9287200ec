import SkySources.Proofs.Double.Arithmetic

/-!
# Whole numbers among the doubles

A whole number becomes the nearest double, in one of two ways that depend on its
size, and it is compared to a double exactly, on the digits that are read off the
bits. Both are the same line of numbers (`standing`), so whole numbers and doubles
that are in order stay in order as doubles.

What is proved:
  1. `place_ofInt`: where the double of a whole number stands;
  2. `ofFloat?_eq`: the digits read off the bits are those of the double;
  3. `place_eq_standing`: where a double stands, by these digits.
-/

namespace SkySources.Double

open Float.Model Float.Model.UnpackedFloat

/-! ## The line of numbers -/

/-- The place of the double nearest to a number, which is counted in units of the
square of the smallest double. -/
def standing (z : Int) : Int :=
  if 0 ≤ z then min top (grade z.natAbs) else -(min top (grade z.natAbs))

theorem standing_mono {z z' : Int} (h : z ≤ z') : standing z ≤ standing z' := by
  have htop := top_pos
  have hpos := grade_nonneg z.natAbs
  have hpos' := grade_nonneg z'.natAbs
  unfold standing
  rcases lt_or_ge z 0 with hz | hz <;> rcases lt_or_ge z' 0 with hz' | hz'
  · rw [if_neg (not_le.2 hz), if_neg (not_le.2 hz')]
    have := grade_mono (show z'.natAbs ≤ z.natAbs by omega)
    omega
  · rw [if_neg (not_le.2 hz), if_pos hz']
    omega
  · omega
  · rw [if_pos hz, if_pos hz']
    have := grade_mono (show z.natAbs ≤ z'.natAbs by omega)
    omega

theorem standing_ofNat (n : Nat) : standing n = min top (grade n) := by
  rw [standing, if_pos (Int.natCast_nonneg n), Int.natAbs_natCast]

theorem standing_zero : standing 0 = 0 := by
  have h := standing_ofNat 0
  rw [grade_zero, min_eq_right top_pos.le] at h
  exact h

theorem standing_neg (z : Int) : standing (-z) = -standing z := by
  unfold standing
  rcases lt_trichotomy z 0 with hz | rfl | hz
  · rw [if_pos (by omega), if_neg (by omega), Int.natAbs_neg, Int.neg_neg]
  · rw [Int.neg_zero, if_pos (le_refl 0), Int.natAbs_zero, grade_zero, min_eq_right top_pos.le]
    rfl
  · rw [if_neg (by omega), if_pos (by omega), Int.natAbs_neg]

/-! ## The double of a whole number -/

/-- One, counted in units of the square of the smallest double. -/
def unity : Nat := 2 ^ 2148

theorem two_pow_eq_unity {k : Nat} (h : k = 2148) : 2 ^ k = unity := by rw [h, unity]

/-- What fits is not changed by rounding. -/
theorem Fits.round_eq {m : Nat} {e : Int} (h : Fits m e) (hm : 0 < m) (s : Sign) :
    roundWithAccuracy .binary64 s m e .exact = .finite s m e hm := by
  have hkept : kept m e = m := by
    rw [kept, h.cut_eq hm, Int.sub_self, Int.toNat_zero, Binary.halved]
    simp [Nat.mod_one]
  rw [Double.round_eq s (h.cut_eq hm).ge]
  simp only [hkept, h.cut_eq hm, Int.sub_self, Int.toNat_zero, Nat.pow_zero, Nat.div_one,
    Int.natCast_zero, Int.add_zero]
  exact dif_neg hm.ne'

/-- A whole number of so few digits is a double as it is. -/
theorem round_whole {n : Nat} (hn : 0 < n) (h : n < 2 ^ 53) :
    ∃ j : Nat, j ≤ 52 ∧ Fits (n * 2 ^ j) (-j) ∧
      ∀ s hm, round .binary64 s n 0 = .finite s (n * 2 ^ j) (-j) hm := by
  have hlog : n.log2 < 53 := (Nat.log2_lt hn.ne').2 h
  have hlow := Nat.log2_self_le hn.ne'
  have hhigh := Nat.lt_log2_self (n := n)
  have hpow : 0 < 2 ^ (52 - n.log2) := Nat.two_pow_pos _
  have hfits : Fits (n * 2 ^ (52 - n.log2)) (-(52 - n.log2 : Nat)) := by
    refine ⟨by omega, ?_, .inl ?_⟩
    · calc n * 2 ^ (52 - n.log2) < 2 ^ (n.log2 + 1) * 2 ^ (52 - n.log2) :=
            Nat.mul_lt_mul_of_pos_right hhigh hpow
        _ = 2 ^ 53 := by
            rw [← Nat.pow_add]
            congr 1
            omega
    · calc 2 ^ 52 = 2 ^ n.log2 * 2 ^ (52 - n.log2) := by
            rw [← Nat.pow_add]
            congr 1
            omega
        _ ≤ n * 2 ^ (52 - n.log2) := Nat.mul_le_mul_right _ hlow
  refine ⟨52 - n.log2, Nat.sub_le _ _, hfits, ?_⟩
  intro s hm
  have hshift : (0 - cut n 0).toNat = 52 - n.log2 := by
    unfold cut
    omega
  rw [UnpackedFloat.round]
  simp only [targetExponent_eq, decreaseExponent, hshift, Nat.shiftLeft_eq]
  rw [Int.zero_sub]
  exact hfits.round_eq hm s

/-- One, as a double has it. -/
theorem unpack_one : (Float.ofBits 0x3FF0000000000000).toModel.unpack =
    .finite .positive (2 ^ 52) (-52) (Nat.two_pow_pos 52) := rfl

/-- A word becomes the double of the number it stands for. -/
theorem unpack_toFloat {n : Nat} (hn : 0 < n) (h : n < 2 ^ 53) :
    ∃ (j : Nat) (hm : 0 < n * 2 ^ j), j ≤ 52 ∧ Fits (n * 2 ^ j) (-j) ∧
      n.toUInt64.toFloat.toModel.unpack = .finite .positive (n * 2 ^ j) (-j) hm := by
  obtain ⟨j, hj, hfits, hround⟩ := round_whole hn h
  have hm : 0 < n * 2 ^ j := Nat.mul_pos hn (Nat.two_pow_pos j)
  have hword : n.toUInt64.toNat = n := Nat.mod_eq_of_lt (by omega)
  refine ⟨j, hm, hj, hfits, ?_⟩
  show (pack (UnpackedFloat.ofUInt64 .binary64 n.toUInt64)).unpack = _
  rw [UnpackedFloat.ofUInt64, hword, UnpackedFloat.ofNat, UnpackedFloat.ofInt,
    UnpackedFloat.normalize, Int.compare_eq_gt.2 (by omega)]
  simp only [Int.toNat_natCast]
  rw [hround .positive hm, unpack_pack hm hfits (by omega)]

theorem place_ofNat (n : Nat) : place (Float.ofNat n) = standing (n * unity : Nat) := by
  rw [standing_ofNat]
  show place (Float.ofScientific n false 0) = _
  rw [Float.ofScientific]
  split
  · next h =>
    -- a short number is multiplied by one
    show rankMul n.toUInt64.toFloat.toModel.unpack (Float.ofBits _).toModel.unpack = _
    have hone : Canonical (.finite .positive (2 ^ 52) (-52) (Nat.two_pow_pos 52)) :=
      ⟨⟨by omega, by decide, .inl (le_refl _)⟩, by omega⟩
    rw [unpack_one, rankMul_finite_right hone (canonical_toModel _)]
    rcases Nat.eq_zero_or_pos n with rfl | hn
    · rw [Nat.zero_mul, grade_zero]
      rfl
    · obtain ⟨j, hm, hj, hfits, hword⟩ := unpack_toFloat hn h.1
      have hexp : j + (-(j : Int) + 1074).toNat + (52 + (-52 + 1074 : Int).toNat) = 2148 := by omega
      have hunits : units (n * 2 ^ j) (-j) * units (2 ^ 52) (-52) = n * unity := by
        rw [units, units, ← two_pow_eq_unity hexp, Nat.pow_add 2 (j + _), Nat.pow_add 2 j,
          Nat.pow_add 2 52, ← Nat.mul_assoc n, ← Nat.mul_assoc n]
      rw [hword, scaled, apply_positive, hunits]
  · next h =>
    -- a long number is multiplied by the zeroth power of ten
    have hn : n ≠ 0 := by omega
    show rank (pack (UnpackedFloat.ofScientific .binary64 n 0)).unpack = _
    rw [UnpackedFloat.ofScientific, dif_neg hn, if_neg (by decide),
      if_neg (by show ¬(0 : Int) < -((2 : Int) ^ 11 + n.log2); omega), if_pos (le_refl 0)]
    show rank (pack (roundWithAccuracy .binary64 .positive (n <<< 53 * 1) (-53) .exact)).unpack = _
    have hpos : 0 < n <<< 53 * 1 := by
      rw [Nat.mul_one, Nat.shiftLeft_eq]
      exact Nat.mul_pos (Nat.pos_of_ne_zero hn) (Nat.two_pow_pos 53)
    have hcut : (-53 : Int) ≤ cut (n <<< 53 * 1) (-53) := by
      have hlog : 53 ≤ (n <<< 53 * 1).log2 := by
        rw [Nat.le_log2 hpos.ne', Nat.mul_one, Nat.shiftLeft_eq]
        exact Nat.le_mul_of_pos_left _ (Nat.pos_of_ne_zero hn)
      unfold cut
      omega
    have hunits : n <<< 53 * 1 * 2 ^ (-53 + 2148 : Int).toNat = n * unity := by
      rw [Nat.mul_one, Nat.shiftLeft_eq, Nat.mul_assoc, ← Nat.pow_add]
      rw [two_pow_eq_unity (by omega)]
    rw [rank_round .positive hpos hcut, nearest_eq_grade hpos hcut (by omega), hunits,
      apply_positive]

theorem place_ofInt (n : Int) : place (Float.ofInt n) = standing (n * unity) := by
  cases n with
  | ofNat n =>
    show place (Float.ofNat n) = _
    rw [place_ofNat]
    norm_cast
  | negSucc n =>
    show place (-Float.ofNat (n + 1)) = _
    have hle : place (Float.ofNat (n + 1)) ≤ top := by
      rw [place_ofNat, standing_ofNat]
      exact min_le_left _ _
    rw [place_neg, if_pos hle, place_ofNat, ← standing_neg]
    rw [Int.negSucc_eq, Int.neg_mul, Nat.cast_mul, Nat.cast_succ]

/-- The least natural number that is too large for a double: it lies half way from the largest
double to the next power of two. -/
def wholeLimit : Nat := 2 ^ 1024 - 2 ^ 970

theorem isFinite_ofInt_iff {n : Int} :
    (Float.ofInt n).isFinite = true ↔ n.natAbs < wholeLimit := by
  have hover : place (Float.ofInt wholeLimit) = top := by decide +kernel
  have hunder : place (Float.ofInt (wholeLimit - 1 : Int)) < top := by decide +kernel
  rw [place_ofInt] at hover hunder
  have hunity : 0 ≤ (unity : Int) := Int.natCast_nonneg _
  rw [isFinite_iff, place_ofInt]
  constructor
  · intro h
    by_contra hlarge
    rcases le_total 0 n with hn | hn
    · have hmono := standing_mono
        (Int.mul_le_mul_of_nonneg_right (show (wholeLimit : Int) ≤ n by omega) hunity)
      omega
    · have hmono := standing_mono
        (Int.mul_le_mul_of_nonneg_right (show n ≤ -(wholeLimit : Int) by omega) hunity)
      rw [Int.neg_mul, standing_neg] at hmono
      omega
  · intro h
    have hmono := standing_mono
      (Int.mul_le_mul_of_nonneg_right (show n ≤ (wholeLimit : Int) - 1 by omega) hunity)
    have hmono' := standing_mono
      (Int.mul_le_mul_of_nonneg_right (show -((wholeLimit : Int) - 1) ≤ n by omega) hunity)
    rw [Int.neg_mul, standing_neg] at hmono'
    omega

/-! ## The digits of a double -/

theorem toNat_unpackMantissa (b : BitVec Format.binary64.numBits) :
    (unpackMantissa b).toNat = b.toNat % 2 ^ 52 := by
  simp only [unpackMantissa, BitVec.toNat_cast, BitVec.extractLsb_toNat, Nat.shiftRight_zero]

theorem toNat_unpackExponent (b : BitVec Format.binary64.numBits) :
    (unpackExponent b).toNat = b.toNat / 2 ^ 52 % 2 ^ 11 := by
  simp only [unpackExponent, BitVec.toNat_cast, BitVec.extractLsb_toNat, Nat.shiftRight_eq_div_pow]

theorem unpackSign_beq (b : BitVec Format.binary64.numBits) :
    (Sign.ofBitVec (unpackSign b) == .negative) = decide (2 ^ 63 ≤ b.toNat) := by
  have hlt : b.toNat < 2 ^ 64 := b.isLt
  have hbit : (unpackSign b).toNat = b.toNat / 2 ^ 63 % 2 := by
    simp only [unpackSign, BitVec.toNat_cast, BitVec.extractLsb_toNat, Nat.shiftRight_eq_div_pow]
  rw [Sign.ofBitVec]
  by_cases h : 2 ^ 63 ≤ b.toNat
  · have hset : unpackSign b ≠ 0#1 := by
      intro h0
      rw [h0] at hbit
      change 0 = _ at hbit
      omega
    rw [if_neg hset, decide_eq_true h]
    rfl
  · have hclear : unpackSign b = 0#1 := by
      apply BitVec.eq_of_toNat_eq
      rw [hbit]
      change _ = 0
      omega
    rw [if_pos hclear, decide_eq_false h]
    rfl

/-- The digits that are read off the bits are those of the double. -/
theorem ofFloat?_eq (x : Float) : Binary.ofFloat? x = match x.toModel.unpack with
    | .finite s m e _ => some ⟨s == .negative, m, e⟩
    | .zero s => some ⟨s == .negative, 0, -1074⟩
    | _ => none := by
  obtain ⟨b, hb⟩ : ∃ b : BitVec Format.binary64.numBits, b = x.toModel.toBits.toBitVec :=
    ⟨_, rfl⟩
  have hbits : x.toBits.toNat = b.toNat := by rw [hb]; rfl
  have hmantissa := toNat_unpackMantissa b
  have hexponent := toNat_unpackExponent b
  rw [Binary.ofFloat?, Float.Model.unpack, ← hb, UnpackedFloat.unpack]
  simp only [Nat.pow_eq, hbits, ← hmantissa, ← hexponent, ← unpackSign_beq]
  by_cases hinf : unpackExponent b = -1#11
  · have hscale : (unpackExponent b).toNat = 2047 := by rw [hinf]; rfl
    rw [if_pos hscale, if_pos hinf]
    by_cases hm : unpackMantissa b = 0#52
    · rw [if_pos hm]
    · rw [if_neg hm]
  · have hscale : (unpackExponent b).toNat ≠ 2047 := fun h => hinf (BitVec.eq_of_toNat_eq h)
    rw [if_neg hscale, if_neg hinf]
    by_cases hsub : unpackExponent b = 0#11
    · have hscale : (unpackExponent b).toNat = 0 := by rw [hsub]; rfl
      rw [if_pos hscale, if_pos hsub]
      by_cases hzero : unpackMantissa b = 0#52
      · have hm : (unpackMantissa b).toNat = 0 := by rw [hzero]; rfl
        rw [dif_pos hzero, hm]
      · rw [dif_neg hzero, hscale]
        rfl
    · have hscale : (unpackExponent b).toNat ≠ 0 := fun h => hsub (BitVec.eq_of_toNat_eq h)
      rw [if_neg hscale, if_neg hsub]
      simp only [toNat_implicit, Nat.add_comm (2 ^ 52)]
      rfl

/-- A finite double stands where its digits say. -/
theorem place_eq_standing {x : Float} {b : Binary} (h : Binary.ofFloat? x = some b) :
    -1074 ≤ b.exponent ∧
      place x = standing (b.signed (b.significand * 2 ^ (b.exponent + 2148).toNat)) := by
  have hc := canonical_toModel x
  rw [ofFloat?_eq] at h
  unfold place
  cases hx : x.toModel.unpack with
  | notANumber => rw [hx] at h; cases h
  | infinity s => rw [hx] at h; cases h
  | zero s =>
    rw [hx] at h
    cases h
    refine ⟨le_refl _, ?_⟩
    show (0 : Int) = standing (Binary.signed _ (0 * _))
    rw [Nat.zero_mul, Binary.signed, show (Int.ofNat 0) = 0 from rfl, Int.neg_zero, ite_self,
      standing_zero]
  | finite s m e hm =>
    rw [hx] at h hc
    cases h
    have hlow := hc.1.low
    have hspot : standing (m * 2 ^ (e + 2148).toNat : Nat) = spot m e := by
      have hunits : m * 2 ^ (e + 2148).toNat = units m e * 2 ^ 1074 := by
        rw [units, Nat.mul_assoc, ← Nat.pow_add]
        congr 2
        omega
      rw [standing_ofNat, hunits, ← hc.1.spot_eq hm, min_eq_right (hc.1.spot_lt_top hc.2).le]
    refine ⟨hlow, ?_⟩
    cases s
    · show -spot m e = standing (-(m * 2 ^ (e + 2148).toNat : Nat))
      rw [standing_neg, hspot]
    · exact hspot.symm

/-- No digits are read off the bits of an infinity or a missing number. -/
theorem place_of_ofFloat?_eq_none {x : Float} (h : Binary.ofFloat? x = none) :
    place x = -top ∨ top ≤ place x := by
  have hc := canonical_toModel x
  rw [ofFloat?_eq] at h
  unfold place
  cases hx : x.toModel.unpack with
  | notANumber => exact .inr (Int.lt_succ top).le
  | infinity s =>
    cases s
    · exact .inl rfl
    · exact .inr (le_refl top)
  | zero s => rw [hx] at h; cases h
  | finite s m e hm => rw [hx] at h; cases h

/-- The digits of a finite double are read off its bits. -/
theorem exists_ofFloat? {x : Float} (h : x.isFinite = true) : ∃ b, Binary.ofFloat? x = some b := by
  have hbetween := isFinite_iff.1 h
  cases hx : Binary.ofFloat? x with
  | some b => exact ⟨b, rfl⟩
  | none =>
    have := place_of_ofFloat?_eq_none hx
    omega

end SkySources.Double
