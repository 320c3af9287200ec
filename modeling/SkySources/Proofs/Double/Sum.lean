import SkySources.Proofs.Double.Difference
import SkySources.Proofs.Double.Whole

/-!
# Sums and remainders of doubles

Finite doubles are whole numbers of units, where the smallest double is one unit
(`measure`). Their sum is taken exactly and then rounded, and so is a remainder, so
the place of either is the place of its exact value in the line of numbers
(`standing`), and sums keep the order of their terms.

What is proved:
  1. `rank_round_any`: a magnitude of any scale is stored at the place of the
     nearest number;
  2. `place_add`, `place_sub_eq`: the places of sums and differences;
  3. `place_add_mono`, `place_sub_mono`: adding a double keeps order, and so does
     taking it away;
  4. `place_toFloat`, `abs_place_remainder`: a remainder is not larger than what was
     divided by.
-/

namespace SkySources.Double

open Float.Model Float.Model.UnpackedFloat

/-! ## Rounding at any scale -/

theorem apply_mul (s : Sign) (a b : Int) : s.apply a * b = s.apply (a * b) := by
  cases s
  · exact Int.neg_mul a b
  · rfl

theorem apply_standing (s : Sign) (n : Nat) :
    s.apply (min top (grade n)) = standing (s.apply n) := by
  cases s
  · rw [apply_negative, apply_negative, standing_neg, standing_ofNat]
  · exact (standing_ofNat n).symm

theorem rank_stored_zero (s : Sign) : rank (pack (.zero s)).unpack = 0 := by
  cases s <;> decide +kernel

theorem round_zero (s : Sign) (e : Int) : UnpackedFloat.round .binary64 s 0 e = .zero s := by
  have hnone (k : Nat) : Binary.halved 0 k = 0 := by simp [Binary.halved]
  simp only [UnpackedFloat.round, decreaseExponent, Nat.zero_shiftLeft, roundWithAccuracy,
    shiftToTargetExponent, shiftToExponent, ExtendedMantissa.ofMantissaAndAccuracy,
    roundedMantissa_shiftRight, hnone]
  simp only [shiftRight_eq, Nat.zero_div, dif_pos]

/-- A magnitude of any scale is stored at the place of the nearest number. -/
theorem rank_round_any {m : Nat} {e : Int} (s : Sign) (hm : 0 < m) (hlow : -2148 ≤ e) :
    rank (pack (UnpackedFloat.round .binary64 s m e)).unpack =
      standing (s.apply (m * 2 ^ (e + 2148).toNat : Nat)) := by
  -- digits are appended, if the last one counts more than it has to
  obtain ⟨j, hj⟩ : ∃ j : Nat, j = (e - cut m e).toNat := ⟨_, rfl⟩
  have hleast : -1074 ≤ cut m e := le_max_right _ _
  have hpos : 0 < m * 2 ^ j := Nat.mul_pos hm (Nat.two_pow_pos j)
  have hlog : (m * 2 ^ j).log2 = m.log2 + j := by
    rw [Nat.log2_eq_iff hpos.ne', Nat.add_right_comm, Nat.pow_add, Nat.pow_add]
    exact ⟨Nat.mul_le_mul_right _ (Nat.log2_self_le hm.ne'),
      Nat.mul_lt_mul_of_pos_right Nat.lt_log2_self (Nat.two_pow_pos j)⟩
  have hcut : cut (m * 2 ^ j) (e - j) = cut m e := by
    unfold cut
    rw [hlog]
    omega
  have hround : UnpackedFloat.round .binary64 s m e =
      roundWithAccuracy .binary64 s (m * 2 ^ j) (e - j) .exact := by
    simp only [UnpackedFloat.round, targetExponent_eq, decreaseExponent, ← hj, Nat.shiftLeft_eq]
  have hscale : m * 2 ^ j * 2 ^ (e - j + 2148).toNat = m * 2 ^ (e + 2148).toNat := by
    rw [Nat.mul_assoc, ← Nat.pow_add]
    congr 2
    omega
  rw [hround, rank_round s hpos (by omega), nearest_eq_grade hpos (by omega) (by omega), hscale,
    apply_standing]

/-- So is a number of either sign. -/
theorem rank_normalize_eq {d e : Int} (t : Sign) (hlow : -2148 ≤ e) :
    rank (pack (UnpackedFloat.normalize .binary64 d e t)).unpack =
      standing (d * 2 ^ (e + 2148).toNat) := by
  unfold UnpackedFloat.normalize
  rcases lt_trichotomy d 0 with h | rfl | h
  · rw [compare_lt_iff_lt.2 h]
    simp only
    rw [rank_round_any .negative (by omega) hlow, apply_negative]
    congr 1
    push_cast
    rw [Int.toNat_of_nonneg (by omega), Int.neg_mul, Int.neg_neg]
  · rw [compare_eq_iff_eq.2 rfl, Int.zero_mul, standing_zero]
    exact rank_stored_zero t
  · rw [compare_gt_iff_gt.2 h]
    simp only
    rw [rank_round_any .positive (by omega) hlow, apply_positive]
    congr 1
    push_cast
    rw [Int.toNat_of_nonneg (by omega)]

/-! ## Numbers in units of the smallest double -/

/-- A finite number, counted in units of the smallest double. -/
def measure : UnpackedFloat → Int
  | .finite s m e _ => s.apply (units m e)
  | _ => 0

/-- The smallest double, counted in units of its square. -/
def unit : Nat := 2 ^ 1074

theorem two_pow_eq_unit {k : Nat} (h : k = 1074) : 2 ^ k = unit := by rw [h, unit]

section Measure
variable {u v : UnpackedFloat}

theorem measure_neg (u : UnpackedFloat) : measure u.neg = -measure u := by
  cases u with
  | finite s m e hm =>
    cases s
    · exact (Int.neg_neg _).symm
    · rfl
  | _ => rfl

/-- A finite number stands where its measure says. -/
theorem rank_eq_standing (hu : Canonical u) (h : -top < rank u ∧ rank u < top) :
    rank u = standing (measure u * unit) := by
  rcases finite_cases h with ⟨s, rfl⟩ | ⟨s, m, e, hm, rfl⟩
  · change 0 = standing (0 * unit)
    rw [Int.zero_mul, standing_zero]
  · have hspot := hu.1.spot_eq hm
    rw [two_pow_eq_unit rfl] at hspot
    rw [rank, measure, apply_mul, ← Nat.cast_mul, ← apply_standing, ← hspot,
      min_eq_right (hu.1.spot_lt_top hu.2).le]

/-- Finite numbers in order have measures in order. -/
theorem measure_le (hu : Canonical u) (hv : Canonical v) (h : -top < rank u ∧ rank u < top)
    (h' : -top < rank v ∧ rank v < top) (hle : rank u ≤ rank v) : measure u ≤ measure v := by
  rcases finite_cases h with ⟨s, rfl⟩ | ⟨s, m, e, hm, rfl⟩
  · rcases finite_cases h' with ⟨t, rfl⟩ | ⟨t, n, f, hn, rfl⟩
    · exact le_refl 0
    · have hpos := hv.1.spot_pos hn
      cases t
      · simp only [rank, apply_negative] at hle
        omega
      · exact Int.natCast_nonneg _
  · rcases finite_cases h' with ⟨t, rfl⟩ | ⟨t, n, f, hn, rfl⟩
    · have hpos := hu.1.spot_pos hm
      cases s
      · exact Int.neg_nonpos_of_nonneg (Int.natCast_nonneg _)
      · simp only [rank, apply_positive] at hle
        omega
    · exact apply_units_le hu hv hle

end Measure

/-! ## Sums -/

theorem sub_eq_add_neg (u v : UnpackedFloat) :
    UnpackedFloat.sub .binary64 u v = UnpackedFloat.add .binary64 u v.neg := by
  cases u with
  | notANumber => cases v <;> rfl
  | infinity s => cases v <;> rfl
  | zero s => cases v <;> rfl
  | finite s m e hm =>
    cases v with
    | finite t n f hn =>
      have happly (k : Int) : (-t).apply k = -t.apply k := by
        cases t
        · exact (Int.neg_neg k).symm
        · rfl
      change UnpackedFloat.normalize .binary64 _ _ _ = UnpackedFloat.normalize .binary64 _ _ _
      rw [happly, Int.sub_eq_add_neg]
    | _ => rfl

/-- A sum of finite numbers stands where the sum of their measures says. -/
theorem rank_add {u v : UnpackedFloat} (hu : Canonical u) (hv : Canonical v)
    (h : -top < rank u ∧ rank u < top) (h' : -top < rank v ∧ rank v < top) :
    rank (pack (UnpackedFloat.add .binary64 u v)).unpack =
      standing ((measure u + measure v) * unit) := by
  rcases finite_cases h with ⟨s, rfl⟩ | ⟨s, m, e, hm, rfl⟩
  · rcases finite_cases h' with ⟨t, rfl⟩ | ⟨t, n, f, hn, rfl⟩
    · change _ = standing ((0 + 0) * unit)
      rw [Int.add_zero, Int.zero_mul, standing_zero]
      cases s <;> cases t <;> exact rank_stored_zero _
    · change rank (pack (.finite t n f hn)).unpack = standing ((0 + measure _) * unit)
      rw [unpack_pack_of_canonical hv, Int.zero_add]
      exact rank_eq_standing hv h'
  · rcases finite_cases h' with ⟨t, rfl⟩ | ⟨t, n, f, hn, rfl⟩
    · change rank (pack (.finite s m e hm)).unpack = standing ((measure _ + 0) * unit)
      rw [unpack_pack_of_canonical hu, Int.add_zero]
      exact rank_eq_standing hu h
    · have hlow : -1074 ≤ min e f := le_min hu.1.low hv.1.low
      have hpower : (2 : Int) ^ (min e f + 2148).toNat = 2 ^ (min e f + 1074).toNat * unit := by
        have hsplit : (min e f + 2148).toNat = (min e f + 1074).toNat + 1074 := by omega
        rw [hsplit, Int.pow_add, ← two_pow_eq_unit rfl, Nat.cast_pow]
        rfl
      have hu' := decreaseExponent_units (m := m) hlow (min_le_left e f)
      have hv' := decreaseExponent_units (m := n) hlow (min_le_right e f)
      change rank (pack (UnpackedFloat.normalize .binary64 (s.apply (decreaseExponent m e _).1 +
        t.apply (decreaseExponent n f _).1) (min e f) .positive)).unpack = _
      rw [rank_normalize_eq _ (by omega), measure, measure, ← hu', ← hv', hpower, ← Int.mul_assoc,
        Int.add_mul, apply_mul, apply_mul]
      push_cast
      rfl

/-! ## Doubles -/

/-- A finite double, counted in units of the smallest one. -/
def exact (x : Float) : Int := measure x.toModel.unpack

section Finite
variable {x x' y : Float} (hx : x.isFinite = true) (hx' : x'.isFinite = true)
  (hy : y.isFinite = true)

include hx hy in
theorem place_add : place (x + y) = standing ((exact x + exact y) * unit) :=
  rank_add (canonical_toModel x) (canonical_toModel y) (isFinite_iff.1 hx) (isFinite_iff.1 hy)

include hx hy in
theorem place_sub_eq : place (x - y) = standing ((exact x - exact y) * unit) := by
  have hy' := isFinite_iff.1 hy
  have hneg : rank y.toModel.unpack.neg = -place y :=
    rank_neg ((rank_le_top (canonical_toModel y)).1 hy'.2.le)
  change rank (pack (UnpackedFloat.sub .binary64 _ _)).unpack = _
  rw [sub_eq_add_neg, rank_add (canonical_toModel x) (canonical_neg (canonical_toModel y))
    (isFinite_iff.1 hx) (by rw [hneg]; omega), measure_neg, exact, exact, Int.sub_eq_add_neg]

include hx hx' in
theorem exact_le (h : place x ≤ place x') : exact x ≤ exact x' :=
  measure_le (canonical_toModel x) (canonical_toModel x') (isFinite_iff.1 hx) (isFinite_iff.1 hx') h

include hx hx' hy

/-- Adding a double keeps order. -/
theorem place_add_mono (h : place x ≤ place x') : place (x + y) ≤ place (x' + y) := by
  rw [place_add hx hy, place_add hx' hy]
  exact standing_mono (Int.mul_le_mul_of_nonneg_right
    (Int.add_le_add_right (exact_le hx hx' h) _) (Int.natCast_nonneg unit))

/-- Taking a double away keeps order. -/
theorem place_sub_mono (h : place x ≤ place x') : place (x - y) ≤ place (x' - y) := by
  rw [place_sub_eq hx hy, place_sub_eq hx' hy]
  exact standing_mono (Int.mul_le_mul_of_nonneg_right
    (Int.sub_le_sub_right (exact_le hx hx' h) _) (Int.natCast_nonneg unit))

end Finite

/-! ## Remainders -/

/-- A number written in digits becomes the double at its place. -/
theorem place_toFloat {b : Binary} (h : -2148 ≤ b.exponent) : place b.toFloat =
    standing (b.signed (b.significand * 2 ^ (b.exponent + 2148).toNat)) := by
  obtain ⟨negative, m, e⟩ := b
  change rank (pack (UnpackedFloat.round .binary64 (if negative then .negative else .positive) m
    e)).unpack = _
  rcases Nat.eq_zero_or_pos m with rfl | hm
  · rw [round_zero, rank_stored_zero, Nat.zero_mul, Binary.signed]
    cases negative <;> exact standing_zero.symm
  · rw [rank_round_any _ hm h, Binary.signed]
    cases negative <;> rfl

/-- A remainder of numbers has a magnitude below that of the divisor. -/
theorem modulo_lt {a b : Binary} (ha : -1074 ≤ a.exponent) (hb : -1074 ≤ b.exponent)
    (h : b.significand ≠ 0) :
    (a.modulo b).significand * 2 ^ ((a.modulo b).exponent + 2148).toNat <
      b.significand * 2 ^ (b.exponent + 2148).toNat := by
  have hlow : -1074 ≤ min a.exponent b.exponent := le_min ha hb
  have hdivisor : 0 < b.unitsOf (min a.exponent b.exponent) :=
    Nat.mul_pos (Nat.pos_of_ne_zero h) (Nat.two_pow_pos _)
  have hscale : b.unitsOf (min a.exponent b.exponent) *
      2 ^ (min a.exponent b.exponent + 2148).toNat =
        b.significand * 2 ^ (b.exponent + 2148).toNat := by
    rw [Binary.unitsOf, Nat.pow_eq, Nat.mul_assoc, ← Nat.pow_add]
    congr 2
    have hle : min a.exponent b.exponent ≤ b.exponent := min_le_right _ _
    omega
  rw [← hscale]
  exact Nat.mul_lt_mul_of_pos_right (Nat.mod_lt _ hdivisor) (Nat.two_pow_pos _)

/-- A remainder is no further from zero than what was divided by. -/
theorem abs_place_remainder {x y : Float} (hx : x.isFinite = true) (hy : y.isFinite = true)
    (hpos : 0 < place y) : |place (Binary.remainder x y)| ≤ place y := by
  obtain ⟨a, ha⟩ := exists_ofFloat? hx
  obtain ⟨b, hb⟩ := exists_ofFloat? hy
  obtain ⟨halow, -⟩ := place_eq_standing ha
  obtain ⟨hblow, hplace⟩ := place_eq_standing hb
  have hlow : -1074 ≤ (a.modulo b).exponent := le_min halow hblow
  have hsigned (c : Binary) (n : Nat) : c.signed n = n ∨ c.signed n = -(n : Int) := by
    rw [Binary.signed]
    split
    · exact .inr rfl
    · exact .inl rfl
  -- the divisor is positive, so its digits are not zero
  have hb0 : b.significand ≠ 0 := by
    intro h0
    rw [h0, Nat.zero_mul] at hplace
    rcases hsigned b 0 with h | h
    · rw [h, Nat.cast_zero, standing_zero] at hplace
      omega
    · rw [h, Nat.cast_zero, Int.neg_zero, standing_zero] at hplace
      omega
  have hdivisor : place y = standing (b.significand * 2 ^ (b.exponent + 2148).toNat : Nat) := by
    rcases hsigned b (b.significand * 2 ^ (b.exponent + 2148).toNat) with h | h
    · rw [hplace, h]
    · rw [h, standing_neg] at hplace
      have := standing_mono (Int.natCast_nonneg
        (b.significand * 2 ^ (b.exponent + 2148).toNat))
      rw [standing_zero] at this
      omega
  have hlt := (modulo_lt halow hblow hb0).le
  have hremainder : Binary.remainder x y = (a.modulo b).toFloat := by
    simp only [Binary.remainder, ha, hb, if_neg hb0]
  rw [hremainder, place_toFloat (by omega), hdivisor]
  generalize (a.modulo b).significand * 2 ^ ((a.modulo b).exponent + 2148).toNat = m at *
  generalize b.significand * 2 ^ (b.exponent + 2148).toNat = n at *
  have hle := standing_mono (Int.ofNat_le.2 hlt)
  have hzero := standing_mono (Int.natCast_nonneg m)
  rw [standing_zero] at hzero
  rcases hsigned (a.modulo b) m with h | h
  · rw [h, abs_of_nonneg hzero]
    exact hle
  · rw [h, standing_neg, abs_neg, abs_of_nonneg hzero]
    exact hle

end SkySources.Double
