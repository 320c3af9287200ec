import SkySources.Proofs.Double.Order

/-!
# The rounding of doubles

Rounding drops the last digits of a number and looks at what is dropped. Written in
one step (`halved`), that is division by a power of two to the nearest whole number,
so it keeps the order of numbers, and a number that is rounded has one place in the
line of doubles, however it is written (`nearest`).

What is proved:
  1. `roundedMantissa_shiftRight`: dropping digits one by one and rounding then is
     dividing and rounding at once;
  2. `nearest_mono`, `nearest_scale`: rounding keeps order, and it does not depend
     on the scale of the digits;
  3. `rank_round`: what is rounded is stored at the place of the nearest number.
-/

namespace SkySources.Double

open Float.Model Float.Model.UnpackedFloat
open Binary (halved)

/-! ## Dropping digits -/

/-- Of the digits that are dropped it is known whether they make at least a half, and
whether they make anything but nothing and a half. -/
theorem shiftRight_eq (m k : Nat) : (ExtendedMantissa.mk m false false) >>> k =
    ⟨m / 2 ^ k, decide (2 ^ k ≤ 2 * (m % 2 ^ k)),
      decide (2 * (m % 2 ^ k) ≠ 0 ∧ 2 * (m % 2 ^ k) ≠ 2 ^ k)⟩ := by
  induction k with
  | zero => simp [HShiftRight.hShiftRight, Nat.repeat, Nat.mod_one]
  | succ k ih =>
    show ExtendedMantissa.shiftRightOne ((ExtendedMantissa.mk m false false) >>> k) = _
    have hrest : m % 2 ^ k < 2 ^ k := Nat.mod_lt _ (Nat.two_pow_pos k)
    have hdigit := Nat.mod_two_eq_zero_or_one (m / 2 ^ k)
    have hrest' : m % 2 ^ (k + 1) = m % 2 ^ k + 2 ^ k * (m / 2 ^ k % 2) := Nat.mod_pow_succ
    -- the digit that is dropped last counts as a half of the new unit
    have hround : (m / 2 ^ k % 2 != 0) = decide (2 ^ (k + 1) ≤ 2 * (m % 2 ^ (k + 1))) := by
      rw [Bool.eq_iff_iff, bne_iff_ne, decide_eq_true_iff, hrest', Nat.pow_succ]
      rcases hdigit with h | h <;> rw [h] <;> omega
    have hsticky : (decide (2 ^ k ≤ 2 * (m % 2 ^ k)) ||
        decide (2 * (m % 2 ^ k) ≠ 0 ∧ 2 * (m % 2 ^ k) ≠ 2 ^ k)) =
        decide (2 * (m % 2 ^ (k + 1)) ≠ 0 ∧ 2 * (m % 2 ^ (k + 1)) ≠ 2 ^ (k + 1)) := by
      rw [Bool.eq_iff_iff, Bool.or_eq_true, decide_eq_true_iff, decide_eq_true_iff,
        decide_eq_true_iff, hrest', Nat.pow_succ]
      rcases hdigit with h | h <;> rw [h] <;> omega
    rw [ih, ExtendedMantissa.shiftRightOne]
    show (⟨m / 2 ^ k / 2, m / 2 ^ k % 2 != 0, _⟩ : ExtendedMantissa) = _
    rw [hround, hsticky, Nat.div_div_eq_div_mul, ← Nat.pow_succ]

theorem roundedMantissa_shiftRight (m k : Nat) :
    ((ExtendedMantissa.mk m false false) >>> k).roundedMantissa = halved m k := by
  have hrest : m % 2 ^ k < 2 ^ k := Nat.mod_lt _ (Nat.two_pow_pos k)
  rw [shiftRight_eq, halved]
  simp only [Nat.pow_eq]
  rcases Nat.lt_trichotomy (2 * (m % 2 ^ k)) (2 ^ k) with hlt | heq | hgt
  · rw [if_pos hlt, decide_eq_false (Nat.not_le.2 hlt)]
    cases decide (2 * (m % 2 ^ k) ≠ 0 ∧ 2 * (m % 2 ^ k) ≠ 2 ^ k) <;> rfl
  · rw [heq, if_neg (Nat.lt_irrefl _), if_neg (Nat.lt_irrefl _), decide_eq_true (Nat.le_refl _),
      decide_eq_false (fun h => h.2 rfl)]
    rfl
  · rw [if_neg (Nat.lt_asymm hgt), if_pos hgt, decide_eq_true hgt.le,
      decide_eq_true ⟨by omega, hgt.ne'⟩]
    rfl

/-! ## Dividing by a power of two -/

theorem div_le_halved (m k : Nat) : m / 2 ^ k ≤ halved m k := by
  rw [halved]
  simp only [Nat.pow_eq]
  split
  · exact Nat.le_refl _
  · split
    · exact Nat.le_succ _
    · exact Nat.le_add_right _ _

theorem halved_le_div (m k : Nat) : halved m k ≤ m / 2 ^ k + 1 := by
  rw [halved]
  simp only [Nat.pow_eq]
  split
  · exact Nat.le_succ _
  · split
    · exact Nat.le_refl _
    · have := Nat.mod_lt (m / 2 ^ k) Nat.two_pos
      omega

theorem halved_mono {m m' : Nat} (h : m ≤ m') (k : Nat) : halved m k ≤ halved m' k := by
  rcases Nat.lt_or_eq_of_le (Nat.div_le_div_right (c := 2 ^ k) h) with hlt | heq
  · calc halved m k ≤ m / 2 ^ k + 1 := halved_le_div m k
      _ ≤ m' / 2 ^ k := hlt
      _ ≤ halved m' k := div_le_halved m' k
  · -- with the same quotient it is the rest that decides
    have hm := Nat.div_add_mod m (2 ^ k)
    have hm' := Nat.div_add_mod m' (2 ^ k)
    rw [halved, halved]
    simp only [Nat.pow_eq]
    rw [heq] at hm ⊢
    split <;> split <;> (try split) <;> (try split) <;> omega

theorem halved_scale (m k j : Nat) : halved (m * 2 ^ j) (k + j) = halved m k := by
  have hj : 0 < 2 ^ j := Nat.two_pow_pos j
  rw [halved, halved]
  simp only [Nat.pow_eq, Nat.pow_add, Nat.mul_mod_mul_right, Nat.mul_div_mul_right _ _ hj,
    ← Nat.mul_assoc, Nat.mul_lt_mul_right hj]

theorem halved_le_of_lt {m k : Nat} (h : m < 2 ^ (k + 53)) : halved m k ≤ 2 ^ 53 := by
  have hq : m / 2 ^ k < 2 ^ 53 := by
    rw [Nat.div_lt_iff_lt_mul (Nat.two_pow_pos k), ← Nat.pow_add, Nat.add_comm]
    exact h
  exact (halved_le_div m k).trans hq

theorem le_halved_of_le {m k : Nat} (h : 2 ^ (k + 52) ≤ m) : 2 ^ 52 ≤ halved m k := by
  refine le_trans ?_ (div_le_halved m k)
  rw [Nat.le_div_iff_mul_le (Nat.two_pow_pos k), ← Nat.pow_add, Nat.add_comm]
  exact h

/-! ## The nearest number -/

/-- How much the last digit counts after rounding. -/
def cut (m : Nat) (e : Int) : Int := max (m.log2 + 1 + e - 53) (-1074)

/-- The digits after rounding. -/
def kept (m : Nat) (e : Int) : Nat := halved m (cut m e - e).toNat

/-- The place of the nearest number. -/
def nearest (m : Nat) (e : Int) : Int := spot (kept m e) (cut m e)

theorem targetExponent_eq (m : Nat) (e : Int) :
    Format.binary64.targetExponent (totalExponent m e) = cut m e := rfl

section Round
variable {m : Nat} {e : Int}

/-- The digits that are kept are 53, unless all of them are carried over. -/
theorem kept_le (he : e ≤ cut m e) : kept m e ≤ 2 ^ 53 := by
  have hlog := Nat.lt_log2_self (n := m)
  apply halved_le_of_lt
  refine hlog.trans_le (Nat.pow_le_pow_right Nat.two_pos ?_)
  have : (m.log2 : Int) + 1 + e - 53 ≤ cut m e := le_max_left _ _
  omega

/-- They are no fewer, unless the last one counts as little as a digit can. -/
theorem le_kept (hm : 0 < m) (he : e ≤ cut m e) : 2 ^ 52 ≤ kept m e ∨ cut m e = -1074 := by
  rcases max_choice ((m.log2 : Int) + 1 + e - 53) (-1074) with h | h
  · left
    apply le_halved_of_le
    refine (Nat.pow_le_pow_right Nat.two_pos ?_).trans (Nat.log2_self_le hm.ne')
    unfold cut at he ⊢
    omega
  · exact .inr h

theorem fits_kept (hm : 0 < m) (he : e ≤ cut m e) (h : kept m e ≠ 2 ^ 53) :
    Fits (kept m e) (cut m e) :=
  ⟨le_max_right _ _, lt_of_le_of_ne (kept_le he) h, le_kept hm he⟩

/-- Digits that fit stay as they are. -/
theorem Fits.cut_eq (h : Fits m e) (hm : 0 < m) : cut m e = e := by
  obtain ⟨hlow, hshort, hfull⟩ := h
  have hlog : m.log2 < 53 := (Nat.log2_lt hm.ne').2 hshort
  unfold cut
  rcases hfull with hfull | rfl
  · have : 52 ≤ m.log2 := (Nat.le_log2 hm.ne').2 hfull
    omega
  · omega

/-- Once the digits are rounded, they may have to be cut again. -/
theorem round_eq (s : Sign) (he : e ≤ cut m e) :
    roundWithAccuracy .binary64 s m e .exact =
      if h : kept m e / 2 ^ (cut (kept m e) (cut m e) - cut m e).toNat = 0 then .zero s
      else .finite s (kept m e / 2 ^ (cut (kept m e) (cut m e) - cut m e).toNat)
        (cut m e + (cut (kept m e) (cut m e) - cut m e).toNat) (Nat.pos_of_ne_zero h) := by
  have hcut : e + (cut m e - e).toNat = cut m e := by omega
  unfold roundWithAccuracy shiftToTargetExponent shiftToExponent
  simp only [targetExponent_eq, ExtendedMantissa.ofMantissaAndAccuracy, roundedMantissa_shiftRight,
    hcut, ← kept.eq_1]
  simp only [shiftRight_eq]

theorem rank_round (s : Sign) (hm : 0 < m) (he : e ≤ cut m e) :
    rank (pack (roundWithAccuracy .binary64 s m e .exact)).unpack =
      s.apply (min top (nearest m e)) := by
  rw [round_eq s he, nearest]
  by_cases hcarry : kept m e = 2 ^ 53
  · -- all digits are carried over, so the number is the next power of two
    have hnext : cut (2 ^ 53) (cut m e) = cut m e + 1 := by
      have : -1074 ≤ cut m e := le_max_right _ _
      rw [cut, Nat.log2_two_pow]
      omega
    have hone : (cut m e + 1 - cut m e).toNat = 1 := by omega
    have hlow : -1074 ≤ cut m e := le_max_right _ _
    simp only [hcarry, hnext, hone]
    rw [dif_neg (by decide), rank_unpack_pack]
    · congr 2
      unfold spot
      omega
    · exact ⟨by omega, by decide, .inl (by decide)⟩
  · have hfits := fits_kept hm he hcarry
    by_cases hzero : kept m e = 0
    · -- nothing is left, which takes digits that count as little as they can
      have hleast : cut m e = -1074 := hfits.full.resolve_left (by omega)
      rw [dif_pos (by rw [hzero, Nat.zero_div]), hzero, hleast]
      have htop := top_pos
      rw [show spot 0 (-1074) = 0 from rfl, min_eq_right htop.le]
      cases s <;> decide +kernel
    · have hpos := Nat.pos_of_ne_zero hzero
      simp only [hfits.cut_eq hpos, Int.sub_self, Int.toNat_zero, Nat.pow_zero, Nat.div_one,
        Int.natCast_zero, Int.add_zero]
      rw [dif_neg hzero, rank_unpack_pack hpos hfits]

end Round

/-! ## Order -/

theorem spot_mono {m m' : Nat} {e e' : Int} (hm : m ≤ 2 ^ 53) (he : e < e') (hm' : 2 ^ 52 ≤ m') :
    spot m e ≤ spot m' e' := by
  unfold spot
  omega

/-- Rounding keeps the order of digits that count the same. -/
theorem nearest_mono {m m' : Nat} {e : Int} (h : m ≤ m') (he : e ≤ cut m e) :
    nearest m e ≤ nearest m' e := by
  have hlog : m.log2 ≤ m'.log2 := by
    rw [Nat.log2_eq_log_two, Nat.log2_eq_log_two]
    exact Nat.log_mono_right h
  have hcut : cut m e ≤ cut m' e := by
    unfold cut
    omega
  rcases hcut.lt_or_eq with hlt | heq
  · -- the larger number has more digits, the last of which counts more
    have hpos : 0 < m' := by
      apply Nat.pos_of_ne_zero
      rintro rfl
      rw [Nat.le_zero.1 h] at hlt
      exact absurd hlt (lt_irrefl _)
    have hleast : -1074 ≤ cut m e := le_max_right _ _
    have hfull := (le_kept hpos (he.trans hcut)).resolve_right (by omega)
    exact spot_mono (kept_le he) hlt hfull
  · rw [nearest, nearest, kept, kept, ← heq]
    have := halved_mono h (cut m e - e).toNat
    unfold spot
    omega

/-- Rounding does not depend on how a number is written. -/
theorem nearest_scale {m : Nat} {e : Int} (hm : 0 < m) (he : e ≤ cut m e) (j : Nat) :
    nearest (m * 2 ^ j) (e - j) = nearest m e := by
  have hlog : (m * 2 ^ j).log2 = m.log2 + j := by
    have hpow : 0 < 2 ^ j := Nat.two_pow_pos j
    rw [Nat.log2_eq_iff (Nat.mul_ne_zero hm.ne' hpow.ne'), Nat.add_right_comm, Nat.pow_add,
      Nat.pow_add]
    exact ⟨Nat.mul_le_mul_right _ (Nat.log2_self_le hm.ne'),
      Nat.mul_lt_mul_of_pos_right Nat.lt_log2_self hpow⟩
  have hcut : cut (m * 2 ^ j) (e - j) = cut m e := by
    unfold cut
    rw [hlog]
    omega
  have hshift : (cut m e - (e - j)).toNat = (cut m e - e).toNat + j := by omega
  rw [nearest, nearest, kept, kept, hcut, hshift, halved_scale]

/-- What fits is its own nearest number. -/
theorem Fits.nearest_eq {m : Nat} {e : Int} (h : Fits m e) (hm : 0 < m) :
    nearest m e = spot m e := by
  rw [nearest, kept, h.cut_eq hm, Int.sub_self, Int.toNat_zero]
  congr 1
  rw [halved]
  simp [Nat.mod_one]

/-! ## One scale for all numbers -/

/-- A magnitude that counts in units of the smallest double. -/
def units (m : Nat) (e : Int) : Nat := m * 2 ^ (e + 1074).toNat

/-- The place of a magnitude that counts in units of the square of the smallest
double, which are fine enough for products. -/
def grade (n : Nat) : Int := nearest n (-2148)

theorem grade_mono {n n' : Nat} (h : n ≤ n') : grade n ≤ grade n' := by
  apply nearest_mono h
  have : -1074 ≤ cut n (-2148) := le_max_right _ _
  omega

theorem grade_zero : grade 0 = 0 := by decide +kernel

theorem grade_nonneg (n : Nat) : 0 ≤ grade n := grade_zero ▸ grade_mono (Nat.zero_le n)

theorem nearest_eq_grade {m : Nat} {e : Int} (hm : 0 < m) (he : e ≤ cut m e) (hlow : -2148 ≤ e) :
    nearest m e = grade (m * 2 ^ (e + 2148).toNat) := by
  rw [← nearest_scale hm he (e + 2148).toNat, grade]
  congr 1
  omega

/-- The place of a double goes by its magnitude. -/
theorem Fits.spot_eq {m : Nat} {e : Int} (h : Fits m e) (hm : 0 < m) :
    spot m e = grade (units m e * 2 ^ 1074) := by
  have hlow := h.low
  rw [← h.nearest_eq hm, nearest_eq_grade hm (h.cut_eq hm).ge (by omega), units, Nat.mul_assoc,
    ← Nat.pow_add]
  congr 3
  omega

/-- Doubles are ordered by their magnitudes. -/
theorem Fits.units_le {m m' : Nat} {e e' : Int} (h : Fits m e) (h' : Fits m' e')
    (hle : spot m e ≤ spot m' e') : units m e ≤ units m' e' := by
  obtain ⟨hlow, hshort, _⟩ := h
  obtain ⟨hlow', _, hfull'⟩ := h'
  unfold spot at hle
  have he : e ≤ e' := by omega
  obtain ⟨j, hj⟩ : ∃ j : Nat, (e' + 1074).toNat = (e + 1074).toNat + j :=
    ⟨(e' - e).toNat, by omega⟩
  have hm : m ≤ m' * 2 ^ j := by
    rcases j with _ | j
    · omega
    · -- the next exponent has room for all digits of this one
      have hfull : 2 ^ 52 ≤ m' := by omega
      calc m ≤ 2 ^ 53 := hshort.le
        _ = 2 ^ 52 * 2 := rfl
        _ ≤ m' * 2 ^ (j + 1) := Nat.mul_le_mul hfull (by
            rw [Nat.pow_succ]
            exact Nat.le_mul_of_pos_left 2 (Nat.two_pow_pos j))
  calc units m e ≤ m' * 2 ^ j * 2 ^ (e + 1074).toNat := Nat.mul_le_mul_right _ hm
    _ = units m' e' := by rw [units, hj, Nat.pow_add, Nat.mul_assoc, Nat.mul_comm (2 ^ j)]

/-- The place of a product of magnitudes. -/
theorem rank_round_mul {m n : Nat} {e f : Int} (s : Sign) (hm : 0 < m) (hn : 0 < n) (h : Fits m e)
    (h' : Fits n f) :
    rank (pack (roundWithAccuracy .binary64 s (m * n) (e + f) .exact)).unpack =
      s.apply (min top (grade (units m e * units n f))) := by
  have hlow := h.low
  have hlow' := h'.low
  have hpos : 0 < m * n := Nat.mul_pos hm hn
  -- a product has digits enough, or its last one counts less than any digit can
  have hcut : e + f ≤ cut (m * n) (e + f) := by
    by_cases hfull : 2 ^ 52 ≤ m * n
    · have hlog : 52 ≤ (m * n).log2 := (Nat.le_log2 hpos.ne').2 hfull
      unfold cut
      omega
    · have he : e = -1074 := h.full.resolve_left fun hm' =>
        hfull (hm'.trans (Nat.le_mul_of_pos_right m hn))
      have hf : f = -1074 := h'.full.resolve_left fun hn' =>
        hfull (hn'.trans (Nat.le_mul_of_pos_left n hm))
      unfold cut
      omega
  have hunits : m * n * 2 ^ (e + f + 2148).toNat = units m e * units n f := by
    rw [units, units, Nat.mul_mul_mul_comm, ← Nat.pow_add]
    congr 2
    omega
  rw [rank_round s hpos hcut, nearest_eq_grade hpos hcut (by omega), hunits]

end SkySources.Double
