import Mathlib
import SkySources.Proofs.Double.Sum

/-!
# The nearest double

The doubles that are not negative form a ladder. Its rungs are counted from zero, and each
stands for so many units of the smallest double (`rung`). A step upwards is as large as the last
digit counts, so the ladder grows, and the rung nearest to a number is told by the middles of
the steps: it is the first one whose step has its middle above the number (`Below`), where a
number right in the middle goes to the even rung.

What is proved:
  1. `rung_spot`, `rung_lt_succ`: the ladder from the digits of doubles;
  2. `grade_le_iff`: numbers are rounded to the nearest rung;
  3. `exact_eq_rung`: a double stands for its rung;
  4. `IsAt.isNearest_iff`: the double at the nearest rung is the nearest double, and the only one.
-/

namespace SkySources.Double

open Float.Model Float.Model.UnpackedFloat Binary

/-! ## The ladder -/

/-- What a rung stands for, in units of the smallest double. -/
def rung (n : Nat) : Nat :=
  if n < 2 ^ 52 then n else (2 ^ 52 + n % 2 ^ 52) * 2 ^ (n / 2 ^ 52 - 1)

theorem rung_spot {m k : Nat} (h : m < 2 ^ 53) (hfull : 2 ^ 52 ≤ m ∨ k = 0) :
    rung (k * 2 ^ 52 + m) = m * 2 ^ k := by
  rw [rung]
  by_cases hlow : k * 2 ^ 52 + m < 2 ^ 52
  · obtain rfl : k = 0 := by omega
    rw [if_pos hlow]
    omega
  · have hrest : (k * 2 ^ 52 + m) % 2 ^ 52 = m - 2 ^ 52 := by omega
    have hexponent : (k * 2 ^ 52 + m) / 2 ^ 52 - 1 = k := by omega
    have hdigits : 2 ^ 52 + (m - 2 ^ 52) = m := by omega
    rw [if_neg hlow, hrest, hexponent, hdigits]

/-- Every rung is written with digits that fit. -/
theorem exists_spot (n : Nat) :
    ∃ m k, m < 2 ^ 53 ∧ (2 ^ 52 ≤ m ∨ k = 0) ∧ n = k * 2 ^ 52 + m := by
  by_cases hlow : n < 2 ^ 52
  · exact ⟨n, 0, by omega, .inr rfl, by omega⟩
  · exact ⟨2 ^ 52 + n % 2 ^ 52, n / 2 ^ 52 - 1, by omega, .inl (by omega), by omega⟩

/-- The next rung counts one more of the last digit, also where all digits are carried over. -/
theorem rung_succ {m k : Nat} (h : m < 2 ^ 53) (hfull : 2 ^ 52 ≤ m ∨ k = 0) :
    rung (k * 2 ^ 52 + m + 1) = (m + 1) * 2 ^ k := by
  by_cases hcarry : m + 1 = 2 ^ 53
  · have hnext : k * 2 ^ 52 + m + 1 = (k + 1) * 2 ^ 52 + 2 ^ 52 := by omega
    have hpower : 2 ^ 52 * 2 ^ (k + 1) = 2 ^ 53 * 2 ^ k := by
      rw [← Nat.pow_add, ← Nat.pow_add]
      congr 1
      omega
    rw [hnext, rung_spot (by omega) (.inl le_rfl), hpower, hcarry]
  · have hspot := rung_spot (m := m + 1) (k := k) (by omega) (by omega)
    rwa [← Nat.add_assoc] at hspot

theorem rung_lt_succ (n : Nat) : rung n < rung (n + 1) := by
  obtain ⟨m, k, hm, hfull, rfl⟩ := exists_spot n
  rw [rung_spot hm hfull, rung_succ hm hfull]
  exact Nat.mul_lt_mul_of_pos_right (Nat.lt_succ_self m) (Nat.two_pow_pos k)

theorem rung_strictMono : StrictMono rung := strictMono_nat_of_lt_succ rung_lt_succ

/-! ## Rounding -/

/-- Between two rungs, a number is rounded where the lower one has its digits. -/
theorem grade_eq {m k n : Nat} (hm : m < 2 ^ 53) (hfull : 2 ^ 52 ≤ m ∨ k = 0)
    (hdiv : n / 2 ^ (k + 1074) = m) : grade n = k * 2 ^ 52 + halved n (k + 1074) := by
  have hpow := Nat.two_pow_pos (k + 1074)
  have hhigh : n < 2 ^ (53 + (k + 1074)) := by
    rw [Nat.pow_add, ← Nat.div_lt_iff_lt_mul hpow, hdiv]
    exact hm
  have hcut : Double.cut n (-2148) = k - 1074 := by
    unfold Double.cut
    rcases hfull with hfull | hk
    · have hlow : 2 ^ (52 + (k + 1074)) ≤ n := by
        rw [Nat.pow_add, ← Nat.le_div_iff_mul_le hpow, hdiv]
        exact hfull
      have hlog : n.log2 = 52 + (k + 1074) := by
        rw [Nat.log2_eq_iff ((Nat.two_pow_pos _).trans_le hlow).ne', Nat.add_right_comm]
        exact ⟨hlow, hhigh⟩
      omega
    · have hlog : n.log2 < 53 + (k + 1074) := by
        rcases Nat.eq_zero_or_pos n with rfl | hn
        · rw [Nat.log2_zero]
          omega
        · exact (Nat.log2_lt hn.ne').2 hhigh
      omega
  have hbits : (Double.cut n (-2148) - -2148).toNat = k + 1074 := by omega
  rw [grade, Double.nearest, kept, hbits, hcut, spot]
  omega

/-- A rung is not rounded. -/
theorem grade_rung (n : Nat) : grade (rung n * unit) = n := by
  obtain ⟨m, k, hm, hfull, rfl⟩ := exists_spot n
  have hhalved : halved (m * 2 ^ (k + 1074)) (k + 1074) = m := by
    have hscale := halved_scale m 0 (k + 1074)
    rw [Nat.zero_add] at hscale
    rw [hscale, halved]
    simp [Nat.mod_one]
  rw [rung_spot hm hfull, ← two_pow_eq_unit rfl, Nat.mul_assoc, ← Nat.pow_add,
    grade_eq hm hfull (Nat.mul_div_cancel m (Nat.two_pow_pos _)), hhalved]
  push_cast
  rfl

/-- A number is rounded to a rung or a lower one if it is below the middle of the step from it,
or right there and the rung is even. -/
theorem grade_le_iff (z n : Nat) : grade z ≤ n ↔ 2 * z < (rung n + rung (n + 1)) * unit ∨
    2 * z = (rung n + rung (n + 1)) * unit ∧ n % 2 = 0 := by
  have hrung := grade_rung n
  have hnext := grade_rung (n + 1)
  obtain ⟨m, k, hm, hfull, rfl⟩ := exists_spot n
  rw [rung_succ hm hfull] at hnext ⊢
  rw [rung_spot hm hfull] at hrung ⊢
  -- all numbers in units of the last digit
  have hpower : 2 ^ k * unit = 2 ^ (k + 1074) := by rw [← two_pow_eq_unit rfl, ← Nat.pow_add]
  have hmiddle (a b : Nat) : (a + (a + 1)) * b = 2 * (a * b) + b := by ring
  rw [Nat.mul_assoc, hpower] at hrung hnext
  rw [← Nat.add_mul, Nat.mul_assoc, hpower, hmiddle]
  have hpow := Nat.two_pow_pos (k + 1074)
  rcases lt_trichotomy (z / 2 ^ (k + 1074)) m with hlt | heq | hgt
  · have hle : z < m * 2 ^ (k + 1074) := (Nat.div_lt_iff_lt_mul hpow).1 hlt
    have hgrade := grade_mono hle.le
    rw [hrung] at hgrade
    exact iff_of_true hgrade (.inl (by omega))
  · -- within the step it is the rest that decides
    have hz := Nat.div_add_mod z (2 ^ (k + 1074))
    rw [grade_eq hm hfull heq, halved]
    simp only [Nat.pow_eq]
    rw [heq, Nat.mul_comm] at hz
    rw [heq]
    split_ifs <;> omega
  · have hle : (m + 1) * 2 ^ (k + 1074) ≤ z := (Nat.le_div_iff_mul_le hpow).1 hgt
    have hgrade := grade_mono hle
    rw [hnext] at hgrade
    rw [Nat.add_mul, Nat.one_mul] at hle
    exact iff_of_false (by omega) (by omega)

/-! ## Doubles on the ladder -/

section Exact
variable {x : Float} (hx : x.isFinite = true)
include hx

/-- A double that is not negative stands for the rung at its place. -/
theorem exact_eq_rung {n : Nat} (h : place x = n) : exact x = rung n := by
  have hc := canonical_toModel x
  unfold exact
  unfold place at h
  rcases finite_cases (isFinite_iff.1 hx) with ⟨s, hs⟩ | ⟨s, m, e, hm, hs⟩
  · rw [hs] at h ⊢
    obtain rfl : n = 0 := Int.natCast_eq_zero.1 h.symm
    rfl
  · rw [hs] at hc h ⊢
    have hlow := hc.1.low
    have hpos := hc.1.spot_pos hm
    cases s with
    | negative =>
      change -spot m e = n at h
      omega
    | positive =>
      obtain rfl : n = (e + 1074).toNat * 2 ^ 52 + m := by
        change spot m e = n at h
        unfold spot at h
        omega
      have hfull := hc.1.full
      rw [rung_spot hc.1.short (by omega)]
      rfl

theorem exact_neg_of_place (h : place x < 0) : exact x < 0 := by
  have hc := canonical_toModel x
  unfold exact
  unfold place at h
  rcases finite_cases (isFinite_iff.1 hx) with ⟨s, hs⟩ | ⟨s, m, e, hm, hs⟩
  · rw [hs] at h
    exact absurd h (lt_irrefl 0)
  · rw [hs] at hc h ⊢
    have hpos := hc.1.spot_pos hm
    have hunits : 0 < units m e := Nat.mul_pos hm (Nat.two_pow_pos _)
    cases s with
    | negative =>
      change -(units m e : Int) < 0
      omega
    | positive =>
      change spot m e < 0 at h
      omega

end Exact

/-- The first bit is the sign. -/
theorem unpackSign_eq_positive_iff (b : BitVec Format.binary64.numBits) :
    Sign.ofBitVec (unpackSign b) = .positive ↔ b.toNat < 2 ^ 63 := by
  rw [← not_le, ← decide_eq_false_iff_not, ← unpackSign_beq b]
  cases Sign.ofBitVec (unpackSign b) with
  | positive => exact iff_of_true rfl rfl
  | negative => exact iff_of_false nofun nofun

/-- Without a sign, the bits of a double are its place. -/
theorem place_eq_toBits {x : Float} (h : x.toBits.toNat < 2 ^ 63) (hle : place x ≤ top) :
    place x = x.toBits.toNat := by
  obtain ⟨b, hb⟩ : ∃ b : BitVec Format.binary64.numBits, b = x.toModel.toBits.toBitVec := ⟨_, rfl⟩
  have hbits : x.toBits.toNat = b.toNat := by rw [hb]; rfl
  have hmantissa := toNat_unpackMantissa b
  have hexponent := toNat_unpackExponent b
  rw [hbits] at h ⊢
  have hsign := (unpackSign_eq_positive_iff b).2 h
  unfold place at hle ⊢
  rw [Float.Model.unpack, ← hb, UnpackedFloat.unpack] at hle ⊢
  simp only [hsign] at hle ⊢
  split at hle
  · next hinf =>
    have hscale : (unpackExponent b).toNat = 2047 := by rw [hinf]; rfl
    rw [if_pos hinf]
    split at hle
    · next hzero =>
      have hdigits : (unpackMantissa b).toNat = 0 := by rw [hzero]; rfl
      rw [if_pos hzero]
      change top = _
      unfold top
      omega
    · exact absurd hle (by decide)
  · next hinf =>
    rw [if_neg hinf]
    split at hle
    · next hsub =>
      have hscale : (unpackExponent b).toNat = 0 := by rw [hsub]; rfl
      rw [if_pos hsub]
      split at hle
      · next hzero =>
        have hdigits : (unpackMantissa b).toNat = 0 := by rw [hzero]; rfl
        rw [dif_pos hzero]
        change (0 : Int) = _
        omega
      · next hzero =>
        rw [dif_neg hzero]
        change spot (unpackMantissa b).toNat _ = _
        rw [spot, bias_eq, hscale]
        omega
    · next hsub =>
      rw [if_neg hsub]
      change spot (1#1 ++ unpackMantissa b).toNat _ = _
      rw [spot, bias_eq, toNat_implicit]
      omega

/-- Without a sign, there is only one double at a place. -/
theorem eq_of_place {x y : Float} (hx : x.toBits.toNat < 2 ^ 63) (hy : y.toBits.toNat < 2 ^ 63)
    (hle : place x ≤ top) (h : place x = place y) : x = y := by
  have hbits := h
  rw [place_eq_toBits hx hle, place_eq_toBits hy (h ▸ hle), Nat.cast_inj] at hbits
  have hbits := UInt64.toNat.inj hbits
  obtain ⟨⟨bits, hvalid⟩⟩ := x
  obtain ⟨⟨bits', hvalid'⟩⟩ := y
  obtain rfl : bits = bits' := hbits
  rfl

/-- A number is stored with its sign. -/
theorem unpackSign_pack_round (s : Sign) (m : Nat) (e : Int) :
    Sign.ofBitVec (unpackSign (UnpackedFloat.pack .binary64
      (UnpackedFloat.round .binary64 s m e))) = s := by
  unfold UnpackedFloat.round roundWithAccuracy
  simp only
  split
  · exact unpackSign_packComponents s _ _
  · unfold UnpackedFloat.pack
    simp only
    split_ifs
    · exact unpackSign_packComponents s _ _
    · exact unpackSign_packComponents s _ _
    · exact unpackSign_packComponents s _ _

theorem toBits_toFloat_lt {b : Binary} (h : b.negative = false) : b.toFloat.toBits.toNat < 2 ^ 63 := by
  rw [Binary.toFloat, h]
  exact (unpackSign_eq_positive_iff _).1 (unpackSign_pack_round .positive b.significand b.exponent)

/-! ## The nearest double -/

/-- The fraction that a finite double stands for. -/
def value (x : Float) : ℚ := exact x / unit

theorem unit_pos : (0 : ℚ) < unit := by
  rw [Nat.cast_pos, unit]
  positivity

theorem unit_ne_zero : (unit : ℚ) ≠ 0 := unit_pos.ne'

/-- A double without a sign is the nearest one to a number that is not negative: no finite
double is nearer, and another one that is as near leaves it the even digits. From half a step
beyond the largest double on, it is infinite. -/
structure IsNearest (q : ℚ) (x : Float) : Prop where
  unsigned : x.toBits.toNat < 2 ^ 63
  infinite : wholeLimit ≤ q → x = 1.0 / 0.0
  finite : q < wholeLimit → x.isFinite = true
  nearest : q < wholeLimit → ∀ y : Float, y.isFinite = true → |value x - q| ≤ |value y - q|
  even : q < wholeLimit → ∀ y : Float, y.isFinite = true → |value y - q| = |value x - q| →
    value y = value x ∨ x.toBits.toNat % 2 = 0

/-- A number is below the middle of the step from a rung, or right there if the rung is even. -/
def Below (q : ℚ) (n : Nat) : Prop :=
  2 * (q * unit) < rung n + rung (n + 1) ∨ 2 * (q * unit) = rung n + rung (n + 1) ∧ n % 2 = 0

/-- A double without a sign stands at the first rung whose step has its middle above a number. -/
structure IsAt (q : ℚ) (x : Float) : Prop where
  unsigned : x.toBits.toNat < 2 ^ 63
  le_top : place x ≤ top
  le_iff : ∀ n : Nat, n < top → (place x ≤ n ↔ Below q n)

section Rungs
variable {q : ℚ} {n : Nat} (hbelow : Below q n) (habove : ∀ k, n = k + 1 → ¬Below q k)

include hbelow in
theorem Below.le : 2 * (q * unit) ≤ rung n + rung (n + 1) := by
  rcases hbelow with hlt | ⟨heq, -⟩
  · exact hlt.le
  · exact heq.le

include hbelow in
/-- A higher rung is not nearer, and if it is as near it is the next one, and odd. -/
theorem abs_rung_sub_of_lt {m : Nat} (h : n < m) :
    |rung n - q * unit| ≤ |rung m - q * unit| ∧
      (|rung m - q * unit| = |rung n - q * unit| → n % 2 = 0 ∧ m % 2 = 1) := by
  have hmiddle := hbelow.le
  have hstep : (rung n : ℚ) < rung (n + 1) := Nat.cast_lt.2 (rung_lt_succ n)
  have hle : (rung (n + 1) : ℚ) ≤ rung m := Nat.cast_le.2 (rung_strictMono.monotone h)
  have hpos : |(rung m : ℚ) - q * unit| = rung m - q * unit := abs_of_nonneg (by linarith)
  rw [hpos]
  constructor
  · rw [abs_le]
    constructor <;> linarith
  · intro heq
    have hsum : 2 * (q * unit) = rung n + rung m := by
      rcases abs_choice ((rung n : ℚ) - q * unit) with hcase | hcase
      · linarith
      · linarith
    have hnext : rung m = rung (n + 1) := by
      have hcast : (rung m : ℚ) = rung (n + 1) := by linarith
      exact_mod_cast hcast
    obtain rfl : m = n + 1 := rung_strictMono.injective hnext
    rcases hbelow with hlt | ⟨-, heven⟩
    · linarith
    · omega

include habove in
/-- A lower rung is not nearer either, and if it is as near it is the one before, and odd. -/
theorem abs_rung_sub_of_gt {m : Nat} (h : m < n) :
    |rung n - q * unit| ≤ |rung m - q * unit| ∧
      (|rung m - q * unit| = |rung n - q * unit| → n % 2 = 0 ∧ m % 2 = 1) := by
  obtain ⟨k, rfl⟩ := Nat.exists_eq_add_of_lt (Nat.zero_lt_of_lt h)
  rw [Nat.zero_add] at h habove ⊢
  have hnot := habove k rfl
  rw [Below, not_or, not_lt] at hnot
  obtain ⟨hmiddle, hodd⟩ := hnot
  have hstep : (rung k : ℚ) < rung (k + 1) := Nat.cast_lt.2 (rung_lt_succ k)
  have hle : (rung m : ℚ) ≤ rung k := Nat.cast_le.2 (rung_strictMono.monotone (Nat.le_of_lt_succ h))
  have hneg : |(rung m : ℚ) - q * unit| = -(rung m - q * unit) := abs_of_nonpos (by linarith)
  rw [hneg]
  constructor
  · rw [abs_le]
    constructor <;> linarith
  · intro heq
    have hsum : 2 * (q * unit) = rung m + rung (k + 1) := by
      rcases abs_choice ((rung (k + 1) : ℚ) - q * unit) with hcase | hcase
      · linarith
      · linarith
    have hprevious : rung m = rung k := by
      have hcast : (rung m : ℚ) = rung k := by linarith
      exact_mod_cast hcast
    obtain rfl : m = k := rung_strictMono.injective hprevious
    have hparity : ¬m % 2 = 0 := fun heven => hodd ⟨hsum, heven⟩
    omega

include hbelow habove in
/-- No rung is nearer, and another one that is as near is odd. -/
theorem abs_rung_sub_le (m : Nat) : |rung n - q * unit| ≤ |rung m - q * unit| ∧
    (|rung m - q * unit| = |rung n - q * unit| → m = n ∨ n % 2 = 0 ∧ m % 2 = 1) := by
  rcases lt_trichotomy n m with hlt | rfl | hgt
  · obtain ⟨hle, htie⟩ := abs_rung_sub_of_lt hbelow hlt
    exact ⟨hle, fun heq => .inr (htie heq)⟩
  · exact ⟨le_rfl, fun _ => .inl rfl⟩
  · obtain ⟨hle, htie⟩ := abs_rung_sub_of_gt habove hgt
    exact ⟨hle, fun heq => .inr (htie heq)⟩

end Rungs

theorem abs_value_sub (x : Float) (q : ℚ) : |value x - q| = |exact x - q * unit| / unit := by
  rw [eq_div_iff unit_ne_zero, ← abs_of_pos unit_pos, ← abs_mul, abs_of_pos unit_pos, sub_mul, value,
    div_mul_cancel₀ _ unit_ne_zero]

/-- The last rung, at the largest double. -/
def lastRung : Nat := 2047 * 2 ^ 52 - 1

theorem below_lastRung_iff (q : ℚ) : Below q lastRung ↔ q < wholeLimit := by
  have hsum : rung lastRung + rung (lastRung + 1) = 2 * (wholeLimit * unit) := by decide +kernel
  have hodd : ¬lastRung % 2 = 0 := by decide
  have hcast : (rung lastRung : ℚ) + rung (lastRung + 1) = 2 * (wholeLimit * unit) := by
    exact_mod_cast hsum
  rw [Below, hcast, or_iff_left fun h => hodd h.2, mul_lt_mul_iff_right₀ two_pos,
    mul_lt_mul_iff_left₀ unit_pos]

namespace IsAt
variable {q : ℚ} {x : Float} (hx : IsAt q x)
include hx

/-- The double is infinite from half a step beyond the largest one on. -/
theorem lt_top_iff : place x < top ↔ q < wholeLimit := by
  rw [← below_lastRung_iff, ← hx.le_iff lastRung (by decide)]
  change place x < (lastRung : Int) + 1 ↔ _
  exact Int.lt_add_one_iff

theorem exists_rung (h : q < wholeLimit) : x.isFinite = true ∧ ∃ n : Nat, place x = n ∧ Below q n ∧
    ∀ k, n = k + 1 → ¬Below q k := by
  have hplace := place_eq_toBits hx.unsigned hx.le_top
  have htop := hx.lt_top_iff.2 h
  have hneg := top_pos
  refine ⟨isFinite_iff.2 ⟨by omega, htop⟩, _, hplace, ?_, ?_⟩
  · rw [hplace] at htop
    exact (hx.le_iff _ htop).1 hplace.le
  · intro k hk hbelow
    have hle := (hx.le_iff k (by omega)).2 hbelow
    omega

theorem eq_infinity (h : wholeLimit ≤ q) : x = 1.0 / 0.0 := by
  have htop : place x = top := le_antisymm hx.le_top (not_lt.1 (mt hx.lt_top_iff.1 (not_lt.2 h)))
  have hinfinite : place (1.0 / 0.0) = top := by decide +kernel
  exact eq_of_place hx.unsigned (by decide +kernel) hx.le_top (htop.trans hinfinite.symm)

/-- No finite double is nearer, and a different one that is as near stands at an odd rung. -/
theorem abs_value_sub_le (hq : 0 ≤ q) (h : q < wholeLimit) {y : Float} (hy : y.isFinite = true) :
    |value x - q| ≤ |value y - q| ∧ (|value y - q| = |value x - q| →
      place y = place x ∨ x.toBits.toNat % 2 = 0 ∧ 0 ≤ place y ∧ place y % 2 = 1) := by
  obtain ⟨hfinite, n, hn, hbelow, habove⟩ := hx.exists_rung h
  have hbits := place_eq_toBits hx.unsigned hx.le_top
  have hrungs := abs_rung_sub_le hbelow habove
  rw [abs_value_sub, abs_value_sub, exact_eq_rung hfinite hn, Int.cast_natCast,
    div_le_div_iff_of_pos_right unit_pos, div_left_inj' unit_ne_zero]
  rcases lt_or_ge (place y) 0 with hneg | hpos
  · -- a double below zero is further away than zero
    have hlt : (exact y : ℚ) < 0 := by exact_mod_cast exact_neg_of_place hy hneg
    have hzero := (hrungs 0).1
    have hscaled : 0 ≤ q * unit := mul_nonneg hq unit_pos.le
    have hrung : ((rung 0 : Nat) : ℚ) = 0 := by norm_num [rung]
    rw [hrung, zero_sub, abs_neg, abs_of_nonneg hscaled] at hzero
    rw [abs_of_neg (by linarith : (exact y : ℚ) - q * unit < 0)]
    constructor
    · linarith
    · intro heq
      linarith
  · obtain ⟨m, hm⟩ := Int.eq_ofNat_of_zero_le hpos
    rw [exact_eq_rung hy hm, Int.cast_natCast]
    obtain ⟨hle, htie⟩ := hrungs m
    refine ⟨hle, fun heq => ?_⟩
    rcases htie heq with rfl | ⟨heven, hodd⟩
    · exact .inl (hm.trans hn.symm)
    · refine .inr ⟨?_, hpos, ?_⟩
      · omega
      · omega

/-- The double at the nearest rung is the nearest double. -/
theorem isNearest (hq : 0 ≤ q) : IsNearest q x where
  unsigned := hx.unsigned
  infinite := hx.eq_infinity
  finite h := (hx.exists_rung h).1
  nearest h y hy := (hx.abs_value_sub_le hq h hy).1
  even h y hy heq := by
    rcases (hx.abs_value_sub_le hq h hy).2 heq with hplace | ⟨heven, -⟩
    · refine .inl ?_
      obtain ⟨hfinite, n, hn, -⟩ := hx.exists_rung h
      rw [value, value, exact_eq_rung hy (hplace.trans hn), exact_eq_rung hfinite hn]
    · exact .inr heven

/-- There is no other nearest double. -/
theorem eq_of_isNearest (hq : 0 ≤ q) {y : Float} (hy : IsNearest q y) : y = x := by
  rcases lt_or_ge q wholeLimit with hlt | hge
  · have hfinite := hy.finite hlt
    have hle : place y ≤ top := (isFinite_iff.1 hfinite).2.le
    obtain ⟨hfinite', n, hn, -⟩ := hx.exists_rung hlt
    obtain ⟨hnear, htie⟩ := hx.abs_value_sub_le hq hlt hfinite
    have heq : |value y - q| = |value x - q| := le_antisymm (hy.nearest hlt x hfinite') hnear
    refine eq_of_place hy.unsigned hx.unsigned hle ?_
    rcases htie heq with hplace | ⟨-, hpos, hodd⟩
    · exact hplace
    · -- the other one would have to be even as well
      have hbits := place_eq_toBits hy.unsigned hle
      rcases hy.even hlt x hfinite' heq.symm with hvalue | heven
      · rw [value, value, div_left_inj' unit_ne_zero, Int.cast_inj, exact_eq_rung hfinite' hn,
          exact_eq_rung hfinite hbits, Nat.cast_inj] at hvalue
        rw [hbits, hn, rung_strictMono.injective hvalue]
      · omega
  · rw [hx.eq_infinity hge, hy.infinite hge]

theorem isNearest_iff (hq : 0 ≤ q) {y : Float} : IsNearest q y ↔ y = x := by
  constructor
  · exact hx.eq_of_isNearest hq
  · rintro rfl
    exact hx.isNearest hq

end IsAt

/-! ## The ends of the ladder -/

theorem Below.mono {q : ℚ} {n m : Nat} (h : Below q n) (hle : n ≤ m) : Below q m := by
  rcases hle.eq_or_lt with rfl | hlt
  · exact h
  · have hmiddle := h.le
    have hrung : (rung n : ℚ) < rung m := Nat.cast_lt.2 (rung_strictMono hlt)
    have hnext : (rung (n + 1) : ℚ) < rung (m + 1) :=
      Nat.cast_lt.2 (rung_strictMono (Nat.succ_lt_succ hlt))
    exact .inl (by linarith)

/-- Zero is the nearest double to what is less than half the smallest one. -/
theorem isAt_zero {q : ℚ} (h : 2 * (q * unit) < 1) : IsAt q 0.0 := by
  refine ⟨by decide +kernel, by decide +kernel, ?_⟩
  intro n _
  have hbelow : Below q 0 := by
    have hzero : ((rung 0 : Nat) : ℚ) + rung (0 + 1) = 1 := by norm_num [rung]
    rw [Below, hzero]
    exact .inl h
  rw [place_zero]
  exact iff_of_true (Int.natCast_nonneg n) (hbelow.mono (Nat.zero_le n))

/-- Infinity is the nearest double from half a step beyond the largest one on. -/
theorem isAt_infinity {q : ℚ} (h : wholeLimit ≤ q) : IsAt q (1.0 / 0.0) := by
  have htop : place (1.0 / 0.0) = top := by decide +kernel
  refine ⟨by decide +kernel, htop.le, ?_⟩
  intro n hn
  have hlast : n ≤ lastRung := by
    have hsucc : top = (lastRung : Int) + 1 := by decide
    omega
  rw [htop]
  exact iff_of_false (not_le.2 hn) fun hbelow =>
    not_lt.2 h ((below_lastRung_iff q).1 (hbelow.mono hlast))

/-! ## Fractions -/

section OfRatio
variable {den : Nat} (hden : 0 < den)
include hden

/-- The mark for what is cut off does not reach the next even number. -/
theorem marked_lt_iff (num r : Nat) :
    2 * (num / den) + (if num % den = 0 then 0 else 1) < 4 * r ↔ num < 2 * r * den := by
  rw [← Nat.div_lt_iff_lt_mul hden]
  split <;> omega

theorem marked_eq_iff (num r : Nat) :
    2 * (num / den) + (if num % den = 0 then 0 else 1) = 4 * r ↔ num = 2 * r * den := by
  have hdiv := Nat.div_add_mod num den
  constructor
  · intro h
    split at h
    · next hmod =>
      have hquotient : num / den = 2 * r := by omega
      rw [hmod, hquotient, Nat.add_zero, Nat.mul_comm] at hdiv
      exact hdiv.symm
    · omega
  · intro h
    rw [h, Nat.mul_mod_left, if_pos rfl, Nat.mul_div_cancel _ hden]
    omega

/-- The double of a fraction stands at the nearest rung: the middle of a step is an even number
of its units, so the mark does not matter there. -/
theorem isAt_ofRatio (num : Nat) : IsAt (num / den) (ofRatio num den).toFloat := by
  obtain ⟨p, hp⟩ : ∃ p : Nat, p = 2 ^ 1071 := ⟨_, rfl⟩
  have hpos : 0 < p := by
    rw [hp]
    positivity
  have hunit : unit = 8 * p := by rw [hp, unit, ← Nat.pow_add 2 3 1071]
  have hscale : Nat.pow 2 1076 = 4 * unit := by decide +kernel
  obtain ⟨m, hm⟩ : ∃ m : Nat, m = 2 * (num * (4 * unit) / den) +
      (if num * (4 * unit) % den = 0 then 0 else 1) := ⟨_, rfl⟩
  have hplace : place (ofRatio num den).toFloat = min top (grade (m * p)) := by
    have hlow : -2148 ≤ (ofRatio num den).exponent := by
      change (-2148 : Int) ≤ -1077
      decide
    rw [place_toFloat hlow, ← standing_ofNat, hm, hp, ← hscale]
    rfl
  have hfraction : 2 * ((num : ℚ) / den * unit) = (2 * (num * unit) : Nat) / den := by
    rw [Nat.cast_mul, Nat.cast_mul, Nat.cast_ofNat]
    ring
  have hden' : (0 : ℚ) < den := Nat.cast_pos.2 hden
  refine ⟨toBits_toFloat_lt rfl, hplace.trans_le (min_le_left _ _), ?_⟩
  intro n hn
  obtain ⟨r, hr⟩ : ∃ r : Nat, r = rung n + rung (n + 1) := ⟨_, rfl⟩
  have hlt : 2 * (m * p) < r * unit ↔ 2 * ((num : ℚ) / den * unit) < r := by
    have hnat : 2 * (m * p) < r * unit ↔ 2 * (num * unit) < r * den := by
      rw [hunit, ← Nat.mul_assoc, ← Nat.mul_assoc r, Nat.mul_lt_mul_right hpos, ← hunit]
      have hmarked := marked_lt_iff hden (num * (4 * unit)) r
      rw [← hm, Nat.mul_assoc 2 r, Nat.mul_left_comm num] at hmarked
      omega
    rw [hnat, hfraction, div_lt_iff₀ hden', ← Nat.cast_mul r, Nat.cast_lt]
  have heq : 2 * (m * p) = r * unit ↔ 2 * ((num : ℚ) / den * unit) = r := by
    have hnat : 2 * (m * p) = r * unit ↔ 2 * (num * unit) = r * den := by
      rw [hunit, ← Nat.mul_assoc, ← Nat.mul_assoc r, Nat.mul_left_inj hpos.ne', ← hunit]
      have hmarked := marked_eq_iff hden (num * (4 * unit)) r
      rw [← hm, Nat.mul_assoc 2 r, Nat.mul_left_comm num] at hmarked
      omega
    rw [hnat, hfraction, div_eq_iff hden'.ne', ← Nat.cast_mul r, Nat.cast_inj]
  have hcast : (rung n : ℚ) + rung (n + 1) = r := by rw [hr, Nat.cast_add]
  rw [hplace, min_le_iff, or_iff_right (not_le.2 hn), grade_le_iff, Below, ← hr, hcast, hlt, heq]

end OfRatio

end SkySources.Double
