import Mathlib
import SkySources.Proofs.Double.Sum
import SkySources.Proofs.Exact

/-!
# Counting in numbers

The rows and columns of an image are whole numbers, but they are taken as numbers of the type
in which everything is computed. That type counts as far as whole numbers keep their order in
it, and differ by zero from themselves only.

What is proved:
  1. `counts_exact`: exact numbers count without an end;
  2. `exact_ofNat`: a whole number below `2 ^ 53` is a double as it is;
  3. `counts_double`: so doubles count that far.
-/

namespace SkySources

/-- The numbers of a type count all whole numbers below some number. -/
structure Counts (α : Type) [Scalar α] (n : Nat) : Prop where
  le : ∀ i j, i ≤ j → j < n → (Scalar.ofNat i : α) ≤ Scalar.ofNat j
  same : ∀ i j, i < n → j < n →
    (Scalar.sameValue (Scalar.ofNat j - Scalar.ofNat i : α) 0.0 = true ↔ i = j)

theorem counts_exact (n : Nat) : Counts Exact n where
  le i j hij _ := by
    rw [Exact.ofNat_eq, Exact.ofNat_eq, Exact.le_real]
    exact_mod_cast hij
  same i j _ _ := by
    simp only [Exact.ofNat_eq, Exact.sub_real, Scalar.sameValue, Exact.zero_eq, Exact.le_real,
      Bool.and_eq_true, decide_eq_true_eq]
    rw [← le_antisymm_iff, sub_eq_zero, Nat.cast_inj, eq_comm]

namespace Double

theorem unit_mul_unit : unit * unit = unity := by
  have hsum (k : Nat) (h : k = 1074) : unit * unit = 2 ^ (k + k) := by
    rw [Nat.pow_add, two_pow_eq_unit h]
  rw [hsum 1074 rfl, two_pow_eq_unity rfl]

/-- A whole number of so few digits stands where it does without rounding. -/
theorem exists_whole {n : Nat} (hn : 0 < n) (h : n < 2 ^ 53) :
    ∃ u, Canonical u ∧ (-top < rank u ∧ rank u < top) ∧ measure u = n * unit ∧
      place (Float.ofNat n) = rank u := by
  obtain ⟨j, hj, hfits, -⟩ := round_whole hn h
  have hm : 0 < n * 2 ^ j := Nat.mul_pos hn (Nat.two_pow_pos j)
  have hcanonical : Canonical (.finite .positive (n * 2 ^ j) (-j) hm) := ⟨hfits, by omega⟩
  have hfinite := rank_between hcanonical
  have hmeasure : measure (.finite .positive (n * 2 ^ j) (-j) hm) = n * unit := by
    have hexp : j + (-(j : Int) + 1074).toNat = 1074 := by omega
    rw [measure, apply_positive, units, Nat.mul_assoc, ← Nat.pow_add, two_pow_eq_unit hexp]
    exact Nat.cast_mul n unit
  refine ⟨_, hcanonical, hfinite, hmeasure, ?_⟩
  rw [place_ofNat, rank_eq_standing hcanonical hfinite, hmeasure, ← unit_mul_unit,
    ← Nat.mul_assoc, Nat.cast_mul, Nat.cast_mul]

theorem isFinite_ofNat {n : Nat} (h : n < 2 ^ 53) : (Float.ofNat n).isFinite = true := by
  rcases Nat.eq_zero_or_pos n with rfl | hn
  · decide +kernel
  · obtain ⟨u, -, hfinite, -, hplace⟩ := exists_whole hn h
    exact isFinite_iff.2 (hplace ▸ hfinite)

/-- A whole number of so few digits is a double as it is. -/
theorem exact_ofNat {n : Nat} (h : n < 2 ^ 53) : exact (Float.ofNat n) = n * unit := by
  rcases Nat.eq_zero_or_pos n with rfl | hn
  · decide +kernel
  obtain ⟨u, hu, hfinite, hmeasure, hplace⟩ := exists_whole hn h
  have hfinite' := isFinite_iff.1 (isFinite_ofNat h)
  -- what stands at the same place has the same measure
  rw [← hmeasure]
  exact le_antisymm (measure_le (canonical_toModel _) hu hfinite' hfinite hplace.le)
    (measure_le hu (canonical_toModel _) hfinite hfinite' hplace.ge)

/-- The difference of whole numbers is a whole number again. -/
theorem place_ofNat_sub {m n : Nat} (hm : m < 2 ^ 53) (hn : n < 2 ^ 53) :
    place (Float.ofNat m - Float.ofNat n) = standing ((m - n : Int) * unity) := by
  rw [place_sub_eq (isFinite_ofNat hm) (isFinite_ofNat hn), exact_ofNat hm, exact_ofNat hn,
    ← unit_mul_unit, Nat.cast_mul, ← Int.sub_mul, Int.mul_assoc]

/-- No whole number but zero stands where zero does. -/
theorem standing_mul_unity_eq_zero {z : Int} (h : standing (z * unity) = 0) : z = 0 := by
  have hone : 0 < standing ((1 : Int) * unity) := by
    rw [← place_ofInt]
    decide +kernel
  have hunity : (0 : Int) ≤ unity := Int.natCast_nonneg unity
  rcases lt_trichotomy z 0 with hz | hz | hz
  · have hmono := standing_mono (Int.mul_le_mul_of_nonneg_right (show z ≤ -1 by omega) hunity)
    rw [Int.neg_mul, standing_neg] at hmono
    omega
  · exact hz
  · have hmono := standing_mono (Int.mul_le_mul_of_nonneg_right (show 1 ≤ z by omega) hunity)
    omega

end Double

theorem counts_double {n : Nat} (hn : n ≤ 2 ^ 53) : Counts Float n where
  le i j hij _ := by
    have hplace : Double.place (Float.ofNat i) ≤ Double.place (Float.ofNat j) := by
      rw [Double.place_ofNat, Double.place_ofNat]
      exact Double.standing_mono (by exact_mod_cast Nat.mul_le_mul_right _ hij)
    refine Double.le_iff.2 ⟨hplace, ?_⟩
    change Double.place (Float.ofNat j) ≤ Double.top
    rw [Double.place_ofNat, Double.standing_ofNat]
    exact min_le_left _ _
  same i j hi hj := by
    have hplace := Double.place_ofNat_sub (show j < 2 ^ 53 by omega) (show i < 2 ^ 53 by omega)
    have hzero : Scalar.sameValue (Float.ofNat j - Float.ofNat i) 0.0 = true ↔
        Double.place (Float.ofNat j - Float.ofNat i) = 0 := by
      have htop := Double.top_pos
      rw [Scalar.sameValue, Bool.and_eq_true, decide_eq_true_eq, decide_eq_true_eq]
      rw [Double.le_iff, Double.le_iff, Double.place_zero]
      omega
    change Scalar.sameValue (Float.ofNat j - Float.ofNat i) 0.0 = true ↔ i = j
    rw [hzero, hplace]
    constructor
    · intro h
      have := Double.standing_mul_unity_eq_zero h
      omega
    · rintro rfl
      rw [Int.sub_self, Int.zero_mul, Double.standing_zero]

end SkySources
