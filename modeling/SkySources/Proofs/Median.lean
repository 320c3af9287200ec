import Mathlib
import SkySources.Median
import SkySources.Proofs.Median.Bins
import SkySources.Proofs.Moments

/-!
# Medians of real numbers

Half of the values are not above a median, and half are not below it (`IsMiddle`). Such a
number is never further from the mean than one deviation: otherwise half of the values would
be too far from a point on the other side of the mean. The centre of a bin is not either,
since the bins span one deviation on either side.

What is proved:
  1. `IsMiddle.abs_sub_level_le`: the distance of a middle from the mean;
  2. `exists_exact_real`, `exists_binned_real`: the median of real numbers is a real number,
     and a middle, or the centre of a bin;
  3. `exists_of_real`: so it is within one deviation of the mean, for each method but zero;
  4. `of_perm`: it does not depend on the order of the values.
-/

namespace SkySources.Median

open Exact Moments

/-! ## Order -/

theorem ascending_real (ys : List ℝ) :
    ascending (ys.map real) = (ys.mergeSort (· ≤ ·)).map real := by
  rw [ascending, List.map_mergeSort]
  intro x _ y _
  exact decide_eq_decide.2 (le_real x y).symm

theorem length_le_countP {p : ℝ → Bool} {xs ys : List ℝ} (h : xs.Sublist ys)
    (hp : ∀ x ∈ xs, p x = true) : xs.length ≤ ys.countP p :=
  (List.countP_eq_length.2 hp).symm.trans_le h.countP_le

section Sorted
variable {ys : List ℝ} (h : ys.Pairwise (· ≤ ·)) {i : Nat} (hi : i < ys.length) {m : ℝ}
include h

theorem succ_le_countP_le (hm : ys[i] ≤ m) : i + 1 ≤ ys.countP (· ≤ m) := by
  have htake : (ys.take (i + 1)).length = i + 1 := by rw [List.length_take]; omega
  refine htake.symm.trans_le (length_le_countP (List.take_sublist _ _) fun x hx => ?_)
  obtain ⟨j, hj, rfl⟩ := List.getElem_of_mem hx
  rw [htake] at hj
  rw [List.getElem_take]
  refine decide_eq_true (le_trans ?_ hm)
  rcases (Nat.lt_succ_iff.1 hj).eq_or_lt with rfl | hlt
  · exact le_rfl
  · exact List.pairwise_iff_getElem.1 h _ _ _ _ hlt

theorem sub_le_countP_ge (hm : m ≤ ys[i]) : ys.length - i ≤ ys.countP (m ≤ ·) := by
  rw [← List.length_drop]
  refine length_le_countP (List.drop_sublist _ _) fun x hx => ?_
  obtain ⟨j, hj, rfl⟩ := List.getElem_of_mem hx
  rw [List.getElem_drop]
  refine decide_eq_true (hm.trans ?_)
  rcases Nat.eq_zero_or_pos j with rfl | hpos
  · exact le_rfl
  · exact List.pairwise_iff_getElem.1 h _ _ _ _ (Nat.lt_add_of_pos_right hpos)

end Sorted

/-! ## The middle -/

/-- At least half of the values are not above the number, and at least half not below it. -/
structure IsMiddle (xs : List ℝ) (m : ℝ) : Prop where
  below : xs.length ≤ 2 * xs.countP (· ≤ m)
  above : xs.length ≤ 2 * xs.countP (m ≤ ·)

theorem mul_countP_le_sum {p : ℝ → Bool} {f : ℝ → ℝ} {a : ℝ} (hf : ∀ x, 0 ≤ f x)
    (h : ∀ x, p x = true → a ≤ f x) (xs : List ℝ) : a * xs.countP p ≤ (xs.map f).sum := by
  induction xs with
  | nil => simp
  | cons x xs ih =>
    rw [List.map_cons, List.sum_cons, List.countP_cons]
    split
    · next hp =>
      have hx := h x hp
      push_cast
      linarith
    · have hx := hf x
      rw [add_zero]
      linarith

/-- A middle is within one deviation of the mean. -/
theorem IsMiddle.abs_sub_level_le {xs : List ℝ} {m : ℝ} (h : IsMiddle xs m) (hne : xs ≠ []) :
    |m - level xs| ≤ spread xs := by
  -- half of the values are at least twice the distance away from the point opposite to `m`
  set d := m - level xs with hd
  have hhalf {p : ℝ → Bool} (hp : xs.length ≤ 2 * xs.countP p)
      (hfar : ∀ x, p x = true → (2 * d) ^ 2 ≤ (x - (level xs - d)) ^ 2) :
      (2 * d) ^ 2 * xs.length ≤ 2 * (xs.length * (spread xs ^ 2 + d ^ 2)) := by
    have hcount : (xs.length : ℝ) ≤ 2 * xs.countP p := by exact_mod_cast hp
    have hsum := mul_countP_le_sum (fun x => sq_nonneg (x - (level xs - d))) hfar xs
    rw [sum_sq_sub, sub_sub_cancel] at hsum
    linarith [mul_le_mul_of_nonneg_left hcount (sq_nonneg (2 * d))]
  have hsq : xs.length * d ^ 2 ≤ xs.length * spread xs ^ 2 := by
    rcases le_total 0 d with hd0 | hd0
    · have hle := hhalf h.above fun x hx =>
        pow_le_pow_left₀ (by linarith) (by linarith [of_decide_eq_true hx]) 2
      linarith
    · have hle := hhalf h.below fun x hx => by
        rw [← neg_sq (2 * d), ← neg_sq (x - (level xs - d))]
        exact pow_le_pow_left₀ (by linarith) (by linarith [of_decide_eq_true hx]) 2
      linarith
  have hpos : (0 : ℝ) < xs.length := by exact_mod_cast List.length_pos_iff.2 hne
  exact abs_le_of_sq_le_sq (le_of_mul_le_mul_left hsq hpos) (spread_nonneg xs)

theorem exists_middle_real {ys : List ℝ} (h : ys.Pairwise (· ≤ ·)) (hne : ys ≠ []) :
    ∃ m, middle (ys.map real) = real m ∧ IsMiddle ys m := by
  have hpos := List.length_pos_iff.2 hne
  have hlow : (ys.length - 1) / 2 < ys.length := by omega
  have hhigh : ys.length / 2 < ys.length := by omega
  have hle : ys[(ys.length - 1) / 2] ≤ ys[ys.length / 2] := by
    rcases (Nat.div_le_div_right (c := 2) (Nat.sub_le ys.length 1)).eq_or_lt with heq | hlt
    · simp only [heq, le_refl]
    · exact List.pairwise_iff_getElem.1 h _ _ _ _ hlt
  -- every number between the two middle entries is a middle
  have hmiddle {m : ℝ} (hm : ys[(ys.length - 1) / 2] ≤ m) (hm' : m ≤ ys[ys.length / 2]) :
      IsMiddle ys m := by
    have hbelow := succ_le_countP_le h hlow hm
    have habove := sub_le_countP_ge h hhigh hm'
    exact ⟨by omega, by omega⟩
  unfold middle
  rw [List.length_map, List.getElem?_map, List.getElem?_map, List.getElem?_eq_getElem hlow,
    List.getElem?_eq_getElem hhigh]
  simp only [Option.map_some]
  split
  · exact ⟨_, rfl, hmiddle le_rfl hle⟩
  · refine ⟨_, ?_, hmiddle (m := (ys[(ys.length - 1) / 2] + ys[ys.length / 2]) / 2) (by linarith)
      (by linarith)⟩
    rw [add_real, two_eq, div_real _ two_ne_zero]

theorem IsMiddle.of_perm {xs ys : List ℝ} {m : ℝ} (hperm : ys.Perm xs) (h : IsMiddle ys m) :
    IsMiddle xs m := by
  have hbelow := h.below
  have habove := h.above
  rw [hperm.length_eq, hperm.countP_eq] at hbelow habove
  exact ⟨hbelow, habove⟩

theorem exact_real (xs : List ℝ) :
    exact (xs.map real) = middle ((xs.mergeSort (· ≤ ·)).map real) := by
  have hnumbers : (xs.map real).all Scalar.isNumber = true := by
    rw [List.all_map, List.all_eq_true]
    intro x _
    exact decide_eq_true (le_refl x)
  rw [exact, if_pos hnumbers, ascending_real]

/-- The median of numbers in ascending order is the middle of their list. -/
theorem exact_of_pairwise {xs : List ℝ} (h : xs.Pairwise (· ≤ ·)) :
    exact (xs.map real) = middle (xs.map real) := by
  rw [exact_real, List.mergeSort_of_pairwise]
  simpa using h

theorem exists_exact_real {xs : List ℝ} (hne : xs ≠ []) :
    ∃ m, exact (xs.map real) = real m ∧ IsMiddle xs m := by
  have hperm := List.mergeSort_perm xs (· ≤ ·)
  obtain ⟨m, hm, hmiddle⟩ := exists_middle_real (List.pairwise_mergeSort' (· ≤ ·) xs)
    fun hnil => hne (by rw [hnil] at hperm; exact hperm.nil_eq.symm)
  refine ⟨m, ?_, hmiddle.of_perm hperm⟩
  rw [exact_real, hm]

/-! ## The centre of a bin -/

/-- The bins span one deviation on either side of the mean. -/
theorem centre_spanning (mean : ℝ) {deviation : ℝ} (hpos : 0 < deviation) {count : Nat}
    (hcount : 1 ≤ count) (i : Nat) : (Bins.spanning (real mean) (real deviation) count).centre i =
      real (mean - deviation + (2 * i + 1 : ℕ) * (deviation / count)) := by
  have hhalf : (0.5 : Exact) = real (1 / 2) := by
    rw [ofScientific_eq]
    norm_num
  have hcast : (0 : ℝ) < count := by exact_mod_cast hcount
  have hscale : (count : ℝ) / (2 * deviation) ≠ 0 := by positivity
  simp only [Bins.spanning, Bins.centre, two_eq, hhalf, ofNat_eq, mul_real, add_real, sub_real,
    div_real _ (by positivity : 2 * deviation ≠ 0), div_real _ hscale]
  congr 1
  push_cast
  field_simp

theorem abs_centre_sub_le (mean : ℝ) {deviation : ℝ} (hpos : 0 < deviation) {count i : Nat}
    (hi : i < count) :
    |mean - deviation + (2 * i + 1 : ℕ) * (deviation / count) - mean| ≤ deviation := by
  have hcount : (0 : ℝ) < count := by exact_mod_cast Nat.zero_lt_of_lt hi
  have hnext : ((2 * i + 1 : ℕ) : ℝ) ≤ 2 * count := by
    exact_mod_cast (by omega : 2 * i + 1 ≤ 2 * count)
  have hnonneg : 0 ≤ ((2 * i + 1 : ℕ) : ℝ) * (deviation / count) := by positivity
  have hle : ((2 * i + 1 : ℕ) : ℝ) * (deviation / count) ≤ 2 * deviation := by
    calc ((2 * i + 1 : ℕ) : ℝ) * (deviation / count)
      _ ≤ 2 * count * (deviation / count) := by gcongr
      _ = 2 * deviation := by field_simp
  rw [abs_le]
  constructor <;> linarith

/-! ## The binned median -/

/-- The binned median of numbers is the mean if there is no deviation, and otherwise the centre
of the bin that is found, or the upper end of the bins. -/
theorem binned_real {xs : List ℝ} (hne : xs ≠ []) (count : Nat) : binned count (xs.map real) =
    if spread xs = 0 then real (level xs)
    else ((Bins.spanning (real (level xs)) (real (spread xs)) count).ranked?
      (middleRank xs.length) (xs.map real)).elim (real (level xs + spread xs))
        (Bins.spanning (real (level xs)) (real (spread xs)) count).centre := by
  have hflat : Scalar.sameValue (real (spread xs)) (0.0 : Exact) = true ↔ spread xs = 0 := by
    rw [zero_eq, Scalar.sameValue, Bool.and_eq_true, decide_eq_true_iff, decide_eq_true_iff,
      le_real, le_real, ← le_antisymm_iff]
  by_cases hspread : spread xs = 0
  · simp only [binned, mean_real Sum.running_real hne, deviation_real Sum.running_real hne,
      if_pos hspread, if_pos (hflat.2 hspread)]
  · simp only [binned, mean_real Sum.running_real hne, deviation_real Sum.running_real hne,
      if_neg hspread, if_neg (mt hflat.1 hspread), List.length_map]
    cases Bins.ranked? (Bins.spanning (real (level xs)) (real (spread xs)) count)
      (middleRank xs.length) (xs.map real) <;> rfl

theorem exists_binned_real (count : Nat) {xs : List ℝ} (hne : xs ≠ []) :
    ∃ m, binned count (xs.map real) = real m ∧ |m - level xs| ≤ spread xs := by
  rw [binned_real hne]
  split
  · exact ⟨_, rfl, by rw [sub_self, abs_zero]; exact spread_nonneg xs⟩
  · next hflat =>
    have hpos : 0 < spread xs := (spread_nonneg xs).lt_of_ne' hflat
    cases hi : Bins.ranked? (Bins.spanning (real (level xs)) (real (spread xs)) count)
      (middleRank xs.length) (xs.map real) with
    | some i =>
      obtain ⟨hlt, -⟩ := (Bins.ranked?_eq_some_iff _).1 hi
      exact ⟨_, centre_spanning (level xs) hpos (Nat.zero_lt_of_lt hlt) i,
        abs_centre_sub_le (level xs) hpos hlt⟩
    | none =>
      refine ⟨_, rfl, ?_⟩
      rw [add_sub_cancel_left, abs_of_pos hpos]

/-! ## Every method -/

/-- A median of real numbers is one, and within one deviation of the mean unless it is
always zero. -/
theorem exists_of_real (method : Method) (bins : Nat) {xs : List ℝ} (hne : xs ≠ []) :
    ∃ m, of method bins (xs.map real) = real m ∧
      (method ≠ .zero → |m - level xs| ≤ spread xs) := by
  cases method with
  | exact =>
    obtain ⟨m, hm, hmiddle⟩ := exists_exact_real hne
    exact ⟨m, hm, fun _ => hmiddle.abs_sub_level_le hne⟩
  | binapprox =>
    obtain ⟨m, hm, hnear⟩ := exists_binned_real bins hne
    exact ⟨m, hm, fun _ => hnear⟩
  | zero => exact ⟨0, zero_eq, fun h => absurd rfl h⟩

/-! ## Order of the values -/

section Perm
variable {xs ys : List ℝ} (h : xs.Perm ys)
include h

theorem mergeSort_eq_of_perm : xs.mergeSort (· ≤ ·) = ys.mergeSort (· ≤ ·) := by
  have hperm : (xs.mergeSort (· ≤ ·)).Perm (ys.mergeSort (· ≤ ·)) :=
    (List.mergeSort_perm xs _).trans (h.trans (List.mergeSort_perm ys _).symm)
  refine hperm.eq_of_pairwise ?_ (List.pairwise_mergeSort' (· ≤ ·) xs)
    (List.pairwise_mergeSort' (· ≤ ·) ys)
  intro a b _ _ hab hba
  exact le_antisymm hab hba

theorem exact_perm : exact (xs.map real) = exact (ys.map real) := by
  rw [exact_real, exact_real, mergeSort_eq_of_perm h]

theorem binned_perm (count : Nat) : binned count (xs.map real) = binned count (ys.map real) := by
  rcases eq_or_ne xs [] with rfl | hne
  · rw [h.nil_eq]
  · have hne' : ys ≠ [] := by
      rintro rfl
      exact hne h.eq_nil
    rw [binned_real hne, binned_real hne', level_perm h, spread_perm h, h.length_eq,
      Bins.ranked?_perm _ _ (h.map real)]

/-- The median does not depend on the order of the values, for each method. -/
theorem of_perm (method : Method) (bins : Nat) :
    of method bins (xs.map real) = of method bins (ys.map real) := by
  cases method with
  | exact => exact exact_perm h
  | binapprox => exact binned_perm h bins
  | zero => rfl

end Perm
end SkySources.Median
