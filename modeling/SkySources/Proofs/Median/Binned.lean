import Mathlib
import SkySources.Proofs.Median

/-!
# The bin of the middle entry

The bins span one deviation on either side of the mean, and a bin begins with its lower
edge and ends before its upper one. So the values below an edge are those below every bin
and those in the bins before it, and the bin that is found for a rank is the one with the
entry of that rank. There always is one for the lower middle entry: it is not further below
the mean than one deviation, and it is less than one deviation above it, since otherwise more
than half of the values would be that far above.

What is proved:
  1. `HasRank.le_countP_lt_iff`: what the entry of a rank tells about counts;
  2. `lt_level_add_spread`: where more than half of the values are not below;
  3. `slot_lt_iff`: the bins of real numbers;
  4. `ranked?_of_mem_bin`, `exists_mem_bin`: the bin that is found, and that there is one;
  5. `binned?_middle`: the binned median of every list with a deviation.
-/

namespace SkySources.Median

open Exact Moments

/-! ## Ranks -/

/-- The entry of a rank: the least entry has rank one. -/
def HasRank (xs : List ℝ) (rank : Nat) (v : ℝ) : Prop :=
  0 < rank ∧ (xs.mergeSort (· ≤ ·))[rank - 1]? = some v

theorem exists_hasRank {xs : List ℝ} {rank : Nat} (hpos : 0 < rank) (hle : rank ≤ xs.length) :
    ∃ v, HasRank xs rank v := by
  have hlt : rank - 1 < (xs.mergeSort (· ≤ ·)).length := by
    rw [List.length_mergeSort]
    omega
  exact ⟨_, hpos, List.getElem?_eq_getElem hlt⟩

namespace HasRank
variable {xs : List ℝ} {rank : Nat} {v : ℝ} (h : HasRank xs rank v)
include h

theorem eq {w : ℝ} (hw : HasRank xs rank w) : v = w :=
  Option.some.inj (h.2.symm.trans hw.2)

theorem mem : v ∈ xs := by
  have hmem := List.mem_of_getElem? h.2
  rwa [List.mem_mergeSort] at hmem

theorem le_countP_le : rank ≤ xs.countP (· ≤ v) := by
  obtain ⟨hlt, hv⟩ := List.getElem?_eq_some_iff.1 h.2
  have hcount := succ_le_countP_le (List.pairwise_mergeSort' (· ≤ ·) xs) hlt hv.le
  rw [(List.mergeSort_perm xs _).countP_eq] at hcount
  have hpos := h.1
  omega

/-- An entry of higher rank is not smaller. -/
theorem le_of_le {rank' : Nat} {w : ℝ} (hw : HasRank xs rank' w) (hle : rank ≤ rank') : v ≤ w := by
  obtain ⟨hi, hv⟩ := List.getElem?_eq_some_iff.1 h.2
  obtain ⟨hj, hw⟩ := List.getElem?_eq_some_iff.1 hw.2
  rw [← hv, ← hw]
  have hij : (⟨rank - 1, hi⟩ : Fin _) ≤ ⟨rank' - 1, hj⟩ := Nat.sub_le_sub_right hle 1
  exact (List.pairwise_mergeSort' (· ≤ ·) xs).rel_get_of_le hij

theorem lt_countP_ge {e : ℝ} (he : e ≤ v) : xs.length < rank + xs.countP (e ≤ ·) := by
  obtain ⟨hlt, hv⟩ := List.getElem?_eq_some_iff.1 h.2
  have hcount := sub_le_countP_ge (List.pairwise_mergeSort' (· ≤ ·) xs) hlt (he.trans hv.ge)
  rw [(List.mergeSort_perm xs _).countP_eq, List.length_mergeSort] at hcount
  have hpos := h.1
  omega

/-- There are at least so many values below a number exactly if the entry of the rank is. -/
theorem le_countP_lt_iff {e : ℝ} : rank ≤ xs.countP (· < e) ↔ v < e := by
  constructor
  · intro hle
    by_contra hv
    have hcount := h.lt_countP_ge (not_lt.1 hv)
    have hlength := List.length_eq_countP_add_countP (fun x => decide (x < e)) (l := xs)
    simp only [decide_eq_true_eq, not_lt] at hlength
    omega
  · intro hv
    apply h.le_countP_le.trans
    apply List.countP_mono_left
    intro x _ hx
    exact decide_eq_true ((of_decide_eq_true hx).trans_lt hv)

end HasRank

theorem middleRank_pos {xs : List ℝ} (hne : xs ≠ []) : 0 < middleRank xs.length := by
  have hpos := List.length_pos_iff.2 hne
  unfold middleRank
  omega

theorem exists_hasRank_middle {xs : List ℝ} (hne : xs ≠ []) :
    ∃ v, HasRank xs (middleRank xs.length) v := by
  have hpos := List.length_pos_iff.2 hne
  apply exists_hasRank (middleRank_pos hne)
  unfold middleRank
  omega

/-! ## The lower middle entry and the mean -/

/-- What is not above more than half of the values is less than one deviation above the mean. -/
theorem lt_level_add_spread {xs : List ℝ} (hspread : 0 < spread xs) {m : ℝ}
    (h : xs.length < 2 * xs.countP (m ≤ ·)) : m < level xs + spread xs := by
  by_contra hfar
  rw [not_lt] at hfar
  -- more than half of the values are at least twice the deviation away from the point opposite
  have hsum := mul_countP_le_sum (p := fun x => decide (m ≤ x))
    (fun x => sq_nonneg (x - (level xs - spread xs))) (a := (2 * spread xs) ^ 2)
    (fun x hx => pow_le_pow_left₀ (by linarith) (by linarith [of_decide_eq_true hx]) 2) xs
  rw [sum_sq_sub, sub_sub_cancel] at hsum
  have hcount : (xs.length : ℝ) < 2 * xs.countP (m ≤ ·) := by exact_mod_cast h
  have hsq : 0 < spread xs ^ 2 := by positivity
  nlinarith

section Middle
variable {xs : List ℝ} {v : ℝ} (h : HasRank xs (middleRank xs.length) v)
include h

theorem HasRank.isMiddle : IsMiddle xs v := by
  have hbelow := h.le_countP_le
  have habove := h.lt_countP_ge le_rfl
  unfold middleRank at hbelow habove
  exact ⟨by omega, by omega⟩

/-- The lower middle entry is within one deviation of the mean. -/
theorem HasRank.abs_sub_level_le : |v - level xs| ≤ spread xs :=
  h.isMiddle.abs_sub_level_le (List.ne_nil_of_mem h.mem)

theorem HasRank.le_middle : level xs - spread xs ≤ v := by
  linarith [(abs_le.1 h.abs_sub_level_le).1]

theorem HasRank.middle_lt (hspread : 0 < spread xs) : v < level xs + spread xs := by
  apply lt_level_add_spread hspread
  have habove := h.lt_countP_ge le_rfl
  unfold middleRank at habove
  omega

end Middle

/-! ## Bins of real numbers -/

/-- The bins that span one deviation on either side of the mean of some numbers. -/
noncomputable def binsOf (xs : List ℝ) (count : Nat) : Bins Exact :=
  Bins.spanning (real (level xs)) (real (spread xs)) count

/-- Where a bin begins, and the one before it ends. -/
noncomputable def edge (xs : List ℝ) (count i : Nat) : ℝ :=
  level xs - spread xs + (2 * i : ℕ) * (spread xs / count)

/-- The middle of a bin, half a width above its lower edge. -/
noncomputable def midpoint (xs : List ℝ) (count i : Nat) : ℝ :=
  edge xs count i + spread xs / count

theorem edge_zero (xs : List ℝ) (count : Nat) : edge xs count 0 = level xs - spread xs := by
  simp [edge]

/-- The bins are of equal width. -/
theorem edge_succ (xs : List ℝ) (count i : Nat) :
    edge xs count (i + 1) = edge xs count i + 2 * spread xs / count := by
  unfold edge
  push_cast
  ring

theorem edge_mono (xs : List ℝ) (count : Nat) {i j : Nat} (h : i ≤ j) :
    edge xs count i ≤ edge xs count j := by
  apply monotone_nat_of_le_succ (f := edge xs count) ?_ h
  intro i
  rw [edge_succ]
  exact le_add_of_nonneg_right
    (div_nonneg (mul_nonneg zero_le_two (spread_nonneg xs)) (Nat.cast_nonneg count))

theorem abs_midpoint_sub_le {xs : List ℝ} {count i : Nat} {v : ℝ} (hlow : edge xs count i ≤ v)
    (hhigh : v < edge xs count (i + 1)) : |midpoint xs count i - v| ≤ spread xs / count := by
  rw [edge_succ, mul_div_assoc] at hhigh
  rw [midpoint, abs_le]
  constructor <;> linarith

section Bins
variable {xs : List ℝ} (hspread : 0 < spread xs) {count : Nat} (hcount : 1 ≤ count)

theorem lower_binsOf (xs : List ℝ) (count : Nat) :
    (binsOf xs count).lower = real (edge xs count 0) := by
  rw [edge_zero]
  exact sub_real _ _

include hspread in
theorem scale_binsOf (count : Nat) :
    (binsOf xs count).scale = real (count / (2 * spread xs)) := by
  have hne : 2 * spread xs ≠ 0 := by positivity
  simp only [binsOf, Bins.spanning, ofNat_eq, two_eq, mul_real, div_real _ hne]

include hcount in
theorem edge_count : edge xs count count = level xs + spread xs := by
  have hne : (count : ℝ) ≠ 0 := by
    have hpos : 0 < count := hcount
    positivity
  unfold edge
  push_cast
  field_simp
  ring

include hspread hcount

/-- A value from the lowest edge on lies in one of the first bins exactly if it is below
the edge after them. -/
theorem slot_lt_iff {x : ℝ} (hx : edge xs count 0 ≤ x) (i : Nat) :
    (binsOf xs count).slot (real x) < i ↔ x < edge xs count i := by
  have hpos : (0 : ℝ) < count := by exact_mod_cast hcount
  have hnonneg : 0 ≤ (x - edge xs count 0) * (count / (2 * spread xs)) :=
    mul_nonneg (sub_nonneg.2 hx) (by positivity)
  have hslot : (binsOf xs count).slot (real x) =
      ⌊(x - edge xs count 0) * (count / (2 * spread xs))⌋₊ := by
    rw [Bins.slot, lower_binsOf, scale_binsOf hspread, sub_real, mul_real]
    change (wholePart _).toNat = _
    rw [wholePart, if_neg (not_lt.2 hnonneg)]
    rfl
  rw [hslot, Nat.floor_lt hnonneg, edge_zero, edge, ← lt_div_iff₀ (by positivity),
    sub_lt_iff_lt_add']
  have hwidth : (i : ℝ) / (count / (2 * spread xs)) = (2 * i : ℕ) * (spread xs / count) := by
    push_cast
    field_simp
  rw [hwidth]

/-- The values below an edge are those below every bin or in a bin before it. -/
theorem upTo_binsOf (ys : List ℝ) (i : Nat) :
    (binsOf xs count).upTo (ys.map real) i = ys.countP (· < edge xs count i) := by
  rw [Bins.upTo, List.countP_map]
  congr 1
  funext x
  rw [Function.comp_apply, lower_binsOf, Bool.eq_iff_iff, Bool.or_eq_true, decide_eq_true_iff,
    decide_eq_true_iff, decide_eq_true_iff, lt_real]
  rcases lt_or_ge x (edge xs count 0) with hx | hx
  · exact iff_of_true (.inl hx) (hx.trans_le (edge_mono xs count (Nat.zero_le i)))
  · rw [slot_lt_iff hspread hcount hx]
    exact or_iff_right (not_lt.2 hx)

/-- A value lies in a bin if it lies between its edges, and not on the upper one. -/
theorem isIn_binsOf (i : Nat) (x : ℝ) : (binsOf xs count).isIn i (real x) =
    decide (edge xs count i ≤ x ∧ x < edge xs count (i + 1)) := by
  rw [Bins.isIn, lower_binsOf, Bool.eq_iff_iff, Bool.and_eq_true, Bool.not_eq_true',
    decide_eq_false_iff_not, decide_eq_true_iff, beq_iff_eq, lt_real, not_lt]
  constructor
  · rintro ⟨hx, hslot⟩
    have hlow := slot_lt_iff hspread hcount hx i
    have hhigh := slot_lt_iff hspread hcount hx (i + 1)
    rw [hslot] at hlow hhigh
    exact ⟨not_lt.1 fun hlt => lt_irrefl i (hlow.2 hlt), hhigh.1 (Nat.lt_succ_self i)⟩
  · rintro ⟨hlow, hhigh⟩
    have hx := (edge_mono xs count (Nat.zero_le i)).trans hlow
    refine ⟨hx, ?_⟩
    have hlt := (slot_lt_iff hspread hcount hx (i + 1)).2 hhigh
    have hge := mt (slot_lt_iff hspread hcount hx i).1 (not_lt.2 hlow)
    omega

theorem counts_binsOf (ys : List ℝ) : (binsOf xs count).counts (ys.map real) =
    (List.range count).map fun i =>
      ys.countP fun x => decide (edge xs count i ≤ x ∧ x < edge xs count (i + 1)) := by
  rw [Bins.counts_eq]
  change (List.range count).map _ = _
  simp only [List.countP_map, Function.comp_def, isIn_binsOf hspread hcount]

/-- The bin that is found for a rank is the one with the entry of that rank. -/
theorem ranked?_of_mem_bin {rank i : Nat} {v : ℝ} (h : HasRank xs rank v) (hi : i < count)
    (hlow : edge xs count i ≤ v) (hhigh : v < edge xs count (i + 1)) :
    (binsOf xs count).ranked? rank (xs.map real) = some i := by
  rw [Bins.ranked?_eq_some_iff]
  simp only [upTo_binsOf hspread hcount]
  refine ⟨hi, h.le_countP_lt_iff.2 hhigh, ?_⟩
  intro j hj
  rw [← not_le, h.le_countP_lt_iff, not_lt]
  exact (edge_mono xs count hj).trans hlow

theorem exists_mem_bin {v : ℝ} (hlow : level xs - spread xs ≤ v)
    (hhigh : v < level xs + spread xs) :
    ∃ i < count, edge xs count i ≤ v ∧ v < edge xs count (i + 1) := by
  rw [← edge_zero xs count] at hlow
  rw [← edge_count hcount] at hhigh
  have hslot := slot_lt_iff hspread hcount hlow
  exact ⟨(binsOf xs count).slot (real v), (hslot count).2 hhigh,
    not_lt.1 (mt (hslot _).2 (lt_irrefl _)), (hslot _).1 (Nat.lt_succ_self _)⟩

theorem centre_binsOf (i : Nat) : (binsOf xs count).centre i = real (midpoint xs count i) := by
  rw [binsOf, centre_spanning _ hspread hcount]
  congr 1
  unfold midpoint edge
  push_cast
  ring

/-! ## The binned median -/

/-- With a deviation, the binned median is the middle of the bin that is found. -/
theorem binned_of_ranked? {i : Nat}
    (hi : (binsOf xs count).ranked? (middleRank xs.length) (xs.map real) = some i) :
    binned count (xs.map real) = real (midpoint xs count i) := by
  have hne : xs ≠ [] := by
    rintro rfl
    exact hspread.ne' spread_nil
  rw [← centre_binsOf hspread hcount i, binned_real hne, if_neg hspread.ne', ← binsOf, hi]
  rfl

/-- There is a bin for the lower middle entry, and the binned median is the middle of it. -/
theorem exists_binned_middle {v : ℝ} (h : HasRank xs (middleRank xs.length) v) :
    ∃ i < count, edge xs count i ≤ v ∧ v < edge xs count (i + 1) ∧
      (binsOf xs count).ranked? (middleRank xs.length) (xs.map real) = some i ∧
      binned count (xs.map real) = real (midpoint xs count i) := by
  obtain ⟨i, hi, hlow, hhigh⟩ := exists_mem_bin hspread hcount h.le_middle (h.middle_lt hspread)
  have hranked := ranked?_of_mem_bin hspread hcount h hi hlow hhigh
  exact ⟨i, hi, hlow, hhigh, hranked, binned_of_ranked? hspread hcount hranked⟩

end Bins

theorem binned?_eq_ok {xs : List Exact} (hne : xs ≠ []) (count : Nat) :
    binned? count xs = .ok (binned count xs) := by
  have hcount : ¬((count : Int) < 0 ∧
      (!Scalar.sameValue (deviation Sum.running xs) 0.0) = true) := by
    rintro ⟨hneg, -⟩
    omega
  simp only [binned?, binFault, List.isEmpty_iff, hne, if_false, hcount, Int.toNat_natCast]

/-- The bins of a list with a deviation have their edges at equal distances from one
deviation below the mean to one deviation above it, and each count is that of the values
between two edges. The lower middle entry lies in one of the bins; it is the bin that is
found, so its middle is the binned median, which is no further from the entry than half the
width of a bin. -/
theorem binned?_middle {xs : List ℝ} (hspread : 0 < spread xs) {count : Nat} (hcount : 1 ≤ count) :
    (edge xs count 0 = level xs - spread xs ∧ edge xs count count = level xs + spread xs ∧
      ∀ i, edge xs count (i + 1) = edge xs count i + 2 * spread xs / count) ∧
    (binsOf xs count).counts (xs.map real) = (List.range count).map (fun i =>
      xs.countP fun x => decide (edge xs count i ≤ x ∧ x < edge xs count (i + 1))) ∧
    ∃ v i, HasRank xs (middleRank xs.length) v ∧ i < count ∧
      edge xs count i ≤ v ∧ v < edge xs count (i + 1) ∧
      (binsOf xs count).ranked? (middleRank xs.length) (xs.map real) = some i ∧
      binned? count (xs.map real) = .ok (real (midpoint xs count i)) ∧
      |midpoint xs count i - v| ≤ spread xs / count := by
  have hne : xs ≠ [] := by
    rintro rfl
    exact hspread.ne' spread_nil
  obtain ⟨v, hv⟩ := exists_hasRank_middle hne
  obtain ⟨i, hi, hlow, hhigh, hranked, hbinned⟩ := exists_binned_middle hspread hcount hv
  refine ⟨⟨edge_zero xs count, edge_count hcount, edge_succ xs count⟩, counts_binsOf hspread hcount xs, v, i, hv, hi,
    hlow, hhigh, hranked, ?_, abs_midpoint_sub_le hlow hhigh⟩
  rw [binned?_eq_ok (by simpa using hne), hbinned]

theorem spread_zero_one : spread [0, 1] = 1 / 2 := by
  rw [spread_pair, zero_sub, abs_neg, abs_one]

/-- Zero and one in four bins, with the middle of the first one for a median. -/
theorem binned?_middle_two :
    0 < spread [0, 1] ∧ 1 ≤ 4 ∧
    ∃ v i, HasRank [0, 1] (middleRank 2) v ∧ i < 4 ∧
      edge [0, 1] 4 i ≤ v ∧ v < edge [0, 1] 4 (i + 1) ∧
      (binsOf [0, 1] 4).ranked? (middleRank 2) [real 0, real 1] = some i ∧
      binned? 4 [real 0, real 1] = .ok (real (midpoint [0, 1] 4 i)) ∧
      |midpoint [0, 1] 4 i - v| ≤ spread [0, 1] / (4 : ℕ) := by
  have hspread : 0 < spread [0, 1] := by
    rw [spread_zero_one]
    exact one_half_pos
  have hcount : 1 ≤ 4 := by decide
  obtain ⟨-, -, hmiddle⟩ := binned?_middle hspread hcount
  exact ⟨hspread, hcount, hmiddle⟩

end SkySources.Median
