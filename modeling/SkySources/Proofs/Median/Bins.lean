import Mathlib
import SkySources.Median
import SkySources.Proofs.Tally

/-!
# Counting in bins

One pass over the values counts them in the bins, and a second one over the counts adds
them up until they reach a rank. So the bin that is found is the first one up to which
there are at least so many values, those below every bin included.

What is proved, on any number line:
  1. `counts_eq`: each count is that of the values in its bin;
  2. `below_add_sum_counts`: the counts of the first bins, added up;
  3. `ranked?_eq_some_iff`: the bin of a rank.
-/

namespace SkySources.Median.Bins
variable {α : Type} [Scalar α] (b : Bins α)

/-- Whether a value lies in a bin. -/
def isIn (i : Nat) (x : α) : Bool := !decide (x < b.lower) && b.slot x == i

/-- How many values lie below every bin or in one of the first bins. -/
def upTo (xs : List α) (i : Nat) : Nat :=
  xs.countP fun x => decide (x < b.lower) || decide (b.slot x < i)

theorem counts_eq (xs : List α) :
    b.counts xs = (List.range b.count).map fun i => xs.countP (b.isIn i) := by
  let bin (x : α) : Option Nat := if x < b.lower then none else some (b.slot x)
  have hstep (counts : Array Nat) (x : α) : Tally.change bin (fun n _ => n + 1) counts.toList x =
      (if x < b.lower then counts else counts.modify (b.slot x) (· + 1)).toList := by
    by_cases hx : x < b.lower <;> simp [Tally.change, bin, hx]
  have hcount (i : Nat) : (xs.filter fun x => bin x = some i).foldl (fun n _ => n + 1) 0 =
      xs.countP (b.isIn i) := by
    rw [List.foldl_add_const, List.countP_eq_length_filter]
    simp only [one_mul, zero_add]
    congr 2
    funext x
    by_cases hx : x < b.lower <;> simp [isIn, bin, hx, beq_eq_decide]
  rw [counts, ← List.foldl_hom (f := Array.toList) (H := hstep), Array.toList_replicate,
    Tally.foldl_change]
  exact List.map_congr_left fun i _ => hcount i

/-! ## Adding up -/

theorem reaching?_eq_some_iff {rank before bin i : Nat} {ns : List Nat} :
    reaching? rank before bin ns = some i ↔ ∃ k < ns.length, i = bin + k ∧
      rank ≤ before + (ns.take (k + 1)).sum ∧ ∀ j < k, before + (ns.take (j + 1)).sum < rank := by
  induction ns generalizing before bin with
  | nil => simp [reaching?]
  | cons n rest ih =>
    rw [reaching?]
    split
    · next hn =>
      constructor
      · intro h
        exact ⟨0, by simp, by simpa using h.symm, by simpa using hn, by simp⟩
      · rintro ⟨k, -, rfl, -, hk⟩
        cases k with
        | zero => rfl
        | succ k =>
          have hfirst := hk 0 (Nat.succ_pos k)
          simp at hfirst
          omega
    · next hn =>
      rw [ih]
      constructor
      · rintro ⟨k, hk, rfl, hreach, hbefore⟩
        refine ⟨k + 1, by simpa using hk, by omega, by simpa [Nat.add_assoc] using hreach, ?_⟩
        intro j hj
        cases j with
        | zero => simpa using hn
        | succ j => simpa [Nat.add_assoc] using hbefore j (by omega)
      · rintro ⟨k, hk, rfl, hreach, hbefore⟩
        cases k with
        | zero => simp at hreach; omega
        | succ k =>
          refine ⟨k, by simpa using hk, by omega, by simpa [Nat.add_assoc] using hreach, ?_⟩
          intro j hj
          simpa [Nat.add_assoc] using hbefore (j + 1) (by omega)

theorem upTo_zero (xs : List α) : b.upTo xs 0 = (b.below xs).length := by
  simp [upTo, below, List.countP_eq_length_filter]

/-- The next bin adds the values in it. -/
theorem upTo_succ (xs : List α) (i : Nat) :
    b.upTo xs (i + 1) = b.upTo xs i + xs.countP (b.isIn i) := by
  induction xs with
  | nil => rfl
  | cons x xs ih =>
    simp only [upTo, List.countP_cons] at ih ⊢
    rw [ih]
    by_cases hx : x < b.lower
    · simp [isIn, hx]
      omega
    · simp only [isIn, hx, decide_false, Bool.false_or, Bool.not_false, Bool.true_and,
        decide_eq_true_eq, beq_iff_eq]
      split_ifs <;> omega

theorem below_add_sum_counts (xs : List α) {i : Nat} (hi : i ≤ b.count) :
    (b.below xs).length + ((b.counts xs).take i).sum = b.upTo xs i := by
  induction i with
  | zero => simp [upTo_zero]
  | succ i ih =>
    have hlength : i < (b.counts xs).length := by simp [counts_eq]; omega
    rw [List.sum_take_succ _ _ hlength, upTo_succ, ← ih (by omega)]
    simp [counts_eq, Nat.add_assoc]

/-- The bin of a rank is the first one with at least so many values below or in it. -/
theorem ranked?_eq_some_iff {rank i : Nat} {xs : List α} : b.ranked? rank xs = some i ↔
    i < b.count ∧ rank ≤ b.upTo xs (i + 1) ∧ ∀ j < i, b.upTo xs (j + 1) < rank := by
  have hlength : (b.counts xs).length = b.count := by simp [counts_eq]
  rw [ranked?, reaching?_eq_some_iff, hlength]
  constructor
  · rintro ⟨k, hk, rfl, hreach, hbefore⟩
    rw [below_add_sum_counts b xs hk] at hreach
    rw [Nat.zero_add]
    refine ⟨hk, hreach, ?_⟩
    intro j hj
    rw [← below_add_sum_counts b xs (by omega)]
    exact hbefore j hj
  · rintro ⟨hi, hreach, hbefore⟩
    rw [← below_add_sum_counts b xs hi] at hreach
    refine ⟨i, hi, by omega, hreach, ?_⟩
    intro j hj
    rw [below_add_sum_counts b xs (by omega)]
    exact hbefore j hj

/-- The order of the values does not matter. -/
theorem ranked?_perm (rank : Nat) {xs ys : List α} (h : xs.Perm ys) :
    b.ranked? rank xs = b.ranked? rank ys := by
  have hcounts : b.counts xs = b.counts ys := by
    rw [counts_eq, counts_eq]
    exact List.map_congr_left fun i _ => h.countP_eq _
  rw [ranked?, ranked?, hcounts, below, below, (h.filter _).length_eq]

end SkySources.Median.Bins
