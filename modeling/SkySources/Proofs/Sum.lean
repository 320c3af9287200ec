import Mathlib
import SkySources.Moments

/-!
# Sums of changed values

A function that goes through addition goes through every way of adding up a
list, so it goes through the mean as well if it goes through division.
-/

namespace SkySources.Sum
variable {α β : Type} [Scalar α] [Scalar β] {f : α → β}

/-- Accumulators that are all changed. -/
def Lanes.map (f : α → β) (l : Lanes α) : Lanes β :=
  ⟨f l.a, f l.b, f l.c, f l.d, f l.e, f l.f, f l.g, f l.h⟩

omit [Scalar α] in
theorem exists_eight {xs : List α} (h : 8 ≤ xs.length) :
    ∃ a b c d e g i j rest, xs = a :: b :: c :: d :: e :: g :: i :: j :: rest := by
  rcases xs with _ | ⟨a, _ | ⟨b, _ | ⟨c, _ | ⟨d, _ | ⟨e, _ | ⟨g, _ | ⟨i, _ | ⟨j, rest⟩⟩⟩⟩⟩⟩⟩⟩
  any_goals
    simp only [List.length_cons, List.length_nil] at h
    omega
  exact ⟨a, b, c, d, e, g, i, j, rest, rfl⟩

theorem absorb_of_short (l : Lanes α) {xs : List α} (h : xs.length < 8) :
    l.absorb xs = xs.foldl (· + ·) l.total := by
  unfold Lanes.absorb
  split
  · simp only [List.length_cons] at h
    omega
  · rfl

theorem block_of_short {xs : List α} (h : xs.length < 8) : block xs = running xs := by
  unfold block
  split
  · simp only [List.length_cons] at h
    omega
  · rfl

section Additive
variable (hadd : ∀ x y, f (x + y) = f x + f y)
include hadd

theorem foldl_map_add (xs : List α) (start : α) :
    (xs.map f).foldl (· + ·) (f start) = f (xs.foldl (· + ·) start) := by
  induction xs generalizing start with
  | nil => rfl
  | cons x xs ih => rw [List.map_cons, List.foldl_cons, List.foldl_cons, ← hadd, ih]

theorem running_map (hzero : f 0.0 = 0.0) (xs : List α) : running (xs.map f) = f (running xs) := by
  rw [running, ← hzero, foldl_map_add hadd]
  rfl

theorem total_map (l : Lanes α) : (l.map f).total = f l.total := by
  simp only [Lanes.total, Lanes.map, hadd]

theorem absorb_map (l : Lanes α) (xs : List α) : (l.map f).absorb (xs.map f) = f (l.absorb xs) := by
  induction l, xs using Lanes.absorb.induct with
  | case1 l a b c d e g i j rest ih =>
    simp only [List.map_cons, Lanes.absorb]
    rw [← ih]
    simp only [Lanes.map, hadd]
  | case2 l rest hrest =>
    -- fewer than eight entries are left over
    have hshort : rest.length < 8 := by
      by_contra hlen
      obtain ⟨a, b, c, d, e, g, i, j, tail, rfl⟩ := exists_eight (not_lt.1 hlen)
      exact hrest a b c d e g i j tail rfl
    rw [absorb_of_short l hshort, absorb_of_short _ (by rwa [List.length_map]), total_map hadd,
      foldl_map_add hadd]

theorem block_map (hzero : f 0.0 = 0.0) (xs : List α) : block (xs.map f) = f (block xs) := by
  by_cases hshort : xs.length < 8
  · rw [block_of_short hshort, block_of_short (by rwa [List.length_map]), running_map hadd hzero]
  · obtain ⟨a, b, c, d, e, g, i, j, rest, rfl⟩ := exists_eight (not_lt.1 hshort)
    exact absorb_map hadd ⟨a, b, c, d, e, g, i, j⟩ rest

theorem pairwise_map (hzero : f 0.0 = 0.0) (xs : List α) : pairwise (xs.map f) = f (pairwise xs) := by
  induction xs using pairwise.induct with
  | case1 xs h =>
    rw [pairwise.eq_1 xs, pairwise.eq_1 (xs.map f), if_pos h, if_pos (by rwa [List.length_map]),
      block_map hadd hzero]
  | case2 xs h ih₁ ih₂ =>
    rw [pairwise.eq_1 xs, pairwise.eq_1 (xs.map f), if_neg h, if_neg (by rwa [List.length_map]), hadd,
      ← ih₁, ← ih₂, List.length_map, List.map_take, List.map_drop]

end Additive
end SkySources.Sum
