import SkySources.Scalar

/-!
# Sums

Two orders of adding up a list. `running` adds from left to right. `pairwise`
halves a long list and adds the halves, with eight interleaved accumulators
below that, so that rounding errors grow slowly. Over an exact scalar both are
the sum of the list.
-/

namespace SkySources.Sum
variable {α : Type} [Scalar α]

/-- The sum from left to right. -/
def running (xs : List α) : α := xs.foldl (· + ·) 0.0

/-- Eight interleaved accumulators. -/
structure Lanes (α : Type) where
  (a b c d e f g h : α)

/-- The accumulators added in pairs of neighbours. -/
def Lanes.total (l : Lanes α) : α :=
  ((l.a + l.b) + (l.c + l.d)) + ((l.e + l.f) + (l.g + l.h))

/-- Each accumulator takes every eighth entry; the entries that are left over
are added to the total one after the other. -/
def Lanes.absorb (l : Lanes α) : List α → α
  | a :: b :: c :: d :: e :: f :: g :: h :: rest =>
    Lanes.absorb ⟨l.a + a, l.b + b, l.c + c, l.d + d, l.e + e, l.f + f, l.g + g, l.h + h⟩ rest
  | rest => rest.foldl (· + ·) l.total

/-- The sum of a block: from left to right below eight entries, in eight lanes
from there on. -/
def block : List α → α
  | a :: b :: c :: d :: e :: f :: g :: h :: rest => Lanes.absorb ⟨a, b, c, d, e, f, g, h⟩ rest
  | xs => running xs

/-- Where a long list is cut: half its length, rounded down to eights. -/
def half (n : Nat) : Nat := n / 2 / 8 * 8

/-- The sum by halving; lists of at most 128 entries are blocks. -/
def pairwise (xs : List α) : α :=
  if xs.length ≤ 128 then block xs
  else pairwise (xs.take (half xs.length)) + pairwise (xs.drop (half xs.length))
termination_by xs.length
decreasing_by
  · simp only [List.length_take]; unfold half; omega
  · simp only [List.length_drop]; unfold half; omega

end SkySources.Sum
