import Mathlib
import SkySources.Proofs.Exact
import SkySources.Proofs.Fit.Acceptance
import SkySources.Proofs.Raster

/-!
# The margin around a box

A box in an image that is grown by a margin and clipped holds the positions of the image that
are near one of its own. The box has four bounds, which are all included, but its ranges of
rows and columns leave out their ends, and a range may in general count from behind or reach
over the end of a list (`inRange`). Those of a box in an image do neither, so they pick the
rows and columns between the bounds.

What is proved:
  1. `inRange_finRange`: what a range between zero and the length of a list picks;
  2. `picked_eq`: so the ranges of a box pick the pixels that it holds, in raster order;
  3. `contains_padded`: what a grown box contains;
  4. `padded_padded`: to grow a box twice is to grow it once by both margins;
  5. `padded_dilates`: all of it, for every box in an image and every margin.
-/

namespace SkySources

/-! ## Ranges of lists -/

/-- Where an end of a range lies in a list of so many entries: a negative one is counted from
behind, and none lies outside. -/
def rangeEnd (count : Nat) (i : Int) : Nat :=
  (if i < 0 then max (i + count) 0 else min i count).toNat

/-- The entries of a list in a range that leaves out its end. -/
def inRange {β : Type} (range : Int × Int) (xs : List β) : List β :=
  (xs.take (rangeEnd xs.length range.2)).drop (rangeEnd xs.length range.1)

/-- A range lies in a list of so many entries, and has an entry. -/
structure RangeIn (range : Int × Int) (count : Nat) : Prop where
  start : 0 ≤ range.1
  lt : range.1 < range.2
  stop : range.2 ≤ count

section Ranges
variable {β γ : Type} {range : Int × Int} {count : Nat}

/-- An end between zero and the length stays where it is. -/
theorem rangeEnd_eq {i : Int} (h : 0 ≤ i) (hcount : i ≤ count) : (rangeEnd count i : Int) = i := by
  unfold rangeEnd
  rw [if_neg (by omega)]
  omega

theorem inRange_map (f : β → γ) (xs : List β) :
    inRange range (xs.map f) = (inRange range xs).map f := by
  unfold inRange
  rw [List.length_map, List.map_drop, List.map_take]

theorem inRange_finRange (h : RangeIn range count) : inRange range (List.finRange count) =
    (List.finRange count).filter fun i => decide (range.1 ≤ i.val ∧ (i.val : Int) < range.2) := by
  have hstart := rangeEnd_eq h.start (h.lt.le.trans h.stop)
  have hstop := rangeEnd_eq (h.start.trans h.lt.le) h.stop
  -- both sides are in order, so only their members matter
  apply eq_of_pairwise_of_mem_iff (r := (· < ·)) (fun i _ j _ hij => not_lt.2 hij.le)
  · unfold inRange
    exact ((List.pairwise_lt_finRange count).take).drop
  · exact (List.pairwise_lt_finRange count).filter _
  · intro i
    unfold inRange
    rw [List.length_finRange, List.mem_drop_iff_getElem, List.mem_filter, decide_eq_true_eq]
    simp only [List.getElem_take, List.getElem_finRange, List.length_take, List.length_finRange,
      List.mem_finRange, true_and]
    refine ⟨fun hi => ?_, fun hi => ⟨i.val - rangeEnd count range.1, ?_, ?_⟩⟩
    · obtain ⟨k, hk, rfl⟩ := hi
      simp only [Fin.val_cast]
      omega
    · omega
    · apply Fin.ext
      simp only [Fin.val_cast]
      omega

end Ranges

/-! ## Ranges of a box -/

namespace Pixel
variable {rows cols : Nat}

/-- The pixels in some rows and some columns, row by row. -/
theorem filter_raster (f : Fin rows → Bool) (h : Fin cols → Bool) :
    (raster rows cols).filter (fun p => f p.row && h p.col) =
      ((List.finRange rows).filter f).flatMap fun r =>
        ((List.finRange cols).filter h).map fun c => ⟨r, c⟩ := by
  unfold raster
  induction List.finRange rows with
  | nil => rfl
  | cons r rest ih =>
    rw [List.flatMap_cons, List.filter_append, ih, List.filter_map]
    cases hr : f r with
    | true =>
      rw [List.filter_cons_of_pos hr, List.flatMap_cons]
      simp only [Function.comp_def, hr, Bool.true_and]
    | false =>
      rw [List.filter_cons_of_neg (by rw [hr]; exact Bool.false_ne_true)]
      simp only [Function.comp_def, hr, Bool.false_and, List.filter_false, List.map_nil,
        List.nil_append]

end Pixel

theorem Grid.toRows_eq {β : Type} {rows cols : Nat} (g : Grid rows cols β) :
    g.toRows = (List.finRange rows).map fun r => (List.finRange cols).map fun c => g.get ⟨r, c⟩ := by
  have hrow {n : Nat} {δ : Type} (v : Vector δ n) : v.toList = (List.finRange n).map (v[·]) := by
    apply List.ext_getElem <;> simp
  rw [toRows, hrow g.cells, List.map_map]
  apply List.map_congr_left
  intro r _
  exact hrow _

namespace BoundingBox
variable {rows cols : Nat} {b : BoundingBox} {margin : Int}

/-- The cells of a grid in the ranges of a box: a range of its rows, and a range of each of
those. -/
def picked {β : Type} (b : BoundingBox) (g : Grid rows cols β) : List β :=
  (inRange b.rowRange g.toRows).flatMap (inRange b.colRange)

theorem rangeIn_rowRange (h : b.Inside rows cols) : RangeIn b.rowRange rows := by
  have hrows := b.rows_le
  have hmax := h.maxRow
  refine ⟨h.minRow, ?_, ?_⟩
  · show b.minRow < b.maxRow + 1
    omega
  · show b.maxRow + 1 ≤ rows
    omega

theorem rangeIn_colRange (h : b.Inside rows cols) : RangeIn b.colRange cols := by
  have hcols := b.cols_le
  have hmax := h.maxCol
  refine ⟨h.minCol, ?_, ?_⟩
  · show b.minCol < b.maxCol + 1
    omega
  · show b.maxCol + 1 ≤ cols
    omega

/-- The ranges of a box in a grid pick the cells of the pixels that it holds. -/
theorem picked_eq {β : Type} (h : b.Inside rows cols) (g : Grid rows cols β) :
    b.picked g = ((Pixel.raster rows cols).filter b.holds).map g.get := by
  have hholds : b.holds = fun p : Pixel rows cols =>
      decide (b.rowRange.1 ≤ p.row.val ∧ (p.row.val : Int) < b.rowRange.2) &&
        decide (b.colRange.1 ≤ p.col.val ∧ (p.col.val : Int) < b.colRange.2) := by
    funext p
    rw [Bool.eq_iff_iff, holds_iff, Bool.and_eq_true, decide_eq_true_eq, decide_eq_true_eq,
      rowRange, colRange, Int.lt_add_one_iff, Int.lt_add_one_iff]
  have hrow (r : Fin rows) :
      inRange b.colRange ((List.finRange cols).map fun c => g.get ⟨r, c⟩) =
        ((List.finRange cols).filter fun c =>
          decide (b.colRange.1 ≤ c.val ∧ (c.val : Int) < b.colRange.2)).map
            fun c => g.get ⟨r, c⟩ := by
    rw [inRange_map, inRange_finRange (rangeIn_colRange h)]
  rw [picked, Grid.toRows_eq, inRange_map, inRange_finRange (rangeIn_rowRange h), hholds,
    Pixel.filter_raster (fun r => decide (b.rowRange.1 ≤ r.val ∧ (r.val : Int) < b.rowRange.2))
      (fun c => decide (b.colRange.1 ≤ c.val ∧ (c.val : Int) < b.colRange.2)), List.map_flatMap,
    List.flatMap_map]
  simp only [hrow, List.map_map, Function.comp_def]

/-! ## Positions in a box -/

/-- A whole position is in a box. -/
def Covers (b : BoundingBox) (row col : Int) : Prop :=
  b.contains (Scalar.ofInt row : Exact) (Scalar.ofInt col) = true

theorem covers_iff {row col : Int} : b.Covers row col ↔
    (b.minRow ≤ row ∧ row ≤ b.maxRow) ∧ b.minCol ≤ col ∧ col ≤ b.maxCol := by
  simp only [Covers, contains, Exact.ofInt_eq, Exact.le_real, Int.cast_le, Bool.and_eq_true,
    decide_eq_true_eq, and_assoc]

theorem holds_iff_covers {p : Pixel rows cols} : b.holds p = true ↔ b.Covers p.row p.col := by
  rw [holds_iff, covers_iff]

/-- The positions in a grid that are up to a margin of rows and columns away from some position
in a box. -/
def Reaches (b : BoundingBox) (margin : Int) (rows cols : Nat) (row col : Int) : Prop :=
  ((0 ≤ row ∧ row < rows) ∧ 0 ≤ col ∧ col < cols) ∧
    ∃ row' col', b.Covers row' col' ∧ |row - row'| ≤ margin ∧ |col - col'| ≤ margin

theorem contains_padded {p : BoundingBox} (hmargin : 0 ≤ margin)
    (hp : b.padded margin rows cols = .ok p) (row col : Int) :
    p.Covers row col ↔ b.Reaches margin rows cols row col := by
  obtain ⟨⟨hminRow, hmaxRow⟩, hminCol, hmaxCol⟩ := padded_eq_ok hp
  have hrows := b.rows_le
  have hcols := b.cols_le
  rw [covers_iff, Reaches]
  refine ⟨fun h => ⟨by omega, ?_⟩, fun h => ?_⟩
  · -- the nearest position of the box
    refine ⟨max b.minRow (min row b.maxRow), max b.minCol (min col b.maxCol), ?_, ?_, ?_⟩
    · rw [covers_iff]
      omega
    · rw [abs_le]
      omega
    · rw [abs_le]
      omega
  · obtain ⟨hgrid, row', col', hcovers, hrow, hcol⟩ := h
    rw [covers_iff] at hcovers
    rw [abs_le] at hrow hcol
    omega

/-- To grow a box twice is to grow it once by both margins. -/
theorem padded_padded {p : BoundingBox} {m n : Int} (hn : 0 ≤ n)
    (hp : b.padded m rows cols = .ok p) :
    p.padded n rows cols = b.padded (m + n) rows cols := by
  have hlow (x : Int) : max (max (x - m) 0 - n) 0 = max (x - (m + n)) 0 := by omega
  have hhigh (x top : Int) : min (min (x + m) top + n) top = min (x + (m + n)) top := by omega
  obtain ⟨⟨hminRow, hmaxRow⟩, hminCol, hmaxCol⟩ := padded_eq_ok hp
  rw [padded, hminRow, hmaxRow, hminCol, hmaxCol, hlow, hlow, hhigh, hhigh]
  rfl

/-- A box in a grid can be grown by every margin. The grown box contains exactly the positions of
the grid that are up to the margin away from a position in the box. Its ranges neither count
from behind nor reach over the end, and from every grid they pick the cells of exactly these
positions, in raster order. Growing it again is growing the box by both margins at once. -/
theorem padded_dilates (hmargin : 0 ≤ margin) (hb : b.Inside rows cols) :
    ∃ p : BoundingBox, b.padded margin rows cols = .ok p ∧
      (∀ row col, p.Covers row col ↔ b.Reaches margin rows cols row col) ∧
      (RangeIn p.rowRange rows ∧ RangeIn p.colRange cols) ∧
      (∃ pixels : List (Pixel rows cols), pixels.Pairwise (fun q q' => q.index < q'.index) ∧
        (∀ q, q ∈ pixels ↔ b.Reaches margin rows cols q.row q.col) ∧
        ∀ {β : Type} (g : Grid rows cols β), p.picked g = pixels.map g.get) ∧
      ∀ m, 0 ≤ m → p.padded m rows cols = b.padded (margin + m) rows cols := by
  obtain ⟨p, hp⟩ := Fit.exists_padded hmargin hb
  have hinside := inside_padded hp
  refine ⟨p, hp, contains_padded hmargin hp, ⟨rangeIn_rowRange hinside, rangeIn_colRange hinside⟩,
    ⟨(Pixel.raster rows cols).filter p.holds, (Pixel.raster_pairwise rows cols).filter _, ?_,
      picked_eq hinside⟩, fun m hm => padded_padded hm hp⟩
  intro q
  rw [List.mem_filter, and_iff_right (Pixel.mem_raster q), holds_iff_covers,
    contains_padded hmargin hp]

/-- A box of one row at the right end of a grid of three rows and four columns. -/
def shelf : BoundingBox := ⟨1, 1, 2, 3, by decide, by decide⟩

/-- With a margin of one the box has room above and below, but is cut on the right; its ranges
pick the last three entries of every row. -/
theorem padded_dilates_shelf : (0 : Int) ≤ 1 ∧ shelf.Inside 3 4 ∧
    ∃ p : BoundingBox, shelf.padded 1 3 4 = .ok p ∧
      (∀ row col, p.Covers row col ↔ shelf.Reaches 1 3 4 row col) ∧
      (p.rowRange = (0, 3) ∧ p.colRange = (1, 4)) ∧ p.padded 2 3 4 = shelf.padded 3 3 4 := by
  have hmargin : (0 : Int) ≤ 1 := by decide
  have hinside : shelf.Inside 3 4 := ⟨by decide, by decide, by decide, by decide⟩
  obtain ⟨p, hp, hcovers, -, -, hagain⟩ := padded_dilates hmargin hinside
  have hbox : shelf.padded 1 3 4 = .ok ⟨0, 2, 1, 3, by decide, by decide⟩ := by rfl
  obtain rfl : p = ⟨0, 2, 1, 3, by decide, by decide⟩ := Except.ok.inj (hp.symm.trans hbox)
  exact ⟨hmargin, hinside, _, hp, hcovers, ⟨rfl, rfl⟩, hagain 2 (by decide)⟩

end BoundingBox
end SkySources
