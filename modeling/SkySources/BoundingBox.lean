import SkySources.Decimal.Text
import SkySources.Grid
import SkySources.Scalar

/-!
# Bounding boxes

A box holds the rows and columns between two inclusive bounds, and is never
empty: bounds that are the wrong way round make no box. Padding grows a box on
all sides and clips it to a grid.
-/

namespace SkySources

/-- Inclusive bounds of rows and columns. -/
structure BoundingBox where
  (minRow maxRow minCol maxCol : Int)
  /-- The rows are in order. -/
  rows_le : minRow ≤ maxRow
  /-- The columns are in order. -/
  cols_le : minCol ≤ maxCol
  deriving DecidableEq

/-- Bounds of which a pair is the wrong way round. -/
structure InvertedBox where
  (minRow maxRow minCol maxCol : Int)
  deriving DecidableEq, Repr

namespace InvertedBox

/-- The complaint about such bounds. -/
def message (b : InvertedBox) : String :=
  "Inverted bounding box: BoundingBox(min_row=" ++ Decimal.integerText b.minRow
    ++ ", max_row=" ++ Decimal.integerText b.maxRow
    ++ ", min_col=" ++ Decimal.integerText b.minCol
    ++ ", max_col=" ++ Decimal.integerText b.maxCol ++ ")"

end InvertedBox

namespace BoundingBox

/-- The box with the given bounds, unless they are inverted. -/
def make (minRow maxRow minCol maxCol : Int) : Except InvertedBox BoundingBox :=
  if h : minRow ≤ maxRow ∧ minCol ≤ maxCol then .ok ⟨minRow, maxRow, minCol, maxCol, h.1, h.2⟩
  else .error ⟨minRow, maxRow, minCol, maxCol⟩

/-- The number of columns. -/
def width (b : BoundingBox) : Int := b.maxCol - b.minCol + 1

/-- The number of rows. -/
def height (b : BoundingBox) : Int := b.maxRow - b.minRow + 1

theorem width_pos (b : BoundingBox) : 0 < b.width := by
  have := b.cols_le; unfold width; omega

theorem height_pos (b : BoundingBox) : 0 < b.height := by
  have := b.rows_le; unfold height; omega

/-- The rows as a range that leaves out its end. -/
def rowRange (b : BoundingBox) : Int × Int := (b.minRow, b.maxRow + 1)

/-- The columns as a range that leaves out its end. -/
def colRange (b : BoundingBox) : Int × Int := (b.minCol, b.maxCol + 1)

/-- The box grown by a margin on all sides and clipped to so many rows and columns. -/
def padded (b : BoundingBox) (margin rows cols : Int) : Except InvertedBox BoundingBox :=
  make (max (b.minRow - margin) 0) (min (b.maxRow + margin) (rows - 1))
    (max (b.minCol - margin) 0) (min (b.maxCol + margin) (cols - 1))

/-- Whether a position, not necessarily a whole one, lies inside the bounds. -/
def contains {α : Type} [Scalar α] (b : BoundingBox) (row col : α) : Bool :=
  decide (Scalar.ofInt b.minRow ≤ row) && decide (row ≤ Scalar.ofInt b.maxRow)
    && decide (Scalar.ofInt b.minCol ≤ col) && decide (col ≤ Scalar.ofInt b.maxCol)

/-- Whether a pixel lies inside the bounds. -/
def holds {rows cols : Nat} (b : BoundingBox) (p : Pixel rows cols) : Bool :=
  decide (b.minRow ≤ p.row.val) && decide ((p.row.val : Int) ≤ b.maxRow)
    && decide (b.minCol ≤ p.col.val) && decide ((p.col.val : Int) ≤ b.maxCol)

end BoundingBox
end SkySources
