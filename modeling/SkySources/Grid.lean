/-!
# Pixel grids

A grid has its numbers of rows and columns in its type, and a pixel of a grid
is a position inside it, so reading a grid at a pixel cannot fail. Raster order
takes the rows from top to bottom and each row from left to right.
-/

namespace SkySources

/-- A position in a grid; the row is counted along `y`, the column along `x`. -/
structure Pixel (rows cols : Nat) where
  row : Fin rows
  col : Fin cols
  deriving DecidableEq

namespace Pixel
variable {rows cols : Nat}

/-- The number of pixels before this one in raster order. -/
def index (p : Pixel rows cols) : Nat := p.row.val * cols + p.col.val

/-- Every pixel, in raster order. -/
def raster (rows cols : Nat) : List (Pixel rows cols) :=
  (List.finRange rows).flatMap fun r => (List.finRange cols).map fun c => ⟨r, c⟩

theorem index_lt (p : Pixel rows cols) : p.index < rows * cols := by
  have hr : p.row.val + 1 ≤ rows := p.row.isLt
  have hc := p.col.isLt
  calc p.row.val * cols + p.col.val
      < p.row.val * cols + cols := by omega
    _ = (p.row.val + 1) * cols := (Nat.succ_mul _ _).symm
    _ ≤ rows * cols := Nat.mul_le_mul_right cols hr

theorem mem_raster (p : Pixel rows cols) : p ∈ raster rows cols := by
  unfold raster
  rw [List.mem_flatMap]
  exact ⟨p.row, List.mem_finRange _, List.mem_map.mpr ⟨p.col, List.mem_finRange _, rfl⟩⟩

/-- The pixel so many rows and columns away, if it lies in the grid. -/
def shift? (rowStep colStep : Int) (p : Pixel rows cols) : Option (Pixel rows cols) :=
  let r := Int.ofNat p.row.val + rowStep
  let c := Int.ofNat p.col.val + colStep
  if h : (0 ≤ r ∧ r < rows) ∧ 0 ≤ c ∧ c < cols then
    some ⟨⟨r.toNat, by omega⟩, ⟨c.toNat, by omega⟩⟩
  else none

end Pixel

/-- A grid of cells, row by row. -/
structure Grid (rows cols : Nat) (α : Type) where
  cells : Vector (Vector α cols) rows
  deriving DecidableEq

namespace Grid
variable {rows cols : Nat} {α β : Type}

/-- The cell at a pixel. -/
def get (g : Grid rows cols α) (p : Pixel rows cols) : α := g.cells[p.row][p.col]

/-- The grid with the given cell at each pixel. -/
def ofFn (f : Pixel rows cols → α) : Grid rows cols α :=
  ⟨Vector.ofFn fun r => Vector.ofFn fun c => f ⟨r, c⟩⟩

@[simp] theorem get_ofFn (f : Pixel rows cols → α) (p : Pixel rows cols) :
    (ofFn f).get p = f p := by
  simp [get, ofFn]

/-- A function applied to every cell. -/
def map (f : α → β) (g : Grid rows cols α) : Grid rows cols β := ofFn fun p => f (g.get p)

@[simp] theorem get_map (f : α → β) (g : Grid rows cols α) (p : Pixel rows cols) :
    (g.map f).get p = f (g.get p) := by simp [map]

/-- The cells in raster order. -/
def toList (g : Grid rows cols α) : List α := (Pixel.raster rows cols).map g.get

/-- The pixels, in raster order, whose cell passes a test. -/
def pixelsWhere (test : α → Bool) (g : Grid rows cols α) : List (Pixel rows cols) :=
  (Pixel.raster rows cols).filter fun p => test (g.get p)

/-- How many cells pass a test. -/
def count (test : α → Bool) (g : Grid rows cols α) : Nat := (g.pixelsWhere test).length

/-- The grid as a list of rows. -/
def toRows (g : Grid rows cols α) : List (List α) := g.cells.toList.map Vector.toList

end Grid

/-- A grid of any size. -/
structure Image (α : Type) where
  {rows cols : Nat}
  grid : Grid rows cols α

namespace Image
variable {α β : Type}

/-- The image of so many rows and columns with the given cells in raster order,
if there are exactly as many as it needs. -/
def ofCells? (rows cols : Nat) (cells : Array α) : Option (Image α) :=
  if h : cells.size = rows * cols then
    some ⟨Grid.ofFn fun p : Pixel rows cols =>
      have inside : p.index < cells.size := h ▸ p.index_lt
      cells[p.index]⟩
  else none

/-- The cells in raster order. -/
def toList (image : Image α) : List α := image.grid.toList

/-- The grid of an image, if it has so many rows and columns. -/
def sized? (rows cols : Nat) (image : Image α) : Option (Grid rows cols α) :=
  if h : image.rows = rows ∧ image.cols = cols then some (h.1 ▸ h.2 ▸ image.grid) else none

/-- The grid of the first rows and columns of an image, if it has so many. -/
def corner? (rows cols : Nat) (image : Image α) : Option (Grid rows cols α) :=
  if rows ≤ image.rows ∧ cols ≤ image.cols then
    let cells := (image.grid.toRows.take rows).flatMap fun row => row.take cols
    (ofCells? rows cols cells.toArray).bind fun part => part.sized? rows cols
  else none

end Image
end SkySources
