import SkySources.Grid

/-!
# Nested lists and shaped data

Data come as lists of lists, to any depth. A nested list is regular if the
lists at each depth are equally long; its cells and its shape, the length at
each depth, are then everything there is to it.
-/

namespace SkySources

/-- A cell, or a list of nested lists. -/
inductive Nested (α : Type) where
  | cell (value : α)
  | list (items : List (Nested α))

/-- Cells in order, with the lengths at each depth. -/
structure Shaped (α : Type) where
  shape : List Nat
  cells : List α

/-- The longest list that two lists begin with. -/
def commonStart : List Nat → List Nat → List Nat
  | m :: ms, n :: ns => if m = n then m :: commonStart ms ns else []
  | _, _ => []

namespace Nested
variable {α β : Type}

mutual

/-- The cells from first to last. -/
def cells : Nested α → List α
  | cell a => [a]
  | list items => cellsOf items

/-- The cells of several nested lists. -/
def cellsOf : List (Nested α) → List α
  | [] => []
  | item :: rest => cells item ++ cellsOf rest

end

mutual

/-- The lengths at each depth; `none` if two lists of one depth differ. -/
def shape? : Nested α → Option (List Nat)
  | cell _ => some []
  | list [] => some [0]
  | list (first :: rest) =>
    match shape? first with
    | some inner => if alike inner rest then some ((rest.length + 1) :: inner) else none
    | none => none

/-- Whether nested lists all have the given shape. -/
def alike (shape : List Nat) : List (Nested α) → Bool
  | [] => true
  | item :: rest => shape? item == some shape && alike shape rest

end

mutual

/-- A function applied to every cell. -/
def map (f : α → β) : Nested α → Nested β
  | cell a => cell (f a)
  | list items => list (mapAll f items)

/-- A function applied to every cell of several nested lists. -/
def mapAll (f : α → β) : List (Nested α) → List (Nested β)
  | [] => []
  | item :: rest => map f item :: mapAll f rest

end

mutual

/-- The lengths at the outermost depths, as far as all lists of a depth agree. -/
def commonShape : Nested α → List Nat
  | cell _ => []
  | list items => items.length :: sharedShape items

/-- The lengths that several nested lists have in common. -/
def sharedShape : List (Nested α) → List Nat
  | [] => []
  | [item] => commonShape item
  | item :: rest => commonStart (commonShape item) (sharedShape rest)

end

/-- The greatest number of depths that shaped data have. -/
def depthLimit : Nat := 64

/-- The shaped data of a regular nested list, unless it is too deep. -/
def shaped? (n : Nested α) : Option (Shaped α) :=
  match n.shape? with
  | some shape => if shape.length ≤ depthLimit then some ⟨shape, n.cells⟩ else none
  | none => none

end Nested

namespace Shaped
variable {α β : Type}

/-- A function applied to every cell. -/
def map (f : α → β) (s : Shaped α) : Shaped β := ⟨s.shape, s.cells.map f⟩

/-- A list cut into a number of parts of equal length. -/
def parts (length : Nat) : Nat → List α → List (List α)
  | 0, _ => []
  | n + 1, xs => xs.take length :: parts length n (xs.drop length)

/-- The nested list of some cells in a shape. -/
def nest : List Nat → List α → Nested α
  | [], a :: _ => .cell a
  | [], [] => .list []
  | n :: inner, xs => .list ((parts (inner.foldl (· * ·) 1) n xs).map (nest inner))

/-- The nested list of shaped data. -/
def toNested (s : Shaped α) : Nested α := nest s.shape s.cells

/-- The image, if the data have two depths. -/
def image? (s : Shaped α) : Option (Image α) :=
  match s.shape with
  | [rows, cols] => Image.ofCells? rows cols s.cells.toArray
  | _ => none

/-- The data without the depths of length one. -/
def squeezed (s : Shaped α) : Shaped α := ⟨s.shape.filter (· ≠ 1), s.cells⟩

/-- The first of the entries that the outermost depth holds; the data as they
are if there is none. -/
def first (s : Shaped α) : Shaped α :=
  match s.shape with
  | _ :: inner => ⟨inner, s.cells.take (inner.foldl (· * ·) 1)⟩
  | [] => s

end Shaped

namespace Image
variable {α : Type}

/-- The shaped data of an image. -/
def shaped (image : Image α) : Shaped α := ⟨[image.rows, image.cols], image.toList⟩

end Image
end SkySources
