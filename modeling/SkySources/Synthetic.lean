import SkySources.Gaussian.Fault
import SkySources.Nested

/-!
# Synthetic images

An image made of a constant background, Gaussian sources added one after the
other, and rectangles that are set to a value or raised by one. Sources need
two dimensions; a background can have any shape.
-/

namespace SkySources.Synthetic
variable {α : Type} [Scalar α]

/-- A rectangle of rows and columns, the ends left out, with a value. -/
structure Patch (α : Type) where
  (firstRow endRow firstCol endCol : Int)
  value : α

namespace Patch

/-- The index of an end of a rectangle; a negative one counts from behind. -/
def place (length : Nat) (index : Int) : Int := if index < 0 then index + length else index

/-- Whether an index lies between two ends. -/
def isBetween (length : Nat) (first stop : Int) (index : Nat) : Bool :=
  decide (place length first ≤ index) && decide ((index : Int) < place length stop)

/-- Whether a pixel lies in the rectangle. -/
def holds {rows cols : Nat} (patch : Patch α) (p : Pixel rows cols) : Bool :=
  isBetween rows patch.firstRow patch.endRow p.row.val
    && isBetween cols patch.firstCol patch.endCol p.col.val

/-- A grid with the rectangle set to its value. -/
def set {rows cols : Nat} (patch : Patch α) (g : Grid rows cols α) : Grid rows cols α :=
  Grid.ofFn fun p => if patch.holds p then patch.value else g.get p

/-- A grid with the rectangle raised by its value. -/
def raise {rows cols : Nat} (patch : Patch α) (g : Grid rows cols α) : Grid rows cols α :=
  Grid.ofFn fun p => if patch.holds p then g.get p + patch.value else g.get p

end Patch

/-- What an image is made of. -/
structure Recipe (α : Type) where
  shape : List Int
  background : α
  sources : List (Gaussian α)
  patchesSet : List (Patch α)
  patchesRaised : List (Patch α)

/-- Why there is no image. -/
inductive Fault where
  /-- A length of the shape is negative, there are not two of them, or the cells
  are too many to be counted. -/
  | shape
  /-- The cells are too many to be kept. -/
  | size
  /-- A rectangle needs two dimensions. -/
  | dimensions
  /-- A source cannot be evaluated. -/
  | source (fault : Gaussian.Fault)
  deriving DecidableEq, Repr

/-- The number of doubles that no word can count the bytes of. -/
def countLimit : Nat := Nat.pow 2 60

/-- The number of doubles that are too many to be kept. -/
def sizeLimit : Nat := Nat.pow 2 33

/-- The lengths of a shape, none of which may be negative or too large. -/
def lengths (shape : List Int) : Except Fault (List Nat) :=
  let lengths := shape.map Int.toNat
  let size := (lengths.filter (· ≠ 0)).foldl (· * ·) 1
  if shape.any (· < 0) || size ≥ countLimit then .error .shape
  else if size ≥ sizeLimit then .error .size
  else .ok lengths

/-- A grid with a source added. -/
def addSource {rows cols : Nat} (g : Grid rows cols α) (source : Gaussian α) :
    Except Gaussian.Fault (Grid rows cols α) := do
  let bump ← source.onGrid? rows cols
  return Grid.ofFn fun p => g.get p + bump.get p

/-- A background with sources on it. -/
def withSources (rows cols : Nat) (background : α) (sources : List (Gaussian α)) :
    Except Gaussian.Fault (Grid rows cols α) :=
  sources.foldlM addSource (Grid.ofFn fun _ => background)

/-- The Gaussian of the given parameters in a shape of two lengths. -/
def modelGrid? (shape : List Int) (g : Gaussian α) : Except Fault (Image α) :=
  match lengths shape with
  | .ok [rows, cols] =>
    match g.onGrid? rows cols with
    | .ok grid => .ok ⟨grid⟩
    | .error fault => .error (.source fault)
  | .ok _ => .error .shape
  | .error fault => .error fault

namespace Recipe

/-- The image of a recipe. -/
def build (r : Recipe α) : Except Fault (Shaped α) :=
  match lengths r.shape with
  | .error fault => .error fault
  | .ok [rows, cols] =>
    match withSources rows cols r.background r.sources with
    | .error fault => .error (.source fault)
    | .ok grid =>
      let grid := r.patchesSet.foldl (fun g patch => patch.set g) grid
      .ok (Image.mk (r.patchesRaised.foldl (fun g patch => patch.raise g) grid)).shaped
  | .ok lengths =>
    if !r.sources.isEmpty then .error .shape
    else if !(r.patchesSet.isEmpty && r.patchesRaised.isEmpty) then .error .dimensions
    else .ok ⟨lengths, List.replicate (lengths.foldl (· * ·) 1) r.background⟩

end Recipe

/-- A source as it is asked for: what is left out has a default, and the axes
are equal unless the minor one is given. -/
structure Request (α : Type) where
  (amplitude x y : α)
  (semimajor semiminor theta : Option α)

/-- The source of a request. -/
def Request.source (r : Request α) : Gaussian α :=
  let major := r.semimajor.getD 1.5
  ⟨r.amplitude, r.x, r.y, major, r.semiminor.getD major, r.theta.getD 0.0⟩

end SkySources.Synthetic
