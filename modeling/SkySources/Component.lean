import SkySources.Threshold

/-!
# Connected components

Two neighbouring pixels on the same side of the background are joined, and a
component is a set of pixels that are joined through each other. The two sides
are masks, and a labeller numbers the components of each mask in an order of its
own; the numbers below the background follow those above it. Components with a
detected pixel are then numbered anew, from one on, in the raster order of their
first pixels; every other pixel is numbered zero.

The labeller that is used finds the first pixel of each component, its leader,
by rounds: each pixel takes the least raster position that it and its neighbours
know of, until nothing changes. Information moves by at least one pixel a round,
so as many rounds as there are pixels suffice.
-/

namespace SkySources

/-- Which pixels are neighbours. -/
inductive Connectivity where
  /-- Pixels that share an edge. -/
  | edges
  /-- Pixels that share an edge or a corner. -/
  | corners
  deriving DecidableEq, Repr

namespace Connectivity

/-- The connectivity of a pixel with so many neighbours. -/
def ofCount? : Int → Option Connectivity
  | 4 => some edges
  | 8 => some corners
  | _ => none

/-- The steps in rows and columns from a pixel to its neighbours. -/
def steps : Connectivity → List (Int × Int)
  | edges => [(-1, 0), (0, -1), (0, 1), (1, 0)]
  | corners => [(-1, -1), (-1, 0), (-1, 1), (0, -1), (0, 1), (1, -1), (1, 0), (1, 1)]

/-- The neighbours of a pixel inside its grid. -/
def neighbours {rows cols : Nat} (c : Connectivity) (p : Pixel rows cols) :
    List (Pixel rows cols) :=
  c.steps.filterMap fun s => p.shift? s.1 s.2

end Connectivity

namespace Component
variable {rows cols : Nat}

/-- Pixels on one side of the background that neighbouring pixels of the same
side lead between. -/
inductive Joined (c : Connectivity) (signs : Grid rows cols Sign) :
    Pixel rows cols → Pixel rows cols → Prop where
  /-- A pixel off the background is joined to itself. -/
  | refl (p : Pixel rows cols) : signs.get p ≠ .background → Joined c signs p p
  /-- The way goes on to a neighbour of the same side. -/
  | step (p q r : Pixel rows cols) : Joined c signs p q → r ∈ c.neighbours q →
      signs.get r = signs.get q → Joined c signs p r

/-- The numbers of the pixels, and how many components are numbered. -/
structure Labelling (rows cols : Nat) where
  labels : Grid rows cols Nat
  count : Nat

/-- A way to number the components of a mask; pixels off the mask are zero. -/
abbrev Labeller (rows cols : Nat) := Grid rows cols Bool → Labelling rows cols

/-! ## A labeller -/

/-- The least raster position that a pixel and its neighbours in the mask know
of. A pixel off the mask keeps its own. -/
def least (c : Connectivity) (mask : Grid rows cols Bool) (known : Grid rows cols Nat)
    (p : Pixel rows cols) : Nat :=
  if mask.get p then ((c.neighbours p).filter mask.get).foldl
    (fun best q => min best (known.get q)) (known.get p)
  else known.get p

/-- One round of asking the neighbours. -/
def round (c : Connectivity) (mask : Grid rows cols Bool) (known : Grid rows cols Nat) :
    Grid rows cols Nat :=
  Grid.ofFn (least c mask known)

/-- Rounds until nothing changes, but at most so many. -/
def settle (c : Connectivity) (mask : Grid rows cols Bool) :
    Nat → Grid rows cols Nat → Grid rows cols Nat
  | 0, known => known
  | fuel + 1, known =>
    let next := round c mask known
    if next = known then known else settle c mask fuel next

/-- The raster position of the leader of every pixel. -/
def leaders (c : Connectivity) (mask : Grid rows cols Bool) : Grid rows cols Nat :=
  settle c mask (rows * cols) (Grid.ofFn Pixel.index)

/-- The components of a mask, numbered in the order of their leaders. -/
def search (c : Connectivity) : Labeller rows cols := fun mask =>
  let leader := leaders c mask
  let own (p : Pixel rows cols) := mask.get p && leader.get p == p.index
  let found := ((Pixel.raster rows cols).filter own).map Pixel.index
  { labels := Grid.ofFn fun p => if mask.get p then found.idxOf (leader.get p) + 1 else 0
    count := found.length }

/-! ## From the numbers of both sides to labels -/

/-- The pixels on one side. -/
def side (s : Sign) (signs : Grid rows cols Sign) : Grid rows cols Bool :=
  signs.map fun t => decide (t = s)

/-- The numbers of both sides, those below the background after those above it. -/
def bothSides (above below : Labelling rows cols) : Grid rows cols Nat :=
  Grid.ofFn fun p =>
    if 0 < below.labels.get p then below.labels.get p + above.count else above.labels.get p

/-- The numbers of detected pixels. -/
def found (numbers : Grid rows cols Nat) (detected : Grid rows cols Bool) : List Nat :=
  ((detected.pixelsWhere id).map numbers.get).filter (0 < ·)

/-- The numbers of the components with a detected pixel, and zero elsewhere. -/
def keep (numbers : Grid rows cols Nat) (detected : Grid rows cols Bool) : Grid rows cols Nat :=
  let found := found numbers detected
  numbers.map fun k => if k ∈ found then k else 0

/-- The numbers in use, none of them above `most`, each with the place where it
is met first. -/
def firsts (most : Nat) (cells : List Nat) : List (Nat × Nat) :=
  ((List.range (most + 1)).filter fun k => decide (0 < k ∧ k ∈ cells)).map fun k =>
    (k, cells.idxOf k)

/-- The numbers in use, in the order in which they are met. -/
def order (most : Nat) (cells : List Nat) : List Nat :=
  ((firsts most cells).mergeSort fun a b => decide (a.2 ≤ b.2)).map (·.1)

/-- The place of a number in an order, counted from one; zero stays zero. -/
def place (order : List Nat) (k : Nat) : Nat := if k = 0 then 0 else order.idxOf k + 1

/-- The components with a detected pixel, numbered with the help of a labeller. -/
def labelBy (labeller : Labeller rows cols) (signs : Grid rows cols Sign)
    (detected : Grid rows cols Bool) : Labelling rows cols :=
  let above := labeller (side .above signs)
  let below := labeller (side .below signs)
  let kept := keep (bothSides above below) detected
  let order := order (above.count + below.count) kept.toList
  { labels := kept.map (place order), count := order.length }

/-- The components with a detected pixel, numbered. -/
def label (c : Connectivity) (signs : Grid rows cols Sign) (detected : Grid rows cols Bool) :
    Labelling rows cols :=
  labelBy (search c) signs detected

end Component
end SkySources
