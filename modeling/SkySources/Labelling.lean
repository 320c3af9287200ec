import SkySources.Component
import SkySources.Island
import SkySources.Value.Text

/-!
# From marks to islands

The marked pixels of an image are grouped into components, and each component
with a detected pixel becomes an island. Marks can be given as any numbers, of
which the sign tells the side and the size weighs the values. A number of
neighbours other than four and eight is refused.
-/

namespace SkySources

/-- The islands of an image, in the order of their labels, and the label of
each pixel. -/
structure IslandMap (rows cols : Nat) (α : Type) where
  islands : List (Island α)
  labels : Grid rows cols Nat

namespace IslandMap
variable {α : Type} {rows cols : Nat}

/-- Why there are no islands. -/
inductive Fault where
  /-- The number of neighbours is neither four nor eight. -/
  | connectivity (neighbours : Value)
  /-- The bounds of an island are inverted. -/
  | inverted (box : InvertedBox)

/-- The text of a fault. -/
def Fault.message : Fault → String
  | connectivity neighbours => "connectivity must be 4 or 8, not " ++ neighbours.plain
  | inverted box => box.message

/-- The connectivity for a number of neighbours. -/
def connectivity : Value → Except Fault Connectivity
  | .whole n =>
    match Connectivity.ofCount? n with
    | some c => .ok c
    | none => .error (.connectivity (.whole n))
  | .float x =>
    if x == 4.0 then .ok .edges else if x == 8.0 then .ok .corners
    else .error (.connectivity (.float x))
  | v => .error (.connectivity v)

variable [Scalar α]

/-- The islands of a labelling. -/
def ofLabelling (data : Grid rows cols α) (signs : Grid rows cols Int) (background : α)
    (barycentre : Bool) (l : Component.Labelling rows cols) :
    Except InvertedBox (IslandMap rows cols α) := do
  let censuses := Census.ofLabels data signs l.labels l.count background
  let islands ← censuses.zipIdx.mapM fun ck => ck.1.island (Int.ofNat ck.2 + 1) barycentre
  return ⟨islands, l.labels⟩

/-- The islands of pixels whose signs are given as numbers. -/
def ofSigns (c : Connectivity) (data : Grid rows cols α) (signs : Grid rows cols Int)
    (detected : Grid rows cols Bool) (background : α) (barycentre : Bool) :
    Except InvertedBox (IslandMap rows cols α) :=
  ofLabelling data signs background barycentre
    (Component.label c (signs.map Sign.ofInt) detected)

/-- The islands of marked pixels. -/
def ofMarks (c : Connectivity) (data : Grid rows cols α) (marks : Grid rows cols Mark)
    (background : α) (barycentre : Bool) : Except InvertedBox (IslandMap rows cols α) :=
  ofSigns c data (marks.map fun m => m.sign.toInt) (marks.map (·.detected)) background barycentre

/-- The label map without the labels that no island has. -/
def onlyLabels (islands : List (Island α)) (labels : Grid rows cols Nat) : Grid rows cols Nat :=
  labels.map fun k => if islands.any fun island => island.label = Int.ofNat k then k else 0

end IslandMap
end SkySources
