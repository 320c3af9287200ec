import SkySources.Cell
import SkySources.Decimal.Text

/-!
# Types of elements

Data hold elements of one type: truth values, whole numbers of a width, floats,
complex numbers, text of a width, or anything at all. The type of data that are
given cell by cell is the least one that holds every cell. A whole number is
signed with 64 bits, or unsigned if it only fits so, and of no numeric type if
it does not fit either way.
-/

namespace SkySources

/-- The type of the elements of data. -/
inductive ElementType where
  | truth
  | signed (bits : Nat)
  | unsigned (bits : Nat)
  | float (bits : Nat)
  | complex (bits : Nat)
  | text (width : Nat)
  | anything
  deriving DecidableEq, Repr

namespace ElementType

/-- The name of a type. -/
def name : ElementType → String
  | truth => "bool"
  | signed bits => "int" ++ Decimal.digitsText bits
  | unsigned bits => "uint" ++ Decimal.digitsText bits
  | float bits => "float" ++ Decimal.digitsText bits
  | complex bits => "complex" ++ Decimal.digitsText bits
  | text width => "<U" ++ Decimal.digitsText width
  | anything => "object"

/-- The types of a fixed width. -/
def fixedWidth : List ElementType :=
  [truth, signed 8, signed 16, signed 32, signed 64, unsigned 8, unsigned 16, unsigned 32,
    unsigned 64, float 16, float 32, float 64, complex 64, complex 128, anything]

/-- Whether elements of the type are numbers. -/
def isNumeric : ElementType → Bool
  | signed _ | unsigned _ | float _ | complex _ => true
  | _ => false

/-- The least type of a cell. -/
def ofCell : Cell → ElementType
  | .truth _ => truth
  | .whole n =>
    if -(Nat.pow 2 63) ≤ n ∧ n < Nat.pow 2 63 then signed 64
    else if 0 ≤ n ∧ n < Nat.pow 2 64 then unsigned 64
    else anything
  | .float _ => float 64
  | .text s => text (max 1 s.length)
  | .nothing => anything

/-- How wide the text of an element can be. -/
def textWidth : ElementType → Nat
  | truth => 5
  | signed _ => 21
  | unsigned _ => 20
  | float _ => 32
  | complex _ => 64
  | text width => width
  | anything => 0

/-- The least type that holds the elements of two types of cells. -/
def join : ElementType → ElementType → ElementType
  | anything, _ | _, anything => anything
  | text m, t => text (max m t.textWidth)
  | t, text m => text (max m t.textWidth)
  | truth, t | t, truth => t
  | signed m, signed n => signed (max m n)
  | unsigned m, unsigned n => unsigned (max m n)
  | _, _ => float 64

/-- The least type that holds every cell; floats if there is none. -/
def ofCells : List Cell → ElementType
  | [] => float 64
  | c :: cs => cs.foldl (fun t c => t.join (ofCell c)) (ofCell c)

/-- The whole number of so many bits that agrees with a number in them. -/
def wrapSigned (bits : Nat) (n : Int) : Int := Int.bmod n (Nat.pow 2 bits)

/-- The natural number of so many bits that agrees with a number in them. -/
def wrapUnsigned (bits : Nat) (n : Int) : Int := Int.emod n (Nat.pow 2 bits)

/-- The whole number that a word of so many bits takes from a float: the whole
part, and the least number of the word where that does not fit. -/
def wordOf (bits : Nat) (x : Float) : Int :=
  let least : Int := -(Nat.pow 2 (bits - 1))
  let n := Binary.truncate x
  if x.isFinite && decide (least ≤ n ∧ n < -least) then n else least

/-- The whole number that a wide unsigned word takes from a float: the upper half
of its numbers is reached from the middle. -/
def wideWordOf (x : Float) : Int :=
  let middle : Float := 9223372036854775808.0
  if middle ≤ x then wordOf 64 (x - middle) + Nat.pow 2 63 else wordOf 64 x

/-- The whole number of a cell for a type of so many bits. A float is first taken
into a word of 32 bits, or of 64 bits if the type has more numbers. -/
def wholeOf (t : ElementType) : Cell → Int
  | .truth b => if b then 1 else 0
  | .whole n => n
  | .float x =>
    match t with
    | unsigned 64 => wideWordOf x
    | signed 64 | unsigned 32 => wordOf 64 x
    | _ => wordOf 32 x
  | _ => 0

/-- The float of a cell. -/
def floatOf (c : Cell) : Float := c.double?.getD Scalar.missing

/-- A cell as an element of a type. -/
def convert (t : ElementType) (c : Cell) : Cell :=
  match t with
  | truth => .truth (floatOf c != 0.0)
  | signed bits => .whole (wrapSigned bits (t.wholeOf c))
  | unsigned bits => .whole (wrapUnsigned bits (t.wholeOf c))
  | float 16 => .float (Binary.half (floatOf c))
  | float 32 => .float (floatOf c).toFloat32.toFloat
  | float _ | complex _ => .float (floatOf c)
  | text _ | anything => c

end ElementType

/-- Shaped data of one type of elements. -/
structure Data where
  element : ElementType
  values : Shaped Cell

namespace Data

/-- The data of nested cells; none if they are ragged. -/
def ofNested? (cells : Nested Cell) : Option Data :=
  cells.shaped?.map fun shaped => ⟨ElementType.ofCells shaped.cells, shaped⟩

/-- The data of doubles. -/
def ofDoubles (values : Shaped Float) : Data := ⟨.float 64, values.map .float⟩

/-- The data with every element of another type. A text without a width is as wide
as elements of the type can need. -/
def converted (t : ElementType) (d : Data) : Data :=
  let t := if t = .text 0 then .text d.element.textWidth else t
  ⟨t, d.values.map t.convert⟩

/-- The elements as doubles. -/
def doubles (d : Data) : Shaped Float := d.values.map ElementType.floatOf

/-- The text of a shape. -/
def shapeText (shape : List Nat) : String :=
  match shape with
  | [n] => "(" ++ Decimal.digitsText n ++ ",)"
  | ns => "(" ++ ", ".intercalate (ns.map Decimal.digitsText) ++ ")"

/-- Why data are no image. -/
inductive Fault where
  /-- There are not two dimensions, or nothing in them. -/
  | shape (lengths : List Nat)
  /-- The elements are no numbers. -/
  | element (type : ElementType)
  deriving DecidableEq, Repr

/-- The text of a fault. -/
def Fault.message : Fault → String
  | .shape lengths => "Expected a non-empty 2D image, got shape " ++ shapeText lengths
  | .element t => "Image data of type " ++ t.name ++ " is not numeric"

/-- The image that data are. -/
def image? (d : Data) : Except Fault (Image Float) :=
  match d.doubles.image? with
  | none => .error (.shape d.values.shape)
  | some image =>
    if image.rows * image.cols = 0 then .error (.shape d.values.shape)
    else if !d.element.isNumeric then .error (.element d.element)
    else .ok image

end Data
end SkySources
