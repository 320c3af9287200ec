import SkySources.Element
import SkySources.Text.Number
import SkySources.Value.Text

/-!
# Cells entered as elements

Cells that are given one by one can be entered as elements of a type that is
wished for. Texts are then read as numbers, and nothing is a missing number.
Unlike a conversion of elements, an entry refuses a number that is out of range.
-/

namespace SkySources

/-- Why cells cannot be entered. -/
inductive EntryFault where
  /-- The lists of one depth are not equally long. -/
  | ragged
  /-- A text is no number, or a missing number is no whole one. -/
  | unreadable
  /-- A number is out of range. -/
  | outOfRange
  /-- There is nothing where a whole number is needed. -/
  | absent
  deriving DecidableEq, Repr

namespace Cell

/-- The double that a cell is entered as. -/
def asDouble : Cell → Except EntryFault Float
  | truth b => .ok (if b then 1.0 else 0.0)
  | float x => .ok x
  | nothing => .ok Scalar.missing
  | whole n => if (Float.ofInt n).isFinite then .ok (Float.ofInt n) else .error .outOfRange
  | text s =>
    match Text.float? s with
    | some x => .ok x
    | none => .error .unreadable

/-- The whole number of a cell that was not given as one: floats are cut toward
zero. -/
def cutWhole : Cell → Except EntryFault Int
  | truth b => .ok (if b then 1 else 0)
  | whole n => .ok n
  | nothing => .error .absent
  | text s =>
    match Text.whole? s with
    | some n => .ok n
    | none => .error .unreadable
  | float x =>
    if x.isFinite then .ok (Binary.truncate x)
    else .error (if x == x then .outOfRange else .unreadable)

/-- Whether a cell counts as true: anything but zero, an empty text and nothing. -/
def isTrue : Cell → Bool
  | truth b => b
  | whole n => n != 0
  | float x => x != 0.0
  | text s => s != ""
  | nothing => false

/-- The text of a cell. -/
def written : Cell → String
  | truth b => Value.truthText b
  | whole n => Decimal.integerText n
  | float x => Decimal.shortestText x
  | text s => s
  | nothing => "None"

end Cell

namespace ElementType

/-- Whether a whole number is one of a type. -/
def holds (t : ElementType) (n : Int) : Bool :=
  match t with
  | signed bits => decide (-(Nat.pow 2 (bits - 1)) ≤ n ∧ n < Nat.pow 2 (bits - 1))
  | unsigned bits => decide (0 ≤ n ∧ n < Nat.pow 2 bits)
  | _ => true

/-- Whether a word that numbers of a type are taken from can hold a number; words
for the wide unsigned types reach further up. -/
def isInWord (t : ElementType) (n : Int) : Bool :=
  (signed 64).holds n || ((t = unsigned 32 || t = unsigned 64) && (unsigned 64).holds n)

/-- The whole number of a cell for a type. One that is given as such has to be a
number of the type; any other only has to fit into a word. -/
def wholeEntry (t : ElementType) (c : Cell) : Except EntryFault Int := do
  let n ← c.cutWhole
  let fits := match c with
    | .truth _ | .whole _ => t.holds n
    | _ => t.isInWord n
  if fits then return n else .error .outOfRange

/-- A cell as an element of a type. -/
def entry (t : ElementType) (c : Cell) : Except EntryFault Cell :=
  match t with
  | truth => .ok (.truth c.isTrue)
  | signed _ | unsigned _ => (t.wholeEntry c).map fun n => t.convert (.whole n)
  | float _ | complex _ => c.asDouble.map fun x => t.convert (.float x)
  | text width => .ok (.text (String.ofList (c.written.toList.take width)))
  | anything => .ok c

/-- The type for some cells: a text without a width is as wide as they need. -/
def fitted (t : ElementType) (cells : List Cell) : ElementType :=
  if t = text 0 then text ((cells.map fun c => c.written.length).foldl max 1) else t

/-- Other names of types. -/
def otherNames : List (String × ElementType) :=
  [("bool_", truth), ("byte", signed 8), ("short", signed 16), ("intc", signed 32),
    ("int", signed 64), ("long", signed 64), ("longlong", signed 64), ("intp", signed 64),
    ("ubyte", unsigned 8), ("ushort", unsigned 16), ("uintc", unsigned 32), ("uint", unsigned 64),
    ("ulong", unsigned 64), ("ulonglong", unsigned 64), ("uintp", unsigned 64),
    ("half", float 16), ("single", float 32), ("double", float 64), ("float", float 64),
    ("csingle", complex 64), ("cdouble", complex 128), ("complex", complex 128), ("str", text 0),
    ("str_", text 0), ("object_", anything), ("?", truth), ("b", signed 8), ("h", signed 16),
    ("i", signed 32), ("l", signed 64), ("q", signed 64), ("B", unsigned 8), ("H", unsigned 16),
    ("I", unsigned 32), ("L", unsigned 64), ("Q", unsigned 64), ("e", float 16), ("f", float 32),
    ("d", float 64), ("F", complex 64), ("D", complex 128), ("O", anything), ("U", text 0)]

/-- The code of a type: a letter for the kind, and the count of bytes or, of a
text, of characters. -/
def ofCode? : List Char → Option ElementType
  | kind :: digits =>
    (String.ofList digits).toNat?.bind fun count =>
      let t := match kind with
        | 'b' => if count = 1 then some truth else none
        | 'i' => some (signed (8 * count))
        | 'u' => some (unsigned (8 * count))
        | 'f' => some (float (8 * count))
        | 'c' => some (complex (8 * count))
        | 'U' => some (text count)
        | _ => none
      t.filter fun t => fixedWidth.contains t || kind = 'U'
  | [] => none

/-- The type of a name or a code, which a mark for the order of bytes may precede. -/
def ofName? (name : String) : Option ElementType :=
  let named := (fixedWidth.find? fun t => t.name = name).orElse fun _ => otherNames.lookup name
  named.orElse fun _ =>
    match name.toList with
    | mark :: code => ofCode? (if ['<', '>', '=', '|'].contains mark then code else mark :: code)
    | [] => none

end ElementType

namespace Data

/-- The data of nested cells as elements of a type. Where anything is an element,
lists that do not agree are elements themselves, of which nothing is kept. -/
def entered (t : ElementType) (cells : Nested Cell) : Except EntryFault Data :=
  match cells.shaped? with
  | some shaped => do
    let t := t.fitted shaped.cells
    return ⟨t, shaped.shape, ← shaped.cells.mapM t.entry⟩
  | none =>
    if t = .anything then
      let shape := cells.commonShape.take Nested.depthLimit
      .ok ⟨t, shape, List.replicate (shape.foldl (· * ·) 1) .nothing⟩
    else .error .ragged

end Data
end SkySources
