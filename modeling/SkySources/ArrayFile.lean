import SkySources.Element.Bytes
import SkySources.Element.Entry

/-!
# Files of plain data

A file of plain data opens with six fixed bytes, two bytes for the version of
the format, and a header of a given length. The header is a text that says how
the elements are kept, in which order, and in what shape. The elements follow.
-/

namespace SkySources.ArrayFile

/-- The bytes that every file opens with. -/
def magic : List UInt8 := [0x93, 0x4e, 0x55, 0x4d, 0x50, 0x59]

/-- What the header says. -/
structure Header where
  order : ByteOrder
  element : ElementType
  /-- Whether the first index runs fastest. -/
  firstFastest : Bool
  shape : List Nat
  deriving DecidableEq, Repr

namespace Header

/-- The text behind the first place where a word stands. -/
def after? (word : List Char) : List Char → Option (List Char)
  | [] => if word.isEmpty then some [] else none
  | c :: cs =>
    if word.isPrefixOf (c :: cs) then some ((c :: cs).drop word.length) else after? word cs

/-- The text behind an entry's name. -/
def field? (name : String) (cs : List Char) : Option (List Char) :=
  (after? ("'" ++ name ++ "':").toList cs).map fun rest => rest.dropWhile (· = ' ')

/-- The order and the type of elements of a code: a mark for the order, a letter
for the kind, and the count of bytes. -/
def elementOf? (code : List Char) : Option (ByteOrder × ElementType) :=
  match code with
  | mark :: code =>
    let order := if mark = '>' then ByteOrder.mostFirst else .leastFirst
    ((ElementType.ofCode? code).filter fun t => t.byteCount ≠ 0).map fun t => (order, t)
  | [] => none

/-- The shape in a text between round brackets. -/
def shapeOf? (cs : List Char) : Option (List Nat) :=
  match cs with
  | '(' :: rest =>
    let inside := String.ofList (rest.takeWhile (· ≠ ')'))
    let parts := ((inside.splitOn ",").map fun part => part.trimAscii.toString).filter (· ≠ "")
    parts.mapM String.toNat?
  | _ => none

/-- The header in a text. -/
def ofText? (cs : List Char) : Option Header := do
  let code ← match ← field? "descr" cs with
    | '\'' :: rest => some (rest.takeWhile (· ≠ '\''))
    | _ => none
  let (order, element) ← elementOf? code
  let firstFastest ← (field? "fortran_order" cs).map fun rest => decide (rest.head? = some 'T')
  let shape ← shapeOf? (← field? "shape" cs)
  return ⟨order, element, firstFastest, shape⟩

/-- The code of a type of elements that is written. -/
def codeOf : ElementType → String
  | .truth => "|b1"
  | .signed bits => "<i" ++ Decimal.digitsText (bits / 8)
  | .unsigned bits => "<u" ++ Decimal.digitsText (bits / 8)
  | .float 32 => "<f4"
  | _ => "<f8"

/-- The text of a header for elements that stand in order, the least significant
byte first. -/
def text (element : ElementType) (shape : List Nat) : String :=
  "\x7b'descr': '" ++ codeOf element ++ "', 'fortran_order': False, 'shape': "
    ++ Data.shapeText shape ++ ", \x7d"

end Header

/-- Where the elements of an array stand when the first index runs fastest, in
the order in which the last index does. The first index counts the given step. -/
def places : List Nat → Nat → List Nat
  | [], _ => [0]
  | n :: inner, step =>
    (List.range n).flatMap fun i => (places inner (step * n)).map fun place => place + i * step

/-- Data whose first index runs fastest, in the usual order. -/
def reordered (d : Data) : Data :=
  let cells := d.values.cells.toArray
  ⟨d.element, d.values.shape, (places d.values.shape 1).map fun n => cells.getD n .nothing⟩

/-- The data in the bytes of a file. -/
def read? (bytes : ByteArray) : Option Data := do
  let opening := (bytes.extract 0 12).toList
  if !magic.isPrefixOf opening then none
  let version ← opening[6]?
  let width := if version = 1 then 2 else 4
  let start := 8 + width
  let length := ByteOrder.leastFirst.natOf ((opening.drop 8).take width)
  let text := (bytes.extract start (start + length)).toList.map fun b => Char.ofNat b.toNat
  let header ← Header.ofText? text
  let data ← Data.ofBytes? header.order header.element header.shape bytes (start + length)
  return if header.firstFastest then reordered data else data

/-- The bytes of a file of data. The header is filled up with blanks and a line
feed so that the elements begin at a multiple of 64. -/
def write (d : Data) : ByteArray :=
  let element := d.element.written
  let header := (Header.text element d.values.shape).toUTF8.toList
  let fill := 63 - (header.length + 10) % 64
  let length := header.length + fill + 1
  let version : List UInt8 := [1, 0]
  let opening := magic ++ version ++ ByteOrder.leastFirst.encodeNat 2 length ++ header
    ++ List.replicate fill 0x20 ++ [0x0a]
  ⟨(opening ++ d.bytes .leastFirst).toArray⟩

end SkySources.ArrayFile
