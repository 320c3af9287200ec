import SkySources.Element.Bytes
import SkySources.Text.Number

/-!
# Files of astronomical images

A file of an astronomical image is cut into blocks of 2880 bytes. The first
blocks hold a header of cards, eighty characters each: a name, an equals sign
and a value. The elements begin with the next block, the most significant byte
first and the first axis fastest. A header may say by which factor and offset the
elements are to be scaled, and which whole number stands for a missing one. Whole
numbers that are kept are shifted, where that is needed, to fit the few kinds of
elements that there are.
-/

namespace SkySources.AstronomicalFile

/-- The length of a card. -/
def cardLength : Nat := 80

/-- The length of a block. -/
def blockLength : Nat := 2880

/-- The text of a card by its number. -/
def card (bytes : ByteArray) (n : Nat) : List Char :=
  (bytes.extract (n * cardLength) ((n + 1) * cardLength)).toList.map fun b => Char.ofNat b.toNat

/-- The cards from a number on, up to the closing one. The fuel bounds the count
of cards. -/
def cardsFrom (bytes : ByteArray) : Nat → Nat → Option (List (List Char))
  | 0, _ => none
  | fuel + 1, n =>
    let c := card bytes n
    if c.length < cardLength then none
    else if String.ofList (c.take 8) = "END     " then some []
    else (cardsFrom bytes fuel (n + 1)).map fun cs => c :: cs

/-- A header. -/
structure Header where
  cards : List (List Char)

namespace Header

/-- The header of a file. -/
def ofBytes? (bytes : ByteArray) : Option Header :=
  (cardsFrom bytes (bytes.size / cardLength + 1) 0).map Header.mk

/-- The text of the value of a name, without a remark. -/
def value? (h : Header) (name : String) : Option String :=
  let named (c : List Char) : Bool :=
    Text.trimmed (c.take 8) = name.toList && (c.drop 8).head? = some '='
  (h.cards.find? named).map fun c =>
    String.ofList (Text.trimmed ((c.drop 10).takeWhile (· ≠ '/')))

/-- The whole number of a name. -/
def whole? (h : Header) (name : String) : Option Int := (h.value? name).bind Text.whole?

/-- The float of a name, whose exponent may be marked by a letter of its own. -/
def float? (h : Header) (name : String) : Option Float :=
  (h.value? name).bind fun text => Text.float? (text.map fun c => if c = 'D' then 'E' else c)

/-- The type of the elements. -/
def element? (h : Header) : Option ElementType :=
  match h.whole? "BITPIX" with
  | some 8 => some (.unsigned 8)
  | some 16 => some (.signed 16)
  | some 32 => some (.signed 32)
  | some 64 => some (.signed 64)
  | some (-32) => some (.float 32)
  | some (-64) => some (.float 64)
  | _ => none

/-- The shape, with the fastest axis last. An axis without a length has none. -/
def shape (h : Header) : List Nat :=
  let axis (n : Nat) := (h.whole? ("NAXIS" ++ Decimal.digitsText (n + 1))).getD 0
  (List.range ((h.whole? "NAXIS").getD 0).toNat).reverse.map fun n => (axis n).toNat

/-- Where the elements begin: at the first block behind the header. -/
def dataStart (h : Header) : Nat :=
  let length := (h.cards.length + 1) * cardLength
  (length + blockLength - 1) / blockLength * blockLength

end Header

/-- How elements are scaled. -/
structure Scaling where
  factor : Float
  offset : Float
  blank : Option Int

namespace Scaling

/-- The scaling that a header asks for. -/
def ofHeader (h : Header) : Scaling :=
  ⟨(h.float? "BSCALE").getD 1.0, (h.float? "BZERO").getD 0.0, h.whole? "BLANK"⟩

/-- Whether elements stay as they are. -/
def isTrivial (s : Scaling) : Bool := s.factor == 1.0 && s.offset == 0.0 && s.blank.isNone

/-- Whether the offset does nothing but make numbers of so many bits natural. -/
def makesNatural (s : Scaling) (bits : Nat) : Bool :=
  s.factor == 1.0 && s.blank.isNone && s.offset == Float.ofNat (Nat.pow 2 (bits - 1))

/-- A double, scaled. -/
def double (s : Scaling) (x : Float) : Float :=
  let product := if s.factor == 1.0 then x else x * s.factor
  if s.offset == 0.0 then product else product + s.offset

/-- A float of single precision, scaled. -/
def single (s : Scaling) (x : Float32) : Float32 :=
  let product := if s.factor == 1.0 then x else x * s.factor.toFloat32
  if s.offset == 0.0 then product else product + s.offset.toFloat32

/-- Whether a cell is the number that stands for a missing one. -/
def isBlank (s : Scaling) : Cell → Bool
  | .whole n => s.blank == some n
  | _ => false

/-- A cell as a float of single or double precision, scaled. -/
def cell (s : Scaling) (inSingle : Bool) (c : Cell) : Cell :=
  let x := ElementType.floatOf c
  if s.isBlank c then .float Scalar.missing
  else if inSingle then .float (s.single x.toFloat32).toFloat
  else .float (s.double x)

/-- Data, scaled. Numbers of few bits become floats of single precision. -/
def apply (s : Scaling) (d : Data) : Data :=
  if s.isTrivial then d
  else
    match d.element with
    | .signed bits =>
      if s.makesNatural bits then
        let shifted (c : Cell) : Cell := .whole (d.element.wholeOf c + Nat.pow 2 (bits - 1))
        ⟨.unsigned bits, d.values.map shifted⟩
      else if bits ≤ 16 then ⟨.float 32, d.values.map (s.cell true)⟩
      else ⟨.float 64, d.values.map (s.cell false)⟩
    | .float 64 => ⟨.float 64, d.values.map (s.cell false)⟩
    | _ => ⟨.float 32, d.values.map (s.cell true)⟩

end Scaling

/-- Why a file holds no data. -/
inductive Fault where
  /-- The file is none of an astronomical image. -/
  | format
  /-- The header does not know the type of the elements. -/
  | element
  /-- There are no axes. -/
  | noAxes
  /-- There are fewer elements than the header says. -/
  | tooShort
  deriving DecidableEq, Repr

/-- Whether a file opens with the card that says that it keeps to the rules; none
if there is no such card. -/
def keepsRules? (bytes : ByteArray) : Option Bool :=
  match (Header.mk [card bytes 0]).value? "SIMPLE" with
  | some "T" => some true
  | some "F" => some false
  | _ => none

/-- The data behind a header. -/
def dataBehind (header : Header) (bytes : ByteArray) : Except Fault Data :=
  match header.element? with
  | none => .error .element
  | some element =>
    if header.shape.isEmpty then .error .noAxes
    else
      match Data.ofBytes? .mostFirst element header.shape bytes header.dataStart with
      | none => .error .tooShort
      | some data => .ok ((Scaling.ofHeader header).apply data)

/-- The data in the bytes of a file. The header has to fill whole blocks, and a
file that does not keep to the rules has no axes that are known. -/
def read (bytes : ByteArray) : Except Fault Data :=
  match Header.ofBytes? bytes, keepsRules? bytes with
  | some header, some isRegular =>
    if bytes.size < header.dataStart then .error .format
    else if isRegular then dataBehind header bytes
    else .error .noAxes
  | _, _ => .error .format

/-- How elements of a type are kept: the code of the kind and the offset that is
taken off each of them. -/
structure Storage where
  code : Int
  offset : Int
  deriving DecidableEq, Repr

namespace Storage

/-- The storage of a type of elements, if there is one. -/
def ofElement? : ElementType → Option Storage
  | .unsigned 8 => some ⟨8, 0⟩
  | .signed 8 => some ⟨8, -128⟩
  | .signed bits => some ⟨Int.ofNat bits, 0⟩
  | .unsigned bits => some ⟨Int.ofNat bits, Nat.pow 2 (bits - 1)⟩
  | .float 32 => some ⟨-32, 0⟩
  | .float 64 => some ⟨-64, 0⟩
  | _ => none

/-- The bytes of an element. -/
def bytesOf (s : Storage) (t : ElementType) (c : Cell) : List UInt8 :=
  match t with
  | .signed _ | .unsigned _ => ByteOrder.mostFirst.encodeInt t.byteCount (t.wholeOf c - s.offset)
  | _ => t.write .mostFirst c

end Storage

/-- The text of a card for a value. -/
def cardText (name value : String) : List Char :=
  let start := name.toList ++ List.replicate (8 - name.length) ' ' ++ ['=', ' ']
    ++ List.replicate (20 - value.length) ' ' ++ value.toList
  start ++ List.replicate (cardLength - start.length) ' '

/-- The cards of the header of data that are kept in some way. -/
def cardsOf (s : Storage) (shape : List Nat) : List (List Char) :=
  let axes := shape.reverse.zipIdx.map fun (length, n) =>
    cardText ("NAXIS" ++ Decimal.digitsText (n + 1)) (Decimal.digitsText length)
  let offset := if s.offset = 0 then [] else [cardText "BZERO" (Decimal.integerText s.offset)]
  [cardText "SIMPLE" "T", cardText "BITPIX" (Decimal.integerText s.code),
    cardText "NAXIS" (Decimal.digitsText shape.length)] ++ axes ++ offset

/-- Bytes, filled up to whole blocks. -/
def filled (filler : UInt8) (bytes : List UInt8) : List UInt8 :=
  let rest := bytes.length % blockLength
  if rest = 0 then bytes else bytes ++ List.replicate (blockLength - rest) filler

/-- The bytes of a file of data, if their elements can be kept. -/
def write? (d : Data) : Option ByteArray :=
  (Storage.ofElement? d.element).map fun s =>
    let header := (cardsOf s d.values.shape).flatten ++ "END".toList
    let cells := d.values.cells.flatMap (s.bytesOf d.element)
    ⟨(filled 0x20 (header.map fun c => UInt8.ofNat c.toNat) ++ filled 0 cells).toArray⟩

end SkySources.AstronomicalFile
