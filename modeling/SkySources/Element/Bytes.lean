import SkySources.Bytes
import SkySources.Element

/-!
# Elements in bytes

Every element of a fixed width is kept in the same count of bytes. Floats are
kept as the bits of a sign, an exponent and a fraction; of a complex number,
which is two floats, the first one counts.
-/

namespace SkySources

namespace ElementType

/-- The count of bytes of an element; none are needed for an element of no fixed
width, which cannot be kept. -/
def byteCount : ElementType → Nat
  | truth => 1
  | signed bits | unsigned bits | float bits | complex bits => bits / 8
  | text _ | anything => 0

/-- The float of half precision with some bits. -/
def halfOfBits (bits : Nat) : Float :=
  let negative := decide (Nat.pow 2 15 ≤ bits)
  let scale := bits / Nat.pow 2 10 % Nat.pow 2 5
  let fraction := bits % Nat.pow 2 10
  if scale = 31 then
    if fraction = 0 then (if negative then -1.0 / 0.0 else 1.0 / 0.0) else 0.0 / 0.0
  else if scale = 0 then (Binary.mk negative fraction (-24)).toFloat
  else (Binary.mk negative (fraction + Nat.pow 2 10) (Int.ofNat scale - 25)).toFloat

/-- The float of some width with some bits. -/
def floatOfBits (width bits : Nat) : Float :=
  if width = 16 then halfOfBits bits
  else if width = 32 then (Float32.ofBits (UInt32.ofNat bits)).toFloat
  else Float.ofBits (UInt64.ofNat bits)

/-- The element in some bytes. -/
def read (order : ByteOrder) (t : ElementType) (bytes : List UInt8) : Cell :=
  match t with
  | truth => .truth (bytes.any (· != 0))
  | signed _ => .whole (order.intOf bytes)
  | unsigned _ => .whole (Int.ofNat (order.natOf bytes))
  | float width => .float (floatOfBits width (order.natOf bytes))
  | complex width =>
    .float (floatOfBits (width / 2) (order.natOf (bytes.take (width / 16))))
  | text _ | anything => .nothing

/-- The type in which elements are written: whole numbers, truth values and floats
of single precision as they are, and any others as doubles. -/
def written : ElementType → ElementType
  | truth => truth
  | signed bits => signed bits
  | unsigned bits => unsigned bits
  | float 32 => float 32
  | _ => float 64

/-- The bytes of an element of a type that is written. -/
def write (order : ByteOrder) (t : ElementType) (c : Cell) : List UInt8 :=
  match t with
  | truth | signed _ | unsigned _ => order.encodeInt t.byteCount (t.wholeOf c)
  | float 32 => order.encodeNat 4 (floatOf c).toFloat32.toBits.toNat
  | _ => order.encodeNat 8 (floatOf c).toBits.toNat

end ElementType

namespace Data

/-- The data of a shape in bytes that begin at some place; none if the bytes do
not suffice. -/
def ofBytes? (order : ByteOrder) (t : ElementType) (shape : List Nat) (bytes : ByteArray)
    (start : Nat) : Option Data :=
  let count := shape.foldl (· * ·) 1
  let width := t.byteCount
  if width = 0 ∨ bytes.size < start + count * width then none
  else
    let cell (n : Nat) : Cell :=
      t.read order (bytes.extract (start + n * width) (start + (n + 1) * width)).toList
    some ⟨t, ⟨shape, (List.range count).map cell⟩⟩

/-- The bytes of all elements. -/
def bytes (order : ByteOrder) (d : Data) : List UInt8 :=
  d.values.cells.flatMap (d.element.written.write order)

end Data
end SkySources
