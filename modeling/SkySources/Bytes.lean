/-!
# Numbers in bytes

A whole number is kept in a fixed count of bytes, each of which is one digit to
the base 256. Either the least significant digit comes first, or the most
significant one does.
-/

namespace SkySources

/-- Which digit of a number comes first. -/
inductive ByteOrder where
  | leastFirst
  | mostFirst
  deriving DecidableEq, Repr

namespace ByteOrder

/-- Bytes in either order with the least significant one first; and the way back. -/
def upwards (order : ByteOrder) (bytes : List UInt8) : List UInt8 :=
  match order with
  | leastFirst => bytes
  | mostFirst => bytes.reverse

/-- So many of the lowest digits of a number, the least significant one first. -/
def lowest : Nat → Nat → List UInt8
  | 0, _ => []
  | width + 1, n => UInt8.ofNat (n % 256) :: lowest width (n / 256)

/-- The number that digits stand for, the least significant one first. -/
def number (bytes : List UInt8) : Nat := bytes.foldr (fun b n => b.toNat + 256 * n) 0

/-- The natural number in some bytes. -/
def natOf (order : ByteOrder) (bytes : List UInt8) : Nat := number (order.upwards bytes)

/-- The whole number in some bytes, where the upper half of the numbers stands
for the negative ones. -/
def intOf (order : ByteOrder) (bytes : List UInt8) : Int :=
  Int.bmod (order.natOf bytes) (Nat.pow 256 bytes.length)

/-- A natural number in so many bytes. -/
def encodeNat (order : ByteOrder) (width n : Nat) : List UInt8 := order.upwards (lowest width n)

/-- A whole number in so many bytes. -/
def encodeInt (order : ByteOrder) (width : Nat) (n : Int) : List UInt8 :=
  order.encodeNat width (n.emod (Nat.pow 256 width)).toNat

end ByteOrder
end SkySources
