/-!
# Decimal digits

Every script with decimal digits has the ten of them in a row, from zero to
nine, so the zeros of the scripts are all that needs to be known.
-/

namespace SkySources.Text

/-- The zeros of the scripts by their code points. -/
def zeroCodes : List Nat :=
  [0x30, 0x660, 0x6f0, 0x7c0, 0x966, 0x9e6, 0xa66, 0xae6, 0xb66, 0xbe6, 0xc66, 0xce6, 0xd66, 0xde6,
    0xe50, 0xed0, 0xf20, 0x1040, 0x1090, 0x17e0, 0x1810, 0x1946, 0x19d0, 0x1a80, 0x1a90, 0x1b50,
    0x1bb0, 0x1c40, 0x1c50, 0xa620, 0xa8d0, 0xa900, 0xa9d0, 0xa9f0, 0xaa50, 0xabf0, 0xff10,
    0x104a0, 0x10d30, 0x11066, 0x110f0, 0x11136, 0x111d0, 0x112f0, 0x11450, 0x114d0, 0x11650,
    0x116c0, 0x11730, 0x118e0, 0x11950, 0x11c50, 0x11d50, 0x11da0, 0x16a60, 0x16ac0, 0x16b50,
    0x1d7ce, 0x1d7d8, 0x1d7e2, 0x1d7ec, 0x1d7f6, 0x1e140, 0x1e2f0, 0x1e950, 0x1fbf0]

/-- The value of a decimal digit of any script. -/
def digit? (c : Char) : Option Nat :=
  (zeroCodes.find? fun code => decide (code ≤ c.toNat ∧ c.toNat < code + 10)).map (c.toNat - ·)

/-- Whether a character is a decimal digit of any script. -/
def isDigit (c : Char) : Bool := (digit? c).isSome

/-- The value of a digit to a base of at most sixteen, written with the ten
common digits and six letters. -/
def digitOfBase? (base : Nat) (c : Char) : Option Nat :=
  let value :=
    if '0' ≤ c ∧ c ≤ '9' then c.toNat - 48
    else if 'a' ≤ c ∧ c ≤ 'f' then c.toNat - 87
    else if 'A' ≤ c ∧ c ≤ 'F' then c.toNat - 55
    else 16
  if value < base then some value else none

/-- The number that some digits stand for, the most significant one first. -/
def number (base : Nat) (digits : List Nat) : Nat := digits.foldl (fun n d => n * base + d) 0

section Runs

variable (value? : Char → Option Nat)

/-- The values of the digits at the beginning and the rest. An underscore may
stand between two digits. -/
def digitsAfterDigit : List Char → List Nat × List Char
  | [] => ([], [])
  | '_' :: c :: rest =>
    match value? c with
    | some d =>
      let (ds, tail) := digitsAfterDigit rest
      (d :: ds, tail)
    | none => ([], '_' :: c :: rest)
  | c :: rest =>
    match value? c with
    | some d =>
      let (ds, tail) := digitsAfterDigit rest
      (d :: ds, tail)
    | none => ([], c :: rest)

/-- The values of the digits at the beginning, which is no underscore, and the
rest. -/
def digits : List Char → List Nat × List Char
  | '_' :: rest => ([], '_' :: rest)
  | cs => digitsAfterDigit value? cs

end Runs

end SkySources.Text
