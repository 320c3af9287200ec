import SkySources.Decimal
import SkySources.Text.Blank
import SkySources.Text.Digit

/-!
# Numbers in text

How numbers are read: blanks at the ends do not matter, a sign may come first,
digits may be grouped by underscores and may be of any script. A whole number
is nothing but digits. A float may have a point and an exponent, or be one of
the words for an infinity or a missing number.
-/

namespace SkySources.Text

/-- Blanks that may stand around a number; the information separators may not. -/
def isNumberBlank (c : Char) : Bool := isBlank c && !decide (0x1c ≤ c.toNat ∧ c.toNat ≤ 0x1f)

/-- The characters without such blanks at both ends. -/
def trimmedNumber (cs : List Char) : List Char :=
  ((cs.dropWhile isNumberBlank).reverse.dropWhile isNumberBlank).reverse

/-- Whether a minus sign comes first, and what follows the sign. -/
def signed : List Char → Bool × List Char
  | '-' :: rest => (true, rest)
  | '+' :: rest => (false, rest)
  | cs => (false, cs)

/-- The most digits that a whole number may be written with. -/
def digitLimit : Nat := 4300

/-- The whole number that a text stands for. -/
def whole? (text : String) : Option Int :=
  let (negative, cs) := signed (trimmedNumber text.toList)
  match digits digit? cs with
  | (ds, []) =>
    if ds.isEmpty ∨ digitLimit < ds.length then none
    else some (if negative then -Int.ofNat (number 10 ds) else Int.ofNat (number 10 ds))
  | _ => none

/-- The exponent that the rest of a number consists of; zero if there is none. -/
def exponent? : List Char → Option Int
  | [] => some 0
  | c :: cs =>
    if c = 'e' ∨ c = 'E' then
      let (negative, cs) := signed cs
      match digits digit? cs with
      | (ds, []) =>
        if ds.isEmpty then none
        else some (if negative then -Int.ofNat (number 10 ds) else Int.ofNat (number 10 ds))
      | _ => none
    else none

/-- The digits behind the point, if there is one, and the rest. -/
def fraction : List Char → List Nat × List Char
  | '.' :: cs => digits digit? cs
  | cs => ([], cs)

/-- The decimal that a text without sign stands for. -/
def decimal? (negative : Bool) (cs : List Char) : Option Decimal :=
  let (whole, cs) := digits digit? cs
  let (part, cs) := fraction cs
  if whole.isEmpty ∧ part.isEmpty then none
  else (exponent? cs).map fun e =>
    ⟨negative, number 10 (whole ++ part), e - Int.ofNat part.length⟩

/-- The characters with the letters of the English alphabet in lower case. -/
def lower (cs : List Char) : List Char := cs.map Char.toLower

/-- The float that a text stands for. -/
def float? (text : String) : Option Float :=
  let (negative, cs) := signed (trimmedNumber text.toList)
  let word := String.ofList (lower cs)
  if word = "nan" then some (0.0 / 0.0)
  else if word = "inf" ∨ word = "infinity" then
    some (if negative then -1.0 / 0.0 else 1.0 / 0.0)
  else (decimal? negative cs).map Decimal.toFloat

end SkySources.Text
