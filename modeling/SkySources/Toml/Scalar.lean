import SkySources.Text.Number
import SkySources.Value

/-!
# Strings, numbers and moments of a document

Each function reads one item from the front of the text and leaves the rest. A
function that answers with an option is tried, and the text is read in another
way if it does not apply; a function that answers with a fault has been chosen
for good.
-/

namespace SkySources.Toml

/-- Why a document cannot be read. -/
inductive Fault where
  /-- The text breaks the rules of the format. -/
  | malformed
  /-- A whole number has more digits than are read. -/
  | longNumber
  /-- Lists and tables stand in each other too often. -/
  | tooDeep
  deriving DecidableEq, Repr

/-- What is read from the front of a text, and the rest. -/
abbrev Read (β : Type) := Except Fault (β × List Char)

/-- Whether a character is a blank within a line. -/
def isSpace (c : Char) : Bool := c == ' ' || c == '\t'

/-- The text without the blanks at its front. -/
def skipSpace (cs : List Char) : List Char := cs.dropWhile isSpace

/-- Whether a character is a control that no line may hold. -/
def isControl (c : Char) : Bool := (decide (c.toNat < 32) || c.toNat == 127) && c != '\t'

/-- Whether a character is a control that no text of several lines may hold. -/
def isControlInLines (c : Char) : Bool := isControl c && c != '\n'

/-! ## Strings -/

/-- The character that hexadecimal digits name; none if they are no digits or
name no character. -/
def named? (cs : List Char) : Option Char := do
  let ds ← cs.mapM (Text.digitOfBase? 16)
  let code := Text.number 16 ds
  if h : code.isValidChar then some (Char.ofNatAux code h) else none

/-- The character that a letter behind a backslash stands for. -/
def escape? : Char → Option Char
  | 'b' => some '\x08'
  | 't' => some '\t'
  | 'n' => some '\n'
  | 'f' => some '\x0c'
  | 'r' => some '\r'
  | '"' => some '"'
  | '\\' => some '\\'
  | _ => none

/-- A character in front of a text that is read on. -/
def consing (c : Option Char) (rest : Read (List Char)) : Read (List Char) :=
  match c, rest with
  | some c, .ok (cs, tail) => .ok (c :: cs, tail)
  | none, _ => .error .malformed
  | _, .error fault => .error fault

/-- The rest of a text in double quotes. -/
def quotedRest : List Char → Read (List Char)
  | '"' :: rest => .ok ([], rest)
  | '\\' :: 'u' :: a :: b :: c :: d :: rest => consing (named? [a, b, c, d]) (quotedRest rest)
  | '\\' :: 'U' :: a :: b :: c :: d :: e :: f :: g :: h :: rest =>
    consing (named? [a, b, c, d, e, f, g, h]) (quotedRest rest)
  | '\\' :: c :: rest => consing (escape? c) (quotedRest rest)
  | c :: rest => if isControl c then .error .malformed else consing (some c) (quotedRest rest)
  | [] => .error .malformed

/-- The rest of a text in single quotes, where nothing is escaped. -/
def literalRest : List Char → Read (List Char)
  | '\'' :: rest => .ok ([], rest)
  | c :: rest => if isControl c then .error .malformed else consing (some c) (literalRest rest)
  | [] => .error .malformed

/-- Up to two more quotes behind the three that end a text of several lines
belong to the text. -/
def moreQuotes (quote : Char) : List Char → List Char × List Char
  | c :: d :: rest =>
    if c = quote then (if d = quote then ([c, d], rest) else ([c], d :: rest))
    else ([], c :: d :: rest)
  | [c] => if c = quote then ([c], []) else ([], [c])
  | [] => ([], [])

/-- How the next character of a text of several lines is taken. -/
inductive Mode where
  /-- As it is. -/
  | plain
  /-- Behind a backslash at the end of a line: only blanks, up to the end. -/
  | lineEnd
  /-- Behind such a line: blanks and ends of lines are left out. -/
  | blank
  deriving DecidableEq, Repr

/-- The rest of a text of several lines in double quotes. -/
def quotedLinesRest : Mode → List Char → Read (List Char)
  | _, [] => .error .malformed
  | .lineEnd, c :: rest =>
    if isSpace c then quotedLinesRest .lineEnd rest
    else if c = '\n' then quotedLinesRest .blank rest
    else .error .malformed
  | .blank, ' ' :: rest => quotedLinesRest .blank rest
  | .blank, '\t' :: rest => quotedLinesRest .blank rest
  | .blank, '\n' :: rest => quotedLinesRest .blank rest
  | _, '"' :: '"' :: '"' :: rest => .ok (moreQuotes '"' rest)
  | _, '\\' :: '\n' :: rest => quotedLinesRest .blank rest
  | _, '\\' :: ' ' :: rest => quotedLinesRest .lineEnd rest
  | _, '\\' :: '\t' :: rest => quotedLinesRest .lineEnd rest
  | _, '\\' :: 'u' :: a :: b :: c :: d :: rest =>
    consing (named? [a, b, c, d]) (quotedLinesRest .plain rest)
  | _, '\\' :: 'U' :: a :: b :: c :: d :: e :: f :: g :: h :: rest =>
    consing (named? [a, b, c, d, e, f, g, h]) (quotedLinesRest .plain rest)
  | _, '\\' :: c :: rest => consing (escape? c) (quotedLinesRest .plain rest)
  | _, c :: rest =>
    if isControlInLines c then .error .malformed
    else consing (some c) (quotedLinesRest .plain rest)

/-- The rest of a text of several lines in single quotes. -/
def literalLinesRest : List Char → Read (List Char)
  | '\'' :: '\'' :: '\'' :: rest => .ok (moreQuotes '\'' rest)
  | c :: rest =>
    if isControlInLines c then .error .malformed else consing (some c) (literalLinesRest rest)
  | [] => .error .malformed

/-- A text of several lines without the end of line right behind its quotes. -/
def withoutFirstBreak : List Char → List Char
  | '\n' :: rest => rest
  | cs => cs

/-! ## Numbers -/

/-- The digits behind a point, which must be there, and the rest. -/
def fraction : List Char → List Nat × List Char
  | '.' :: rest =>
    match Text.digits (Text.digitOfBase? 10) rest with
    | ([], _) => ([], '.' :: rest)
    | (ds, tail) => (ds, tail)
  | cs => ([], cs)

/-- The exponent, if there is one, and the rest. -/
def exponent : List Char → Option Int × List Char
  | c :: rest =>
    if c = 'e' ∨ c = 'E' then
      let (negative, cs) := Text.signed rest
      match Text.digits (Text.digitOfBase? 10) cs with
      | ([], _) => (none, c :: rest)
      | (ds, tail) =>
        let e := Int.ofNat (Text.number 10 ds)
        (some (if negative then -e else e), tail)
    else (none, c :: rest)
  | [] => (none, [])

/-- The digits of the whole part: a single zero, or digits that do not begin with
one. -/
def wholePart : List Char → List Nat × List Char
  | '0' :: rest => ([0], rest)
  | cs => Text.digits (Text.digitOfBase? 10) cs

/-- A number in decimal digits. -/
def decimal? (cs : List Char) : Option (Read Value) :=
  let (negative, cs) := Text.signed cs
  match wholePart cs with
  | ([], _) => none
  | (whole, cs) =>
    let (part, cs) := fraction cs
    let (power, cs) := exponent cs
    if part.isEmpty ∧ power.isNone then
      if Text.digitLimit < whole.length then some (.error .longNumber)
      else
        let n := Int.ofNat (Text.number 10 whole)
        some (.ok (.whole (if negative then -n else n), cs))
    else
      let d : Decimal :=
        ⟨negative, Text.number 10 (whole ++ part), power.getD 0 - Int.ofNat part.length⟩
      some (.ok (.float d.toFloat, cs))

/-- A whole number to a base, behind the two characters that name the base. -/
def based? (base : Nat) (cs : List Char) : Option (Read Value) :=
  match Text.digits (Text.digitOfBase? base) cs with
  | ([], _) => none
  | (ds, tail) => some (.ok (.whole (Int.ofNat (Text.number base ds)), tail))

/-- A number. -/
def number? (cs : List Char) : Option (Read Value) :=
  let other := match cs with
    | '0' :: 'x' :: rest => based? 16 rest
    | '0' :: 'o' :: rest => based? 8 rest
    | '0' :: 'b' :: rest => based? 2 rest
    | _ => none
  other.orElse fun _ => decimal? cs

/-- An infinity or a missing number. -/
def special? : List Char → Option (Value × List Char)
  | 'i' :: 'n' :: 'f' :: rest => some (.float (1.0 / 0.0), rest)
  | '+' :: 'i' :: 'n' :: 'f' :: rest => some (.float (1.0 / 0.0), rest)
  | '-' :: 'i' :: 'n' :: 'f' :: rest => some (.float (-1.0 / 0.0), rest)
  | 'n' :: 'a' :: 'n' :: rest => some (.float (0.0 / 0.0), rest)
  | '+' :: 'n' :: 'a' :: 'n' :: rest => some (.float (0.0 / 0.0), rest)
  | '-' :: 'n' :: 'a' :: 'n' :: rest => some (.float (0.0 / 0.0), rest)
  | _ => none

/-! ## Dates and times -/

/-- A number of exactly so many digits, between two bounds. -/
def fixed? (count low high : Nat) (cs : List Char) : Option (Nat × List Char) := do
  let ds ← (cs.take count).mapM (Text.digitOfBase? 10)
  let n := Text.number 10 ds
  if ds.length = count ∧ low ≤ n ∧ n ≤ high then some (n, cs.drop count) else none

/-- The rest behind a character that must come first. -/
def after? (c : Char) : List Char → Option (List Char)
  | d :: rest => if d = c then some rest else none
  | [] => none

/-- The millionths that digits behind a point stand for; further digits are cut
off. -/
def micros (ds : List Nat) : Nat :=
  Text.number 10 (ds.take 6) * Nat.pow 10 (6 - (ds.take 6).length)

/-- A time of day. -/
def clock? (cs : List Char) : Option (Clock × List Char) := do
  let (hour, cs) ← fixed? 2 0 23 cs
  let cs ← after? ':' cs
  let (minute, cs) ← fixed? 2 0 59 cs
  let cs ← after? ':' cs
  let (second, cs) ← fixed? 2 0 59 cs
  match cs with
  | '.' :: rest =>
    let ds := (rest.takeWhile Char.isDigit).filterMap (Text.digitOfBase? 10)
    if ds.isEmpty then some (⟨hour, minute, second, 0⟩, cs)
    else some (⟨hour, minute, second, micros ds⟩, rest.dropWhile Char.isDigit)
  | _ => some (⟨hour, minute, second, 0⟩, cs)

/-- The distance of a local clock from universal time, in minutes. -/
def offset? : List Char → Option (Int × List Char)
  | c :: rest =>
    if c = 'Z' ∨ c = 'z' then some (0, rest)
    else if c = '+' ∨ c = '-' then do
      let (hours, cs) ← fixed? 2 0 23 rest
      let cs ← after? ':' cs
      let (minutes, cs) ← fixed? 2 0 59 cs
      let n := Int.ofNat (hours * 60 + minutes)
      some (if c = '-' then -n else n, cs)
    else none
  | [] => none

/-- A day of the calendar, which need not exist. -/
def date? (cs : List Char) : Option (Date × List Char) := do
  let (year, cs) ← fixed? 4 0 9999 cs
  let cs ← after? '-' cs
  let (month, cs) ← fixed? 2 1 12 cs
  let cs ← after? '-' cs
  let (day, cs) ← fixed? 2 1 31 cs
  some (⟨year, month, day⟩, cs)

/-- The time of day behind a date and a mark between them. -/
def clockAfterDate? : List Char → Option (Clock × List Char)
  | c :: rest => if c = 'T' ∨ c = 't' ∨ c = ' ' then clock? rest else none
  | [] => none

/-- A date, perhaps with a time of day; the date must exist. -/
def dated? (cs : List Char) : Option (Read Value) := do
  let (date, rest) ← date? cs
  if !date.isValid then some (.error .malformed)
  else
    match clockAfterDate? rest with
    | none => some (.ok (.moment (.date date), rest))
    | some (clock, rest) =>
      match offset? rest with
      | some (minutes, rest) => some (.ok (.moment (.both date clock (some minutes)), rest))
      | none => some (.ok (.moment (.both date clock none), rest))

/-- A date, a time of day, or a number. -/
def plain? (cs : List Char) : Option (Read Value) :=
  (dated? cs).orElse fun _ =>
    ((clock? cs).map fun (clock, rest) => .ok (.moment (.clock clock), rest)).orElse fun _ =>
      (number? cs).orElse fun _ => (special? cs).map .ok

end SkySources.Toml
