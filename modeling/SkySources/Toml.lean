import SkySources.Toml.Scalar
import SkySources.Toml.Tree

/-!
# Documents of settings

A document consists of lines that declare tables or give values to names. A name
is a word or a quoted text, or several of these with dots between them. Values
may nest: lists and small tables can stand in each other, though not without
end. A value is read in some room, of which a list takes two parts and a small
table three.

The number of characters bounds every recursion, so reading a document always
comes to an end.
-/

namespace SkySources.Toml

/-- Whether a character may stand in a name without quotes. -/
def isNameChar (c : Char) : Bool := c.isAlphanum || c == '-' || c == '_'

/-- The rest of a line behind a comment, if one begins here. -/
def skipComment : List Char → Except Fault (List Char)
  | '#' :: rest =>
    let comment := rest.takeWhile (· ≠ '\n')
    if comment.any isControl then .error .malformed else .ok (rest.dropWhile (· ≠ '\n'))
  | cs => .ok cs

/-- The text without blanks, ends of lines and comments at its front. -/
def skipLines : Nat → List Char → Except Fault (List Char)
  | 0, cs => .ok cs
  | fuel + 1, cs => do
    let rest ← skipComment (cs.dropWhile fun c => isSpace c || c == '\n')
    if rest.length = cs.length then .ok cs else skipLines fuel rest

/-- The text of some characters that were read. -/
def asText (read : Read (List Char)) : Read String :=
  read.map fun (cs, rest) => (String.ofList cs, rest)

/-- One part of a name. -/
def namePart : List Char → Except Fault (String × List Char)
  | '"' :: rest => asText (quotedRest rest)
  | '\'' :: rest => asText (literalRest rest)
  | cs =>
    match cs.takeWhile isNameChar with
    | [] => .error .malformed
    | part => .ok (String.ofList part, cs.dropWhile isNameChar)

/-- The parts of a name behind its first one. -/
def moreParts : Nat → List Char → Except Fault (List String × List Char)
  | 0, _ => .error .malformed
  | fuel + 1, cs =>
    match skipSpace cs with
    | '.' :: rest => do
      let (part, rest) ← namePart (skipSpace rest)
      let (parts, rest) ← moreParts fuel rest
      return (part :: parts, rest)
    | rest => .ok ([], rest)

/-- A name with its parts; blanks behind it are skipped. -/
def name (cs : List Char) : Except Fault (List String × List Char) := do
  let (part, rest) ← namePart cs
  let (parts, rest) ← moreParts (rest.length + 1) rest
  return (part :: parts, rest)

/-- A text of one or several lines. -/
def string? : List Char → Option (Read String)
  | '"' :: '"' :: '"' :: rest => some (asText (quotedLinesRest .plain (withoutFirstBreak rest)))
  | '"' :: rest => some (asText (quotedRest rest))
  | '\'' :: '\'' :: '\'' :: rest => some (asText (literalLinesRest (withoutFirstBreak rest)))
  | '\'' :: rest => some (asText (literalRest rest))
  | _ => none

/-- A value that holds no other values. -/
def simple (cs : List Char) : Except Fault (Value × List Char) :=
  match string? cs with
  | some read => read.map fun (s, rest) => (.text s, rest)
  | none =>
    match cs with
    | 't' :: 'r' :: 'u' :: 'e' :: rest => .ok (.truth true, rest)
    | 'f' :: 'a' :: 'l' :: 's' :: 'e' :: rest => .ok (.truth false, rest)
    | _ => (plain? cs).getD (.error .malformed)

/-- The room that a value has which stands in no other. -/
def fullRoom : Nat := 988

/-- The room that a list takes. -/
def listRoom : Nat := 2

/-- The room that a small table takes. -/
def tableRoom : Nat := 3

mutual

/-- A value that is read in some room. -/
def value (room : Nat) : Nat → List Char → Except Fault (Value × List Char)
  | 0, _ => .error .malformed
  | fuel + 1, '[' :: rest => do
    if room < listRoom then throw .tooDeep
    let rest ← skipLines rest.length rest
    let (items, rest) ← items (room - listRoom) fuel rest
    return (.list items, rest)
  | fuel + 1, '\x7b' :: rest =>
    if room < tableRoom then .error .tooDeep
    else
      match skipSpace rest with
      | '\x7d' :: rest => .ok (.table [], rest)
      | rest => do
        let (entries, rest) ← pairs (room - tableRoom) fuel [] rest
        return (.table (valuesOf entries), rest)
  | _ + 1, cs => simple cs

/-- The items of a list from here on, with the bracket that ends it. -/
def items (room : Nat) : Nat → List Char → Except Fault (List Value × List Char)
  | 0, _ => .error .malformed
  | _ + 1, ']' :: rest => .ok ([], rest)
  | fuel + 1, cs => do
    let (item, rest) ← value room fuel cs
    match ← skipLines rest.length rest with
    | ']' :: rest => return ([item], rest)
    | ',' :: rest =>
      let rest ← skipLines rest.length rest
      let (items, rest) ← items room fuel rest
      return (item :: items, rest)
    | _ => .error .malformed

/-- The entries of a small table from here on, with the brace that ends it, added
to some entries. -/
def pairs (room : Nat) : Nat → Entries → List Char → Except Fault (Entries × List Char)
  | 0, _, _ => .error .malformed
  | fuel + 1, entries, cs => do
    let (path, rest) ← name cs
    match rest with
    | '=' :: rest =>
      let (v, rest) ← value room fuel (skipSpace rest)
      match entries.assign v path with
      | none => .error .malformed
      | some entries =>
        match skipSpace rest with
        | '\x7d' :: rest => return (entries, rest)
        | ',' :: rest => pairs room fuel entries (skipSpace rest)
        | _ => .error .malformed
    | _ => .error .malformed

end

/-- A change that may be refused. -/
def accepted (change : Option Entries) : Except Fault Entries :=
  match change with
  | some entries => .ok entries
  | none => .error .malformed

/-- A document up to some line: its tables, and the name of the present one. -/
structure Progress where
  entries : Entries
  header : List String

/-- A value is given to a name. -/
def assignment (p : Progress) (cs : List Char) : Except Fault (Progress × List Char) := do
  let (path, rest) ← name cs
  match rest with
  | '=' :: rest =>
    let (v, rest) ← value fullRoom (2 * rest.length + 1) (skipSpace rest)
    let entries ← accepted (p.entries.within (Entries.assign v path) p.header)
    return (⟨entries, p.header⟩, rest)
  | _ => .error .malformed

/-- A table is declared, or one more of several tables. -/
def declaration (p : Progress) : List Char → Except Fault (Progress × List Char)
  | '[' :: '[' :: rest => do
    let (path, rest) ← name (skipSpace rest)
    let entries ← accepted (Entries.atLast Entries.beginNext path (settledAll p.entries))
    match rest with
    | ']' :: ']' :: rest => return (⟨entries, path⟩, rest)
    | _ => .error .malformed
  | '[' :: rest => do
    let (path, rest) ← name (skipSpace rest)
    let entries ← accepted (Entries.atLast Entries.declare path (settledAll p.entries))
    match rest with
    | ']' :: rest => return (⟨entries, path⟩, rest)
    | _ => .error .malformed
  | _ => .error .malformed

/-- One line of a document, up to its end. -/
def line (p : Progress) (cs : List Char) : Except Fault (Progress × List Char) :=
  match cs with
  | [] | '\n' :: _ | '#' :: _ => .ok (p, cs)
  | '[' :: _ => declaration p cs
  | _ => assignment p cs

/-- The lines of a document from here on. -/
def lines : Nat → Progress → List Char → Except Fault Entries
  | 0, p, _ => .ok p.entries
  | fuel + 1, p, cs => do
    let (p, rest) ← line p (skipSpace cs)
    match ← skipComment (skipSpace rest) with
    | [] => return p.entries
    | '\n' :: rest => lines fuel p rest
    | _ => .error .malformed

/-- The characters of a text with every kind of end of line as a line feed. -/
def normalLines : List Char → List Char
  | '\r' :: '\n' :: rest => '\n' :: normalLines rest
  | '\r' :: rest => '\n' :: normalLines rest
  | c :: rest => c :: normalLines rest
  | [] => []

/-- The table that a document stands for. -/
def document (text : String) : Except Fault Table := do
  let cs := normalLines text.toList
  let t := valuesOf (← lines (cs.length + 1) ⟨[], []⟩ cs)
  if (Value.table t).depth ≤ Value.depthLimit then return t else throw .tooDeep

end SkySources.Toml
