import SkySources.Value.Kind

/-!
# Kinds in words

How a kind is written: a name, or a name with other kinds in brackets behind it,
or several kinds with bars between them. Kinds that are joined are taken apart if
they are joined ones themselves, and none of them counts twice.
-/

namespace SkySources.Kind

/-- Whether a character belongs to a name. -/
def isOfName (c : Char) : Bool := c.isAlphanum || c = '_' || c = '.'

/-- The kinds of a name that have one of their own. -/
def plainNames : List (String × Kind) :=
  [("None", nothing), ("NoneType", nothing), ("bool", truth), ("int", whole), ("float", float),
    ("str", text), ("list", list), ("dict", table), ("List", list), ("Dict", table),
    ("object", anything), ("Any", unchecked "typing.Any")]

/-- Whether a name begins with a capital letter. -/
def isCapital (name : String) : Bool := (name.toList.head?.map Char.isUpper).getD false

/-- The kind of a name. -/
def ofName (name : String) : Kind :=
  match plainNames.lookup name with
  | some k => k
  | none => if isCapital name then member name else foreign name

/-- The kinds that some kinds are made of. -/
def parts : List Kind → List Kind
  | [] => []
  | anyOf kinds :: rest => kinds ++ parts rest
  | union kinds :: rest => kinds ++ parts rest
  | k :: rest => k :: parts rest

/-- The kinds without those whose name has come before. -/
def distinct : List String → List Kind → List Kind
  | _, [] => []
  | seen, k :: rest =>
    if seen.contains k.name then distinct seen rest else k :: distinct (k.name :: seen) rest

/-- Several kinds joined in some way; a single one stays as it is. -/
def joined (join : List Kind → Kind) (kinds : List Kind) : Kind :=
  match distinct [] (parts kinds) with
  | [k] => k
  | ks => join ks

/-- Whether a kind is in the long form. -/
def isUnion : Kind → Bool
  | union _ => true
  | _ => false

/-- Several kinds with bars between them. Together with one in the long form they
take that form. -/
def barred (kinds : List Kind) : Kind :=
  joined (if kinds.any fun k => k.isUnion then union else anyOf) kinds

/-- A name with kinds in brackets behind it. -/
def bracketed (name : String) (kinds : List Kind) : Kind :=
  match name with
  | "Optional" => joined union (kinds ++ [nothing])
  | "Union" => joined union kinds
  | _ =>
    let words := name ++ "[" ++ ", ".intercalate (kinds.map Kind.name) ++ "]"
    unchecked (if isCapital name then "typing." ++ words else words)

/-- A kind that is being read. -/
structure Reading where
  /-- The names whose brackets are open, each with the kinds in its bracket so far
  and the alternatives in front of it, the last one first. -/
  opened : List (String × List Kind × List Kind)
  /-- The alternatives of the present kind, the last one first. -/
  kinds : List Kind

namespace Reading

/-- The reading with a name taken in, the last letter first. -/
def taken (r : Reading) (word : List Char) : Reading :=
  if word.isEmpty then r else { r with kinds := ofName (String.ofList word.reverse) :: r.kinds }

/-- The reading behind the beginning of a bracket. -/
def entered (r : Reading) (word : List Char) : Reading :=
  ⟨(String.ofList word.reverse, [], r.kinds) :: r.opened, []⟩

/-- The reading behind a comma. -/
def next (r : Reading) : Reading :=
  match r.opened with
  | [] => r
  | (name, before, outer) :: opened =>
    ⟨(name, before ++ [barred r.kinds.reverse], outer) :: opened, []⟩

/-- The reading behind the end of a bracket. -/
def closed (r : Reading) : Reading :=
  match r.opened with
  | [] => r
  | (name, before, outer) :: opened =>
    ⟨opened, bracketed name (before ++ [barred r.kinds.reverse]) :: outer⟩

/-- The reading of some characters, where the letters of a name are waiting. -/
def readAll : List Char → List Char → Reading → Reading
  | [], word, r => r.taken word
  | c :: cs, word, r =>
    if isOfName c then readAll cs (c :: word) r
    else if c = '[' then readAll cs [] (r.entered word)
    else if c = ']' then readAll cs [] (r.taken word).closed
    else if c = ',' then readAll cs [] (r.taken word).next
    else readAll cs [] (r.taken word)

end Reading

/-- The kind that a text stands for. Blanks do not matter. -/
def ofText (text : String) : Kind :=
  barred ((Reading.readAll (text.toList.filter fun c => c ≠ ' ') [] ⟨[], []⟩).kinds.reverse)

end SkySources.Kind
