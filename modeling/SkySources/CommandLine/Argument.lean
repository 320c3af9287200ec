import SkySources.CommandLine.Choice

/-!
# Kinds of arguments

Before anything is read, every argument is told apart by its look. An argument
that begins with a dash names an option, in full or by a beginning that fits
only one name, unless it is a negative number or holds a space. A value may
follow the name, behind an equals sign or right behind a short name. Behind the
first `--` everything is plain.
-/

namespace SkySources.CommandLine

/-- What an argument looks like. -/
inductive Look where
  /-- A file or a value. -/
  | plain
  /-- The mark that only plain arguments follow. -/
  | dashes
  /-- An option by one of its names, with what follows the name in the same
  argument. -/
  | choice (c : Choice) (name : String) (value : Option String)
  /-- An option that does not exist. -/
  | unknown
  deriving DecidableEq, Repr

/-- An argument with its look. -/
structure Argument where
  text : String
  look : Look
  deriving DecidableEq, Repr

/-- The text before the first equals sign, and the text behind it if there is
one. -/
def splitAtEquals (cs : List Char) : List Char × Option (List Char) :=
  match cs.dropWhile (· ≠ '=') with
  | [] => (cs, none)
  | _ :: value => (cs.takeWhile (· ≠ '='), some value)

/-- The text without a line feed at its end. -/
def withoutLastBreak (cs : List Char) : List Char :=
  if cs.getLast? = some '\n' then cs.dropLast else cs

/-- Whether digits, perhaps with a point before the last of them, follow a minus
sign. -/
def isNegativeNumber : List Char → Bool
  | '-' :: rest =>
    let cs := withoutLastBreak rest
    match cs.dropWhile Text.isDigit with
    | [] => !cs.isEmpty
    | '.' :: part => !part.isEmpty && part.all Text.isDigit
    | _ => false
  | _ => false

/-- The names that begin with a text, with their options. -/
def fitting (beginning : List Char) : List (String × Choice) :=
  Choice.named.filter fun entry => beginning.isPrefixOf entry.1.toList

/-- The looks of an argument by the beginning of a name: with two dashes, the
part before the equals sign is the beginning; with one dash, the first letter is
a short name, and the value begins right behind it. -/
def looksByBeginning (cs : List Char) : List (String × Look) :=
  match cs with
  | '-' :: '-' :: _ =>
    let (beginning, value) := splitAtEquals cs
    (fitting beginning).map fun (name, c) =>
      (name, .choice c name (value.map String.ofList))
  | '-' :: letter :: letters =>
    let short := String.ofList ['-', letter]
    ((Choice.ofName? short).map fun c =>
      (short, Look.choice c short (some (String.ofList letters)))).toList
  | _ => []

/-- An argument that names an option in full, perhaps with a value. -/
def exactLook? (text : String) : Option Look :=
  match Choice.ofName? text with
  | some c => some (.choice c text none)
  | none =>
    match splitAtEquals text.toList with
    | (name, some value) =>
      (Choice.ofName? (String.ofList name)).map fun c =>
        .choice c (String.ofList name) (some (String.ofList value))
    | (_, none) => none

/-- The look of an argument in front of the mark. -/
def lookOf (text : String) : Except UsageError Look :=
  let cs := text.toList
  if cs.head? ≠ some '-' ∨ cs.length = 1 then .ok .plain
  else
    match exactLook? text with
    | some look => .ok look
    | none =>
      match looksByBeginning cs with
      | [(_, look)] => .ok look
      | [] =>
        .ok (if isNegativeNumber cs || cs.contains ' ' then .plain else .unknown)
      | looks => .error (.ambiguous text (looks.map (·.1)))

/-- The arguments with their looks. -/
def arguments : List String → Except UsageError (List Argument)
  | [] => .ok []
  | "--" :: rest => .ok (⟨"--", .dashes⟩ :: rest.map fun text => ⟨text, .plain⟩)
  | text :: rest => do
    let look ← lookOf text
    let others ← arguments rest
    return ⟨text, look⟩ :: others

end SkySources.CommandLine
