import SkySources.ArrayFile
import SkySources.AstronomicalFile

/-!
# Files and directories

A store holds what stands behind names: directories, texts, and data in one of
two formats. A name leads from directory to directory, so it can fail because
something on the way is missing, is no directory or has too long a name. What is
written can be read back, and nothing else changes.
-/

namespace SkySources

/-- A format of files of data. -/
inductive Format where
  /-- Data as they are. -/
  | plain
  /-- An astronomical image with a header. -/
  | astronomical
  deriving DecidableEq, Repr

/-- What stands behind a name. -/
inductive Item where
  | directory
  | text (s : String)
  | data (format : Format) (d : Data)
  /-- Anything else. -/
  | other

namespace Item

/-- The bytes of a file. -/
def toBytes? : Item → Option ByteArray
  | directory | other => none
  | text s => some s.toUTF8
  | data .plain d => some (ArrayFile.write d)
  | data .astronomical d => AstronomicalFile.write? d

end Item

/-- Why a file cannot be read or written. -/
inductive FileFault where
  /-- There is nothing behind the name. -/
  | missing
  /-- A directory stands where a file is needed. -/
  | directory
  /-- A file stands where a directory is needed. -/
  | noDirectory
  /-- A file stands where a directory should be made. -/
  | taken
  /-- The file is not in the format that its name promises. -/
  | wrongFormat (expected : Format)
  /-- The file is empty. -/
  | empty
  /-- The name is empty. -/
  | noName
  /-- The name holds a character that ends every name. -/
  | badName
  /-- The name or a part of it is too long. -/
  | longName
  /-- The file is an archive that is damaged. -/
  | archive
  /-- There is no type of the elements, or it is none of the known ones. -/
  | noElement
  /-- There are no axes. -/
  | noAxes
  /-- There are fewer elements than there should be. -/
  | tooShort
  /-- The file is no text. -/
  | noText
  deriving DecidableEq, Repr

namespace FileFault

/-- What is wrong with a file, in words. -/
def message : FileFault → String
  | missing => "no such file or directory"
  | directory => "is a directory"
  | noDirectory => "not a directory"
  | taken => "a file of this name exists"
  | wrongFormat _ => "not a file of data in the expected format"
  | empty => "no data left in the file"
  | noName => "empty file name"
  | badName => "file name with a null character"
  | longName => "file name too long"
  | archive => "damaged archive"
  | noElement => "no data of a known type"
  | noAxes => "no data"
  | tooShort => "data are cut off"
  | noText => "not a text"

end FileFault

/-- A name in parts, from the root or from the working directory. -/
structure Path where
  fromRoot : Bool
  parts : List String
  deriving DecidableEq, Repr

namespace Path

/-- The path of a text, part by part. -/
def ofText (text : String) : Path := ⟨text.startsWith "/", text.splitOn "/"⟩

/-- The path without empty parts and parts that lead nowhere. -/
def clean (p : Path) : Path := ⟨p.fromRoot, p.parts.filter fun part => part ≠ "" ∧ part ≠ "."⟩

/-- The path of a name in a directory. -/
def child (p : Path) (name : String) : Path := ⟨p.fromRoot, p.parts ++ [name]⟩

/-- The count of bytes that a path is written with. -/
def size (p : Path) : Nat :=
  let written := ("/".intercalate p.parts).utf8ByteSize
  if p.fromRoot ∧ p.parts.head? ≠ some "" then written + 1 else written

/-- The first count of bytes that is too many for a path. -/
def sizeLimit : Nat := 4096

/-- The most bytes of a part of a path. -/
def partLimit : Nat := 255

/-- Whether a path holds the character that ends every name. -/
def isBroken (p : Path) : Bool := p.parts.any fun part => part.contains '\x00'

/-- The place that a path begins at. -/
def start (p : Path) : List String := if p.fromRoot then ["/"] else []

/-- The last part of a text with slashes. -/
def lastPart (text : String) : String := (text.splitOn "/").getLast?.getD ""

/-- The name of a file without its extension; dots at the front begin none. -/
def stem (name : String) : String :=
  let cs := name.toList
  let front := cs.takeWhile (· = '.')
  let body := cs.dropWhile (· = '.')
  if body.contains '.' then
    String.ofList (front ++ ((body.reverse.dropWhile (· ≠ '.')).drop 1).reverse)
  else name

end Path

/-- Items at their places; a place is the list of names that lead to it. -/
structure Store where
  items : List (List String × Item)

namespace Store

/-- The empty store. -/
def empty : Store := ⟨[]⟩

/-- Whether a place is a directory in any store: the working directory, the root,
and the directories above. -/
def isGiven (place : List String) : Bool := place = ["/"] || place.all (· = "..")

/-- The item at a place. -/
def item? (s : Store) (place : List String) : Option Item :=
  if isGiven place then some .directory else s.items.lookup place

/-- The store with an item at a place. -/
def put (s : Store) (place : List String) (item : Item) : Store :=
  ⟨s.items.filter (fun entry => entry.1 ≠ place) ++ [(place, item)]⟩

/-- The place above a place. -/
def above (place : List String) : List String :=
  if place = ["/"] then place
  else if place.all (· = "..") then place ++ [".."]
  else place.dropLast

/-- The place that some parts lead to from a place. There must be a directory for
every part to start from, but the last place may be empty. -/
def walk (s : Store) : List String → List String → Except FileFault (List String)
  | [], place => .ok place
  | part :: parts, place =>
    match s.item? place with
    | none => .error .missing
    | some .directory =>
      if part = "" ∨ part = "." then walk s parts place
      else if part = ".." then walk s parts (above place)
      else if Path.partLimit < part.utf8ByteSize then .error .longName
      else walk s parts (place ++ [part])
    | some _ => .error .noDirectory

/-- The place that a path leads to. -/
def locate (s : Store) (p : Path) : Except FileFault (List String) :=
  if p.isBroken then .error .badName
  else if Path.sizeLimit ≤ p.size then .error .longName
  else s.walk p.parts p.start

/-- What stands behind a path. -/
def read (s : Store) (p : Path) : Except FileFault Item := do
  match s.item? (← s.locate p) with
  | some item => return item
  | none => .error .missing

/-- Whether anything stands behind a name. -/
def holds (s : Store) (name : String) : Bool :=
  name ≠ "" && (s.read (Path.ofText name)).toOption.isSome

/-- The store with a file written; a directory is never replaced. -/
def write (s : Store) (p : Path) (item : Item) : Except FileFault Store := do
  let place ← s.locate p
  match s.item? place with
  | some .directory => .error .directory
  | _ => return s.put place item

/-- The store with a directory behind a path, if the directory above exists. -/
def makeDirectory (s : Store) (p : Path) : Except FileFault Store := do
  let place ← s.locate p
  match s.item? place with
  | some .directory => return s
  | some _ => .error .taken
  | none => return s.put place .directory

/-- The store with a directory behind some parts, the last one first, and with
those above where they are missing. -/
def makeDirectoriesTo (fromRoot : Bool) : List String → Store → Except FileFault Store
  | [], s => .ok s
  | part :: parts, s =>
    let p : Path := ⟨fromRoot, parts.reverse ++ [part]⟩
    match s.makeDirectory p with
    | .error .missing =>
      match makeDirectoriesTo fromRoot parts s with
      | .ok s => s.makeDirectory p
      | .error f => .error f
    | outcome => outcome

/-- The store with a directory behind a path and with those above it. -/
def makeDirectories (s : Store) (p : Path) : Except FileFault Store :=
  makeDirectoriesTo p.fromRoot p.clean.parts.reverse s

/-- The text behind a name, where a directory cannot be read. Any other file whose
bytes are those of a text counts as that text. -/
def readText (s : Store) (name : String) : Except FileFault String := do
  match ← s.read (Path.ofText name).clean with
  | .directory => .error .directory
  | item =>
    match item.toBytes?.bind fun bytes => String.fromUTF8? bytes with
    | some t => return t
    | none => .error .noText

end Store
end SkySources
