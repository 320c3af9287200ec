import SkySources.CommandLine.Report

/-!
# The program

The files and directories that a command line depends on are read into a store.
What the command line leads to is computed from the store, and what the store
holds afterwards that it did not hold before is written.
-/

namespace SkySources

/-- What the bytes of a file hold. -/
def Item.ofBytes (bytes : ByteArray) : Item :=
  match ArrayFile.read? bytes with
  | some d => .data .plain d
  | none =>
    match AstronomicalFile.read bytes with
    | .ok d => .data .astronomical d
    | .error _ =>
      match String.fromUTF8? bytes with
      | some contents => .text contents
      | none => .other

namespace Store

/-- The name of a place. -/
def nameOf (place : List String) : String :=
  match place with
  | "/" :: parts => "/" ++ "/".intercalate parts
  | [] => "."
  | parts => "/".intercalate parts

/-- The places that parts of a path lead through. -/
def placesOnWay : List String → List String → List (List String)
  | _, [] => []
  | place, part :: parts =>
    let next :=
      if part = "" ∨ part = "." then place
      else if part = ".." then above place
      else place ++ [part]
    next :: placesOnWay next parts

/-- The places that a name leads through. -/
def placesOf (name : String) : List (List String) :=
  let p := Path.ofText name
  placesOnWay p.start p.parts

/-- The store with what stands at a place on the disk, if anything does. -/
def look (s : Store) (place : List String) : IO Store := do
  let file := System.mkFilePath [nameOf place]
  if ← file.isDir then return s.put place .directory
  else if ← file.pathExists then return s.put place (.ofBytes (← IO.FS.readBinFile file))
  else return s

/-- The store with what stands on the disk where some names lead. -/
def lookAll (s : Store) (names : List String) : IO Store :=
  ((names.flatMap placesOf).eraseDups.filter fun place => !isGiven place).foldlM look s

/-- An item is put on the disk. -/
def keep (place : List String) (item : Item) : IO Unit := do
  let file := System.mkFilePath [nameOf place]
  match item.toBytes? with
  | some bytes => IO.FS.writeBinFile file bytes
  | none => IO.FS.createDirAll file

/-- Whether an item is something else than what stood at its place before. -/
def isNews (before : Store) (entry : List String × Item) : Bool :=
  match before.items.lookup entry.1 with
  | some old => old.toBytes? != entry.2.toBytes?
  | none => true

/-- The items of a store that were not in it before, in order. -/
def news (before after : Store) : List (List String × Item) := after.items.filter before.isNews

end Store

namespace CommandLine

/-- The program with its arguments: the code that it ends with. -/
def carryOut (args : List String) : IO UInt32 := do
  let settings ← Store.empty.lookAll (namesNeeded .empty args)
  let store ← settings.lookAll (namesNeeded settings args)
  let outcome := execute store args
  for (place, item) in Store.news store outcome.store do
    Store.keep place item
  for remark in outcome.remarks do
    IO.eprintln remark
  IO.print outcome.output
  return UInt32.ofNat (exitCode outcome.failure)

end CommandLine
end SkySources

/-- The program. -/
def main (args : List String) : IO UInt32 := SkySources.CommandLine.carryOut args
