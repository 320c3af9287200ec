import SkySources.Event
import SkySources.Store

/-!
# Files of images

The end of a file's name says how its data are stored. Plain data are taken as
they are, if they have a type of elements. An astronomical image may have more
axes than two: those of length one are dropped, and of a cube the first plane is
taken, axis by axis. A text can be an astronomical image, too, if its bytes are
those of one; a text that opens like an archive is taken for a damaged one.
-/

namespace SkySources.ImageFile

/-- The format that a name promises. -/
def format (name : String) : Format := if name.endsWith ".npy" then .plain else .astronomical

/-- The first plane of data, with a report for each axis that goes. The number of
axes bounds the number of steps. -/
def firstPlane : Nat → Shaped Float → Shaped Float × List (Event Float)
  | 0, s => (s, [])
  | fuel + 1, s =>
    if s.shape.length ≤ 2 then (s, [])
    else
      let (plane, events) := firstPlane fuel s.first
      (plane, .planeTaken s.shape.length :: events)

/-- The image in astronomical data. -/
def ofAstronomical (d : Data) : Data × List (Event Float) :=
  let (plane, events) := firstPlane d.values.shape.length d.doubles.squeezed
  (Data.ofDoubles plane, events)

/-- How archives begin: with their first entry, or, of plain data only, with the
end of an empty one. -/
def archiveStarts : Format → List String
  | .plain => ["PK\x03\x04", "PK\x05\x06"]
  | .astronomical => ["PK\x03\x04"]

/-- What is wrong with the file of an astronomical image. -/
def faultOf : AstronomicalFile.Fault → FileFault
  | .format => .wrongFormat .astronomical
  | .element => .noElement
  | .noAxes => .noAxes
  | .tooShort => .tooShort

/-- The data in a text. -/
def ofText (expected : Format) (t : String) : Except FileFault (Data × List (Event Float)) :=
  if (archiveStarts expected).any (fun start => t.startsWith start) then .error .archive
  else
    match expected with
    | .plain => .error (if t = "" then .empty else .wrongFormat .plain)
    | .astronomical => ((AstronomicalFile.read t.toUTF8).map ofAstronomical).mapError faultOf

/-- The data of an item in a format. -/
def ofItem (expected : Format) : Item → Except FileFault (Data × List (Event Float))
  | .directory => .error .directory
  | .data format d =>
    if format ≠ expected then .error (.wrongFormat expected)
    else
      match format with
      | .plain => if d.element = .anything then .error (.wrongFormat .plain) else .ok (d, [])
      | .astronomical => .ok (ofAstronomical d)
  | .text t => ofText expected t
  | .other => .error (.wrongFormat expected)

/-- The data of the file of a name, with what is reported on the way. -/
def load (s : Store) (name : String) : Except FileFault (Data × List (Event Float)) := do
  if name = "" then .error .noName
  ofItem (format name) (← s.read (Path.ofText name))

end SkySources.ImageFile
