import SkySources.Settings.Quantity
import SkySources.Value.Kind

/-!
# Reading a section of settings

A section is read setting by setting. A setting that is not given keeps its
default; one that is given must be of a kind that the setting admits, or be one
of its choices. Names that no setting has are refused before anything else.
-/

namespace SkySources

/-- Why a section of settings is refused. -/
inductive SectionFault where
  /-- No setting has the name. -/
  | unknownName (name : String)
  /-- A value is not what the setting asks for. -/
  | mismatch (m : Mismatch)

namespace Table

/-- The value of a setting as something else; its default if it is not given. -/
def setting {β : Type} (t : Table) (name : String) (kinds : List Kind) (read : Value → Option β)
    (default : β) : Except Mismatch β :=
  match t.get? name with
  | none => .ok default
  | some v =>
    match read v with
    | some b => .ok b
    | none => .error (.kind name v kinds)

/-- The quantity that a value stands for. -/
def quantity? : Value → Option Quantity
  | .whole n => some (.whole n)
  | .float x => some (.float x)
  | _ => none

/-- The count that a value stands for. -/
def count? : Value → Option Count
  | .whole n => some (.whole n)
  | .truth b => some (.truth b)
  | _ => none

/-- The truth value that a value is. -/
def truth? : Value → Option Bool
  | .truth b => some b
  | _ => none

/-- The text that a value is. -/
def text? : Value → Option String
  | .text s => some s
  | _ => none

/-- What a value stands for if it may be absent. -/
def orAbsent {β : Type} (read : Value → Option β) : Value → Option (Option β)
  | .nothing => some none
  | v => (read v).map some

/-- A setting that is a quantity. -/
def quantity (t : Table) (name : String) (default : Quantity) : Except Mismatch Quantity :=
  t.setting name [.float] quantity? default

/-- A setting that is a quantity or absent. -/
def quantityOrAbsent (t : Table) (name : String) (default : Option Quantity) :
    Except Mismatch (Option Quantity) :=
  t.setting name [.float, .nothing] (orAbsent quantity?) default

/-- A setting that is a count. -/
def count (t : Table) (name : String) (default : Count) : Except Mismatch Count :=
  t.setting name [.whole] count? default

/-- A setting that is a count or absent. -/
def countOrAbsent (t : Table) (name : String) (default : Option Count) :
    Except Mismatch (Option Count) :=
  t.setting name [.whole, .nothing] (orAbsent count?) default

/-- A setting that is a truth value. -/
def truth (t : Table) (name : String) (default : Bool) : Except Mismatch Bool :=
  t.setting name [.truth] truth? default

/-- A setting that is a text. -/
def text (t : Table) (name : String) (default : String) : Except Mismatch String :=
  t.setting name [.text] text? default

/-- The choice that a text names. -/
def choose {β : Type} (name text : String) (choices : List β) (nameOf : β → String) :
    Except Mismatch β :=
  match choices.find? fun c => nameOf c = text with
  | some c => .ok c
  | none => .error (.choice name (.text text) (choices.map nameOf))

/-- The first name that is none of the known ones. -/
def unknown? (t : Table) (known : List String) : Option String :=
  t.names.find? fun name => !known.contains name

/-- What a section is read as, unless it has an unknown name. -/
def read {β : Type} (t : Table) (known : List String) (body : Except Mismatch β) :
    Except SectionFault β :=
  match t.unknown? known with
  | some name => .error (.unknownName name)
  | none => body.mapError .mismatch

end Table
end SkySources
