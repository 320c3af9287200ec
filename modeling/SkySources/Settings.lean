import SkySources.Settings.Export
import SkySources.Settings.Search
import SkySources.Toml
import SkySources.Value.Absent

/-!
# Settings of a run

The settings of a run come from two sections of a document, one for the search
and one for the export. A section that is missing has its defaults. Where a
section should stand, a document may have something else than a table; that is
kept as it is, and cannot be changed later.
-/

namespace SkySources

/-- What stands in the place of a section. -/
inductive Slot (α : Type) where
  /-- A table of settings, which has been read. -/
  | filled (settings : α)
  /-- Anything else. -/
  | stray (v : Value)

/-- The settings of a run. -/
structure Settings where
  search : Slot SearchSettings
  output : Slot ExportSettings

/-- Why there are no settings. -/
inductive SettingsFault where
  /-- The document cannot be read. -/
  | unreadable (f : Toml.Fault)
  /-- The document has no section for tools. -/
  | noTools
  /-- The document has no section for this tool. -/
  | noSection
  /-- The section for this tool is empty. -/
  | emptySection
  /-- The two sections are not given, or others are. -/
  | wrongSections
  /-- A section is refused. -/
  | refused (f : SectionFault)
  /-- What should be changed is no section. -/
  | straySection

namespace SettingsFault

/-- The text of a fault, where it has one of its own. -/
def message? : SettingsFault → Option String
  | noTools => some "tool: top-level section missing in config file"
  | noSection => some "tool.stp: section for stp missing in config file"
  | emptySection => some "tool.stp: empty section in config file"
  | refused (.mismatch m) => some m.message
  | _ => none

end SettingsFault

namespace Slot

/-- A value in the place of a section. -/
def ofValue {α : Type} (read : Table → Except SectionFault α) : Value → Except SectionFault (Slot α)
  | .table t => (read t).map .filled
  | v => .ok (.stray v)

/-- The settings of a section with some of them changed. -/
def changed {α : Type} (change : α → Except Mismatch α) : Slot α → Except SettingsFault α
  | filled settings => (change settings).mapError fun m => .refused (.mismatch m)
  | stray _ => .error .straySection

/-- The value of what stands in the place of a section. -/
def toValue {α : Type} (toTable : α → Table) : Slot α → Value
  | filled settings => .table (toTable settings)
  | stray v => v

end Slot

namespace Settings

/-- The settings without a document. -/
def default : Settings := ⟨.filled {}, .filled {}⟩

/-- The settings of two values, of which tables are read. -/
def ofValues (search output : Value) : Except SettingsFault Settings :=
  match Slot.ofValue SearchSettings.ofTable? search with
  | .error f => .error (.refused f)
  | .ok search =>
    match Slot.ofValue ExportSettings.ofTable? output with
    | .error f => .error (.refused f)
    | .ok output => .ok ⟨search, output⟩

/-- The names of the sections. -/
def sectionNames : List String := ["sourcefind", "export"]

/-- The settings of a table that must have both sections and nothing else. -/
def ofTable? (t : Table) : Except SettingsFault Settings :=
  match t.unknown? sectionNames, t.get? "sourcefind", t.get? "export" with
  | none, some search, some output => ofValues search output
  | _, _, _ => .error .wrongSections

/-- The settings of the section for this tool; a missing section is empty. -/
def ofSection (t : Table) : Except SettingsFault Settings :=
  ofValues ((t.get? "sourcefind").getD (.table [])) ((t.get? "export").getD (.table []))

/-- The settings of a document. -/
def ofDocument (document : Table) : Except SettingsFault Settings :=
  match document.get? "tool" with
  | some (.table tools) =>
    match Table.get? tools "stp" with
    | some (.table []) => .error .emptySection
    | some (.table t) => ofSection t
    | _ => .error .noSection
  | _ => .error .noTools

/-- The settings of the text of a document. -/
def ofText (text : String) : Except SettingsFault Settings :=
  match Toml.document text with
  | .error f => .error (.unreadable f)
  | .ok t =>
    match (Value.table t).withAbsent? with
    | some (.table t) => ofDocument t
    | _ => .error (.unreadable .tooDeep)

/-- The settings of both sections with some of them changed. -/
def changed (s : Settings) (search output : Table) :
    Except SettingsFault (SearchSettings × ExportSettings) :=
  match s.search.changed (SearchSettings.changed · search) with
  | .error f => .error f
  | .ok search =>
    (s.output.changed (ExportSettings.changed · output)).map fun output => (search, output)

/-- The values of both sections. -/
def toTable (s : Settings) : Table :=
  [("sourcefind", s.search.toValue SearchSettings.toTable),
    ("export", s.output.toValue ExportSettings.toTable)]

end Settings
end SkySources
