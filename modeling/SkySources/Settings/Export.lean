import SkySources.Settings.Reader

/-!
# Settings of the export

Which results of a search are written to files, and where.
-/

namespace SkySources

/-- The settings of the export. -/
structure ExportSettings where
  /-- The directory of the files. -/
  directory : String := "."
  /-- Whether the label map is written. -/
  labelMap : Bool := false
  /-- Whether the image without the fitted Gaussians is written. -/
  residuals : Bool := false
  /-- Whether a catalogue is written. -/
  catalogue : Bool := false
  deriving DecidableEq, Repr

namespace ExportSettings

/-- The values of the settings by their names. -/
def toTable (s : ExportSettings) : Table :=
  [("output_dir", .text s.directory),
    ("labelmap", .truth s.labelMap),
    ("residuals", .truth s.residuals),
    ("csv", .truth s.catalogue)]

/-- The names of the settings. -/
def names : List String := (toTable {}).names

/-- The settings that a table gives for some that it changes. -/
def changed (s : ExportSettings) (t : Table) : Except Mismatch ExportSettings := do
  let directory ← t.text "output_dir" s.directory
  let labelMap ← t.truth "labelmap" s.labelMap
  let residuals ← t.truth "residuals" s.residuals
  let catalogue ← t.truth "csv" s.catalogue
  return { directory, labelMap, residuals, catalogue }

/-- The settings that a table gives; the others have their defaults. -/
def ofTable? (t : Table) : Except SectionFault ExportSettings := t.read names (changed {} t)

end ExportSettings
end SkySources
