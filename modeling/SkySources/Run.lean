import SkySources.Catalogue
import SkySources.CommandLine
import SkySources.ImageFile
import SkySources.Settings.Plan
import SkySources.Summary

/-!
# Runs

A run goes over image files in order. Each image is surveyed, what is to be
exported is written next to the results of the others, and a line announces each
file; the summaries come last, all at once. A failure ends the run, and what was
written and announced until then stays.
-/

namespace SkySources

/-- Why a run comes to no end. -/
inductive RunFault where
  | file (f : FileFault)
  | data (f : Data.Fault)
  | search (f : SearchFault)
  /-- A fitted Gaussian cannot be evaluated. -/
  | gaussian (f : Gaussian.Fault)
  | catalogue (f : Catalogue.Fault)

/-- A run up to some point. -/
structure Progress where
  store : Store
  /-- What was printed. -/
  printed : String
  /-- What was reported. -/
  events : List (Event Float)
  /-- The summaries of the images so far. -/
  summaries : String

/-- A part of a run; a failure keeps the progress. -/
abbrev Run := EStateM RunFault Progress

namespace Run

/-- An outcome that may be a failure. -/
def lift {α β : Type} (fault : α → RunFault) : Except α β → Run β
  | .ok b => pure b
  | .error a => throw (fault a)

/-- Something is printed. -/
def print (text : String) : Run Unit := modify fun p => { p with printed := p.printed ++ text }

/-- Something is reported. -/
def report (events : List (Event Float)) : Run Unit :=
  modify fun p => { p with events := p.events ++ events }

/-- The summary of an image is added. -/
def summarise (text : String) : Run Unit :=
  modify fun p => { p with summaries := p.summaries ++ text }

/-- The files are changed. -/
def change (f : Store → Except FileFault Store) : Run Unit := do
  let store ← lift .file (f (← get).store)
  modify fun p => { p with store := store }

/-- The line that announces a file. -/
def announcement (name : String) (number count : Nat) : String :=
  "Processing " ++ name ++ " (file " ++ Decimal.digitsText number ++ " of "
    ++ Decimal.digitsText count ++ ").\n"

/-- Whole numbers as data. -/
def labelItem {rows cols : Nat} (labels : Grid rows cols Nat) : Item :=
  .data .plain ⟨.signed 32, (Image.mk labels).shaped.map fun n => .whole (Int.ofNat n)⟩

/-- Doubles as data. -/
def doubleItem {rows cols : Nat} (g : Grid rows cols Float) : Item :=
  .data .plain (Data.ofDoubles (Image.mk g).shaped)

/-- The settings of a search whose label map is to be exported. -/
def searchFor (search : SearchSettings) (output : ExportSettings) : SearchSettings :=
  { search with labelMap := search.labelMap || output.labelMap }

/-- Something is written to the directory of the exports. -/
def save (output : ExportSettings) (name : String) (item : Item) : Run Unit :=
  change fun store => store.write ((Path.ofText output.directory).clean.child name) item

/-- The exports of a survey, in a fixed order. -/
def exportAll {rows cols : Nat} (output : ExportSettings) (stem : String)
    (data : Grid rows cols Float) (survey : Survey rows cols Float) : Run Unit := do
  match output.labelMap, survey.labels with
  | true, some labels => save output (stem ++ ".labelmap.npy") (labelItem labels)
  | _, _ => pure ()
  if output.residuals then
    save output (stem ++ ".residuals.npy") (doubleItem (← lift .gaussian (survey.residual? data)))
  if output.catalogue then
    save output (stem ++ ".csv") (.text (← lift .catalogue (Catalogue.text? survey.islands)))

/-- One file, the given one of so many. -/
def file (search : SearchSettings) (output : ExportSettings) (number count : Nat) (name : String) :
    Run Unit := do
  print (announcement name number count)
  let (data, events) ← lift .file (ImageFile.load (← get).store name)
  report events
  let image ← lift .data data.image?
  let (events, outcome) := (searchFor search output).survey image.grid
  report events
  let survey ← lift .search outcome
  exportAll output (Path.stem (Path.lastPart name)) image.grid survey
  summarise (Summary.text name survey.background.mean survey.background.sigma survey.islands)

/-- Several files, the first of which has a number. -/
def files (search : SearchSettings) (output : ExportSettings) (count : Nat) :
    Nat → List String → Run Unit
  | _, [] => pure ()
  | number, name :: rest => do
    file search output number count name
    files search output count (number + 1) rest

/-- All files, with the directory of the exports made first and the summaries
printed last. -/
def all (search : SearchSettings) (output : ExportSettings) (names : List String) : Run Unit := do
  change fun store => store.makeDirectories (Path.ofText output.directory)
  files search output names.length 1 names
  print (← get).summaries

end Run

namespace CommandLine

/-- Why a command line does not succeed. -/
inductive Failure where
  | stop (s : Stop)
  | settings (s : SettingsStop)
  | run (f : RunFault)

/-- What carrying out a command line leads to. -/
structure Outcome where
  store : Store
  printed : String
  events : List (Event Float)
  failure : Option Failure
  /-- Whether every stage was to report. -/
  debug : Bool

/-- The outcome without a run. -/
def Outcome.early (store : Store) (failure : Failure) : Outcome :=
  ⟨store, "", [], some failure, false⟩

/-- A command line is carried out. -/
def execute (store : Store) (args : List String) : Outcome :=
  match parse args with
  | .error stop => .early store (.stop stop)
  | .ok request =>
    match request.settings store with
    | .error stop => .early store (.settings stop)
    | .ok (search, output) =>
      match (Run.all search output request.files).run ⟨store, "", [], ""⟩ with
      | .ok _ p => ⟨p.store, p.printed, p.events, none, search.debug⟩
      | .error f p => ⟨p.store, p.printed, p.events, some (.run f), search.debug⟩

end CommandLine
end SkySources
