import SkySources.Settings
import SkySources.Text.Number
import SkySources.Text.Quoted

/-!
# Options of the command line

Every option has one or more names and says what it sets: a setting of the
search, one of the export, or something about the run itself. Some options take
a value, which is read as a number or a word; the others say yes, and those with
a second name that begins with `--no-` say no by it.
-/

namespace SkySources.CommandLine

/-- What an option sets. -/
inductive Target where
  /-- Nothing: the options are listed, and nothing else is done. -/
  | help
  /-- The file of settings. -/
  | configFile
  /-- Whether a debugger is started after a failure. -/
  | debugger
  /-- A setting of the search. -/
  | search (name : String)
  /-- A setting of the export. -/
  | output (name : String)
  deriving DecidableEq, Repr

/-- How an option takes its value. -/
inductive Form where
  /-- A whole number, one of the choices if there are any. -/
  | whole (choices : List Int)
  /-- A float. -/
  | float
  /-- A text, one of the choices if there are any. -/
  | word (choices : List String)
  /-- None: naming the option says yes. -/
  | yes
  /-- None: the first name says yes, the second one no. -/
  | yesOrNo
  deriving DecidableEq, Repr

namespace Form

/-- Whether the option takes a value. -/
def takesValue : Form → Bool
  | whole _ | float | word _ => true
  | yes | yesOrNo => false

end Form

/-- An option. -/
structure Choice where
  names : List String
  target : Target
  form : Form
  deriving DecidableEq, Repr

namespace Choice

/-- All names of an option. -/
def shown (c : Choice) : String := "/".intercalate c.names

/-- An option with a value for a setting of the search. -/
def search (name setting : String) (form : Form) : Choice := ⟨[name], .search setting, form⟩

/-- An option with two names for a setting of the search. -/
def switch (name setting : String) : Choice :=
  ⟨["--" ++ name, "--no-" ++ name], .search setting, .yesOrNo⟩

/-- An option for a setting of the export. -/
def output (name setting : String) (form : Form) : Choice := ⟨[name], .output setting, form⟩

/-- Every option. -/
def all : List Choice :=
  [⟨["-h", "--help"], .help, .yes⟩,
    ⟨["--config-file"], .configFile, .word []⟩,
    ⟨["--pdb"], .debugger, .yes⟩,
    search "--detection-n-sigma" "detection_n_sigma" .float,
    search "--analysis-n-sigma" "analysis_n_sigma" .float,
    search "--rms-estimate" "rms_estimate" .float,
    switch "find-negative-sources" "find_negative_sources",
    search "--sigma-clip-iters" "sigma_clip_iters" (.whole []),
    search "--clip-n-sigma" "clip_n_sigma" .float,
    search "--median-method" "median_method" (.word (Median.Method.all.map Median.Method.name)),
    search "--binapprox-bins" "binapprox_bins" (.whole []),
    switch "compute-barycentre" "compute_barycentre",
    switch "gaussian-fitting" "gaussian_fitting",
    search "--connectivity" "connectivity" (.whole [4, 8]),
    switch "generate-labelmap" "generate_labelmap",
    search "--source-min-area" "source_min_area" (.whole []),
    search "--diff-method" "diff_method" (.word (Differencing.all.map Differencing.name)),
    search "--solver-type" "solver_type" (.word (Solver.all.map Solver.name)),
    search "--fit-margin" "fit_margin" (.whole []),
    search "--max-iterations" "max_iterations" (.whole []),
    search "--nr-threads" "nr_threads" (.whole []),
    search "--debug" "debug" .yes,
    output "--output-dir" "output_dir" (.word []),
    output "--labelmap" "labelmap" .yes,
    output "--residuals" "residuals" .yes,
    output "--csv" "csv" .yes]

/-- Every name of an option with the option. -/
def named : List (String × Choice) := all.flatMap fun c => c.names.map fun name => (name, c)

/-- The option of a name. -/
def ofName? (name : String) : Option Choice := named.lookup name

end Choice

/-- Why a command line is refused. -/
inductive UsageError where
  /-- The beginning of a name fits several names. -/
  | ambiguous (argument : String) (names : List String)
  /-- An option has no value. -/
  | noValue (c : Choice)
  /-- An option that takes no value has one. -/
  | strayValue (c : Choice) (value : String)
  /-- A value is not of the kind that the option takes. -/
  | badValue (c : Choice) (kind value : String)
  /-- A value is none of the choices; both are given as they are shown. -/
  | badChoice (c : Choice) (value : String) (choices : List String)
  /-- There are no files. -/
  | noFiles
  /-- Some arguments are not understood. -/
  | unrecognised (arguments : List String)
  deriving DecidableEq, Repr

namespace UsageError

/-- What is wrong with the value of an option. -/
def about (c : Choice) (complaint : String) : String := "argument " ++ c.shown ++ ": " ++ complaint

/-- The text of a usage error. -/
def message : UsageError → String
  | ambiguous argument names =>
    "ambiguous option: " ++ argument ++ " could match " ++ ", ".intercalate names
  | noValue c => about c "expected one argument"
  | strayValue c value => about c ("ignored explicit argument " ++ Text.quoted value)
  | badValue c kind value => about c ("invalid " ++ kind ++ " value: " ++ Text.quoted value)
  | badChoice c value choices =>
    about c ("invalid choice: " ++ value ++ " (choose from " ++ ", ".intercalate choices ++ ")")
  | noFiles => "the following arguments are required: files"
  | unrecognised arguments => "unrecognized arguments: " ++ " ".intercalate arguments

end UsageError

namespace Choice

/-- The value, if there are no choices or it is one of them. -/
def among {β : Type} [BEq β] (c : Choice) (shown : β → String) (choices : List β) (value : β) :
    Except UsageError β :=
  if choices.isEmpty || choices.contains value then .ok value
  else .error (.badChoice c (shown value) (choices.map shown))

/-- What a text means as the value of an option that takes one. -/
def readValue (c : Choice) (text : String) : Except UsageError Value :=
  match c.form with
  | .whole choices =>
    match Text.whole? text with
    | some n => (c.among Decimal.integerText choices n).map .whole
    | none => .error (.badValue c "int" text)
  | .float =>
    match Text.float? text with
    | some x => .ok (.float x)
    | none => .error (.badValue c "float" text)
  | .word choices => (c.among Text.quoted choices text).map .text
  | .yes | .yesOrNo => .error (.strayValue c text)

/-- What an option without a value says by one of its names. -/
def sayingOf (c : Choice) (name : String) : Value :=
  .truth (c.form = .yes || c.names.head? = some name)

end Choice
end SkySources.CommandLine
