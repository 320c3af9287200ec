import SkySources.CommandLine.Argument
import SkySources.Store

/-!
# Command lines

A command line names files and sets options. The plain arguments up to the next
option are the files; there is one such group, and what is left over is not
understood. An option takes its value from the same argument or from the next
one. What an option says is kept in the order of the command line, so that the
last word on a setting counts.
-/

namespace SkySources.CommandLine

/-- What one option said. -/
structure Saying where
  target : Target
  value : Value

/-- A command line that has been read up to some argument. -/
structure Reading where
  sayings : List Saying
  /-- The files, once there are any. -/
  files : Option (List String)
  /-- What is not understood. -/
  extras : List String

/-- What a command line asks for. -/
structure Request where
  sayings : List Saying
  files : List String

/-- Why a command line is not carried out. -/
inductive Stop where
  /-- The options are to be listed. -/
  | help
  | usage (e : UsageError)

namespace Reading

/-- Nothing read yet. -/
def empty : Reading := ⟨[], none, []⟩

/-- The reading with one more saying; a wish for help ends it. -/
def say (r : Reading) (target : Target) (value : Value) : Except Stop Reading :=
  if target = .help then .error .help else .ok { r with sayings := r.sayings ++ [⟨target, value⟩] }

/-- The reading with a group of arguments that are no options. The first group
with a plain one holds the files; the mark is none of them. -/
def place (r : Reading) (group : List Argument) : Reading :=
  let texts := group.map (·.text)
  if r.files.isNone && group.any (·.look = .plain) then { r with files := some (texts.erase "--") }
  else { r with extras := r.extras ++ texts }

/-- The reading with a value that an option takes. The mark as a value stands for
no value at all: what is said is then an empty list. -/
def take (r : Reading) (c : Choice) (text : String) : Except Stop Reading :=
  if text = "--" then r.say c.target (.list [])
  else
    match c.readValue text with
    | .ok value => r.say c.target value
    | .error e => .error (.usage e)

/-- The reading of letters right behind the short name of an option that takes no
value: each has to be a short name of the option once more, or else the letters
are a value that is not wanted. -/
def repeated (r : Reading) (c : Choice) : List Char → Except Stop Reading
  | [] => r.say c.target (c.sayingOf "")
  | letter :: letters =>
    if c.names.contains (String.ofList ['-', letter]) then repeated r c letters
    else .error (.usage (.strayValue c (String.ofList (letter :: letters))))

/-- The reading with an option that a value follows in the same argument. -/
def attach (r : Reading) (c : Choice) (name value : String) : Except Stop Reading :=
  if c.form.takesValue then r.take c value
  else if name.startsWith "--" || value.isEmpty then .error (.usage (.strayValue c value))
  else r.repeated c value.toList

/-- The reading of all arguments, where some that are no options wait to be
placed. -/
def readAll (r : Reading) (waiting : List Argument) : List Argument → Except Stop Reading
  | [] => .ok (if waiting.isEmpty then r else r.place waiting)
  | a :: rest =>
    let placed := if waiting.isEmpty then r else r.place waiting
    match a.look with
    | .plain | .dashes => readAll r (waiting ++ [a]) rest
    | .unknown => readAll { placed with extras := placed.extras ++ [a.text] } [] rest
    | .choice c name (some value) =>
      match placed.attach c name value with
      | .ok r => readAll r [] rest
      | .error stop => .error stop
    | .choice c name none =>
      if c.form.takesValue then
        match rest with
        | ⟨text, .plain⟩ :: rest =>
          match placed.take c text with
          | .ok r => readAll r [] rest
          | .error stop => .error stop
        | _ => .error (.usage (.noValue c))
      else
        match placed.say c.target (c.sayingOf name) with
        | .ok r => readAll r [] rest
        | .error stop => .error stop

/-- The request that a reading ends with. -/
def request (r : Reading) : Except Stop Request :=
  match r.files with
  | none => .error (.usage .noFiles)
  | some files =>
    if r.extras.isEmpty then .ok ⟨r.sayings, files⟩
    else .error (.usage (.unrecognised r.extras))

end Reading

/-- What the arguments of a command line ask for. -/
def parse (args : List String) : Except Stop Request :=
  match arguments args with
  | .error e => .error (.usage e)
  | .ok marked =>
    match Reading.empty.readAll [] marked with
    | .error stop => .error stop
    | .ok r => r.request

namespace Request

/-- The last word on a target. -/
def last? (r : Request) (target : Target) : Option Value :=
  (r.sayings.reverse.find? fun s => s.target = target).map (·.value)

/-- The settings of some names that are set. -/
def tableOf (r : Request) (target : String → Target) (names : List String) : Table :=
  names.filterMap fun name => (r.last? (target name)).map fun value => (name, value)

/-- The settings of the search that are set. -/
def search (r : Request) : Table := r.tableOf .search SearchSettings.names

/-- The settings of the export that are set. -/
def output (r : Request) : Table := r.tableOf .output ExportSettings.names

/-- The name of the file of settings, if one is asked for. -/
def configFile? (r : Request) : Option Value := r.last? .configFile

end Request

/-- Why there are no settings for a run. -/
inductive SettingsStop where
  /-- What should name the file of settings is no text. -/
  | noFileName
  | file (f : FileFault)
  | settings (f : SettingsFault)

/-- The settings that a request leads to: what it sets counts more than the file
of settings, and that more than the defaults. -/
def Request.settings (r : Request) (store : Store) :
    Except SettingsStop (SearchSettings × ExportSettings) :=
  let base : Except SettingsStop Settings :=
    match r.configFile? with
    | none => .ok .default
    | some (.text name) =>
      match store.readText name with
      | .error f => .error (.file f)
      | .ok text => (Settings.ofText text).mapError .settings
    | some _ => .error .noFileName
  match base with
  | .error stop => .error stop
  | .ok settings => (settings.changed r.search r.output).mapError .settings

end SkySources.CommandLine
