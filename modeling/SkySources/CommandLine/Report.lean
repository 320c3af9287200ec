import SkySources.Run

/-!
# What the user is told

Every failure has a text and a code that the program ends with. The options are
listed with the kind of value that they take.
-/

namespace SkySources

/-- The text of settings that cannot be used. -/
def SettingsFault.text (f : SettingsFault) : String :=
  f.message?.getD (match f with
    | unreadable _ => "the file of settings is malformed"
    | refused (.unknownName name) => "unknown setting " ++ Text.quoted name
    | _ => "the sections of the file of settings are not tables of settings")

/-- The text of a search that cannot be carried out. -/
def SearchFault.text : SearchFault → String
  | refused r => r.message
  | tooLarge => "a setting is too large"
  | survey .noWorkers => "there must be at least one thread"
  | survey (.inverted b) | survey (.fit (.inverted b)) => b.message
  | survey (.fit _) => "there may be no more evaluations than can be counted"

/-- The text of a Gaussian that cannot be evaluated. -/
def Gaussian.Fault.text : Gaussian.Fault → String
  | divisionByZero => "division by zero"
  | overflow => "a power is too large for a float"

/-- The text of a catalogue that cannot be written. -/
def Catalogue.Fault.text : Catalogue.Fault → String
  | longNumber => "a whole number has too many digits"
  | tooLarge => "a whole number is too large for a float"

/-- The text of a run that comes to no end. -/
def RunFault.text : RunFault → String
  | file f => f.message
  | data f => f.message
  | search f => f.text
  | gaussian f => f.text
  | catalogue f => f.text

namespace CommandLine

/-- The word for the value that an option takes, after a space. -/
def Form.text : Form → String
  | whole [] => " INTEGER"
  | whole choices => " " ++ "|".intercalate (choices.map Decimal.integerText)
  | float => " NUMBER"
  | word [] => " TEXT"
  | word choices => " " ++ "|".intercalate choices
  | yes | yesOrNo => ""

/-- The line for an option. -/
def Choice.line (c : Choice) : String := "  " ++ ", ".intercalate c.names ++ c.form.text ++ "\n"

/-- The list of the options. -/
def helpText : String :=
  "usage: sky-sources [options] files ...\n\noptions:\n" ++ String.join (Choice.all.map Choice.line)

/-- The text of a failure; a wish for the list of options is answered by the
list and is no failure. -/
def Failure.text : Failure → String
  | stop .help => ""
  | stop (.usage e) => e.message
  | settings .noFileName => "the name of the file of settings is missing"
  | settings (.file f) => f.message
  | settings (.settings f) => f.text
  | run f => f.text

/-- The code that the program ends with. -/
def exitCode : Option Failure → Nat
  | none | some (.stop .help) => 0
  | some (.stop (.usage _)) => 2
  | some _ => 1

/-- Whether an event is shown: all of them if every stage is to report, and only
warnings otherwise. -/
def shows (debug : Bool) (e : Event Float) : Bool := debug || e.gravity = .warning

/-- The line for an event. -/
def eventLine (e : Event Float) : String :=
  e.gravity.name ++ ":" ++ e.stage.name ++ ":" ++ e.message

/-- What is printed: the list of options if it is wished for, and else what the
run announced. -/
def Outcome.output (o : Outcome) : String :=
  match o.failure with
  | some (.stop .help) => helpText
  | _ => o.printed

/-- The lines about events and the failure. -/
def Outcome.remarks (o : Outcome) : List String :=
  let events := (o.events.filter (shows o.debug)).map eventLine
  match o.failure with
  | none | some (.stop .help) => events
  | some f => events ++ ["sky-sources: error: " ++ f.text]

/-- The names of the files and directories that a command line depends on. -/
def namesNeeded (store : Store) (args : List String) : List String :=
  match parse args with
  | .error _ => []
  | .ok request =>
    let output := match request.settings store with
      | .ok (_, output) => [output.directory]
      | .error _ => []
    let config := match request.configFile? with
      | some (.text name) => [name]
      | _ => []
    config ++ output ++ request.files

end CommandLine
end SkySources
