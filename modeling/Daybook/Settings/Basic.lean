import Daybook.Settings.Value

/-!
# Settings

The settings come in layers, one above the other: what is built in, the file of the user, a file
that is named on the command line, and environment variables.  For each key the highest layer that
has it wins, whatever the layers say about other keys, and only the value that wins is looked at.
-/

namespace Daybook

/-- **The settings.** -/
structure Settings where
  /-- The file of the agenda that is shown when none is named. -/
  agendaPath : String
  /-- The least height of an entry in the view of a day, in seconds. -/
  leastSeconds : Int64
  /-- The minutes of a row of the grid. -/
  slotMinutes : Int64
  deriving DecidableEq

/-- **Why there are no settings.** -/
inductive Settings.Fault where
  /-- A file is no TOML document. -/
  | unreadable
  /-- A value is of the wrong type. -/
  | wrongType (key : String) (found : Setting) (expected : String)
  /-- A whole number is too great. -/
  | outOfRange (key : String) (value : Nat)
  /-- The text of a variable is cut within a character. -/
  | torn

/-- **What a file holds.** -/
inductive TextFile where
  /-- There is no file. -/
  | missing
  /-- The file holds no text, or cannot be opened. -/
  | unreadable
  | text (s : String)
  deriving DecidableEq

/-- **What settings are made from.** -/
structure SettingsSources where
  /-- The directory of the user's data, if it is known. -/
  dataDirectory : Option String
  /-- The file of the user. -/
  userFile : TextFile
  /-- The file that is named on the command line. -/
  namedFile : TextFile
  /-- The environment variables, by name and value. -/
  environment : List (String × String)

namespace Settings

/-! ### Layers -/

/-- **A layer of settings**: values by key. -/
abbrev Layer := List (String × Setting)

/-- A path from a directory and a name in it. -/
def joinPath (directory name : String) : String :=
  if directory.isEmpty then name
  else if directory.endsWith "/" then directory ++ name
  else directory ++ "/" ++ name

/-- The agenda in the directory of the user's data. -/
def defaultAgendaPath (dataDirectory : Option String) : String :=
  match dataDirectory with
  | some directory => joinPath (joinPath directory "jks") "agenda.json"
  | none => "./agenda.json"

/-- The key of the agenda's path. -/
def agendaPathKey : String := "agenda_path"

/-- The key of the least height. -/
def leastSecondsKey : String := "min_duration_secs"

/-- The key of the minutes of a row. -/
def slotMinutesKey : String := "slot_minutes"

/-- The settings that are built in: a quarter of an hour, and half an hour a row. -/
def builtIn (dataDirectory : Option String) : Settings :=
  { agendaPath := defaultAgendaPath dataDirectory, leastSeconds := 900, slotMinutes := 30 }

/-- The layer of a file.  A file that is not there has no settings. -/
def ofFile : TextFile → Except Fault Layer
  | .missing => .ok []
  | .unreadable => .error .unreadable
  | .text s =>
    match Toml.parse? s.toList with
    | some entries => .ok (entries.map fun (key, value) => (key, .ofToml value))
    | none => .error .unreadable

/-- What the names of variables begin with, in any case. -/
def variableStart : List Char := ['j', 'k', 's', '_']

/-- The parts, between points, of the key that a variable is for, if its name is one of ours. -/
def keyParts? (name : String) : Option (List String) :=
  let lower := (Text.trim name.toList).map Char.toLower
  if variableStart.isPrefixOf lower then
    let parts := (String.ofList (Text.trim (lower.drop variableStart.length))).splitOn "."
    if parts.any String.isEmpty then none else some parts
  else none

/-- The entry of a variable, if its name is one of ours.  Of a name with points only the first part
is a key of the settings, and the rest a key within its value. -/
def ofVariable (name value : String) : Except Fault (Option (String × Setting)) :=
  match keyParts? name, Setting.ofVariable? value with
  | none, _ => .ok none
  | some _, none => .error .torn
  | some [key], some value => .ok (some (key, value))
  | some parts, some _ => .ok (some (parts.headD "", .map))

/-- The layer of the environment.  Of variables for one key the last one counts, but none may be
torn. -/
def ofEnvironment (environment : List (String × String)) : Except Fault Layer := do
  let entries ← environment.mapM fun (name, value) => ofVariable name value
  return (entries.filterMap id).reverse

/-- The value of a key in the highest layer that has it, the lowest layer last. -/
def lookup? (key : String) : List Layer → Option Setting
  | [] => none
  | layer :: below =>
    match layer.lookup key with
    | some value => some value
    | none => lookup? key below

/-! ### Using the values -/

/-- The value of a key as a path. -/
def path (key : String) : Setting → Except Fault String
  | .text s => .ok s
  | found => .error (.wrongType key found "path string")

/-- The value of a key as a whole number. -/
def number (key : String) : Setting → Except Fault Int64
  | .signed n => .ok n
  | .unsigned n => if n < Nat.pow 2 63 then .ok (Int64.ofNat n) else .error (.outOfRange key n)
  | found => .error (.wrongType key found "i64")

/-- The value of a key in some layers, the highest first, or what is built in. -/
def use (reader : String → Setting → Except Fault α) (key : String) (layers : List Layer)
    (otherwise : α) : Except Fault α :=
  match lookup? key layers with
  | some value => reader key value
  | none => .ok otherwise

/-- The settings of some layers, the highest first, above those that are built in. -/
def ofLayers (builtIn : Settings) (layers : List Layer) : Except Fault Settings := do
  let agendaPath ← use path agendaPathKey layers builtIn.agendaPath
  let leastSeconds ← use number leastSecondsKey layers builtIn.leastSeconds
  let slotMinutes ← use number slotMinutesKey layers builtIn.slotMinutes
  return { agendaPath, leastSeconds, slotMinutes }

/-- **The settings.**  A variable that is torn is the first fault, then a file without a document,
and at last a value that does not fit. -/
def load (sources : SettingsSources) : Except Fault Settings := do
  let environment ← ofEnvironment sources.environment
  let user ← ofFile sources.userFile
  let named ← ofFile sources.namedFile
  ofLayers (builtIn sources.dataDirectory) [environment, named, user]

/-! ### Faults -/

namespace Fault

/-- The key at which a fault was found; none if it is not about a value. -/
def key : Fault → String
  | .unreadable => ""
  | .wrongType key _ _ => key
  | .outOfRange key _ => key
  | .torn => ""

/-- The text of a fault; there is none if it is not about a value. -/
def message : Fault → String
  | .unreadable => ""
  | .wrongType _ found expected => s!"invalid type: found {found.foundText}, expected {expected}"
  | .outOfRange _ value => s!"invalid value unsigned int `{Text.showNat value}`, expected i64"
  | .torn => ""

end Fault

end Settings

end Daybook
