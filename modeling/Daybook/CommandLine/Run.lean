import Daybook.CommandLine.Help
import Daybook.DayView.Json
import Daybook.Duration
import Daybook.Packing.Json
import Daybook.Settings.Basic

/-!
# Running a command

`CommandLine.run` is the whole program: from the arguments and what the program finds around it
(`Surroundings`) to what it has written and how it failed, if it did (`Outcome`).  Files are looked
up in a monad that is left open.  With `Id` the files are a function and so is the program; with
`IO` they are those of the machine.

A run is a `Session`.  It writes to the standard output as it goes along, and what is written stays
written when something fails later.  So a command first works its text out and writes it at the very
end.  It is worked out in this order: the settings, the date, the durations, the input and at last
its content.
-/

namespace Daybook

/-- **What the program finds around it.** -/
structure Surroundings (m : Type → Type) where
  /-- What the file of a path holds. -/
  file : String → m TextFile
  /-- The same of a file of settings.  Only a regular file is one. -/
  settingsFile : String → m TextFile := file
  /-- The text on the standard input, if it is text. -/
  input : m (Option String)
  /-- The environment variables, by name and value. -/
  environment : List (String × String)
  /-- The user's own directory, as the machine knows it. -/
  home : Option String := none
  /-- The directories that the working directory lies in, from the nearest to the outermost. -/
  above : List String := []
  today : Date
  /-- The zone of the clock. -/
  zone : Zone

/-- **How a run fails.** -/
inductive Failure where
  | failed (message : String)
  /-- With wrong arguments. -/
  | misused
  /-- Broken off, at a number that has run out of range or a text that is cut within a character. -/
  | brokenOff
  deriving DecidableEq

/-- **What a run comes to.** -/
structure Outcome where
  /-- How the run failed, if it did. -/
  failure : Option Failure
  /-- What it has written to the standard output. -/
  output : List Char
  deriving DecidableEq

namespace Outcome

/-- A run that ended well and has written a text. -/
def printed (output : List Char) : Outcome :=
  { failure := none, output }

/-- The exit code. -/
def exitCode (o : Outcome) : Nat :=
  match o.failure with
  | none => 0
  | some (.failed _) => 1
  | some .misused => 2
  | some .brokenOff => 101

/-- The first line of a text, which a line feed ends, or a carriage return and a line feed. -/
def firstLine (cs : List Char) : List Char :=
  let line := cs.takeWhile (· != '\n')
  if line.getLast? = some '\r' then line.dropLast else line

/-- The first line that is written about an error. -/
def report? (o : Outcome) : Option String :=
  match o.failure with
  | some (.failed message) => some (String.ofList (firstLine ("Error: " ++ message).toList))
  | _ => none

end Outcome

/-! ### Sessions -/

/-- **A run under way.**  It may fail, and it writes to the standard output.  What it has written is
kept apart from how it goes on, so a failure does not take it back. -/
abbrev Session (m : Type → Type) := ExceptT Failure (StateT (List Char) m)

namespace Session

variable {m : Type → Type} [Monad m]

/-- Writes a text to the standard output. -/
def write (text : List Char) : Session m Unit :=
  modify (· ++ text)

/-- Does some work that writes nothing. -/
def silently {α : Type} (work : ExceptT Failure m α) : Session m α :=
  ExceptT.mk (monadLift work.run)

/-- The text that a session has written when it ends well.  A session that fails has an outcome of
its own, with all that it has written until then. -/
def captured (x : Session m Unit) : ExceptT Outcome m (List Char) := do
  match ← x.run.run [] with
  | (.ok (), output) => return output
  | (.error failure, output) => throw { failure := some failure, output }

end Session

/-! ### What is found around -/

namespace Surroundings

variable {m : Type → Type}

/-- The value of an environment variable. -/
def valueOf? (s : Surroundings m) (name : String) : Option String :=
  s.environment.lookup name

/-- The user's own directory: the one a variable names, or else the one the machine knows. -/
def home? (s : Surroundings m) : Option String :=
  match (s.valueOf? "HOME").filter fun home => !home.isEmpty with
  | some home => some home
  | none => s.home

/-- A directory of the user: the one a variable names by an absolute path, or else one below the
user's own directory. -/
def directory? (s : Surroundings m) (name below : String) : Option String :=
  match (s.valueOf? name).filter fun path => path.startsWith "/" with
  | some path => some path
  | none => s.home?.map fun home => Settings.joinPath home below

/-- The file of the user's settings. -/
def settingsPath? (s : Surroundings m) : Option String :=
  (s.directory? "XDG_CONFIG_HOME" ".config").map fun directory =>
    Settings.joinPath (Settings.joinPath directory "jks") "config.toml"

/-- The paths at which a file of settings is looked for, one after the other.  If its path is not
absolute it may also lie in a directory that the working directory lies in. -/
def settingsPaths (s : Surroundings m) (path : String) : List String :=
  if path.startsWith "/" then [path]
  else path :: s.above.map fun directory => Settings.joinPath directory path

/-- Whether a path stands for the standard input: a hyphen, also with needless separators behind. -/
def isInputPath (path : String) : Bool :=
  match path.toList.splitOn '/' with
  | ['-'] :: rest => rest.all fun part => part.isEmpty || part == ['.']
  | _ => false

variable [Monad m]

/-- What the first file of settings holds that there is at some paths. -/
def firstFile (s : Surroundings m) : List String → m TextFile
  | [] => pure .missing
  | path :: paths => do
    match ← s.settingsFile path with
    | .missing => s.firstFile paths
    | file => return file

/-- What the settings are made from. -/
def settingsSources (s : Surroundings m) (named : Option String) : m SettingsSources := do
  let userFile ← s.firstFile (s.settingsPath?.elim [] s.settingsPaths)
  let namedFile ← s.firstFile (named.elim [] s.settingsPaths)
  return {
    dataDirectory := s.directory? "XDG_DATA_HOME" ".local/share"
    userFile
    namedFile
    environment := s.environment }

/-- The text of the standard input. -/
def readInput (s : Surroundings m) : ExceptT String m (List Char) := do
  match ← s.input with
  | some text => return text.toList
  | none => throw "failed to read stdin"

/-- The text of a file, or of the standard input. -/
def read (s : Surroundings m) (path : String) : ExceptT String m (List Char) := do
  if isInputPath path then s.readInput
  else
    match ← s.file path with
    | .text text => return text.toList
    | _ => throw s!"failed to read {path}"

end Surroundings

/-! ### Commands -/

namespace CommandLine

open Session (write silently)

variable {m : Type → Type} [Monad m]

/-- A duration given by an argument. -/
def duration (text : String) : Except Failure Int64 :=
  (Duration.ofText text).mapError fun fault => .failed fault.summary

/-- What is packed: the text of a file, or of the standard input if none is named. -/
def layoutInput (s : Surroundings m) : Option String → ExceptT String m (List Char)
  | some path => s.read path
  | none => s.readInput

/-- Packs the boxes that a text lists and writes the line about them. -/
def writeLayout (least : Int64) (text : List Char) : Session m Unit := do
  let line ← ofExcept ((Packing.lineOfText least text).mapError fun error => .failed error.summary)
  write line

/-- Writes the report of a day. -/
def writeReport (report : DayReport) (agenda : Agenda) (zone : Zone) : Session m Unit := do
  match report.text? agenda zone with
  | some text => write text
  | none => throw .brokenOff

/-- Packs the boxes of a file, or of the standard input if none is named. -/
def performLayout (s : Surroundings m) (file : Option String) (least : String) :
    Session m Unit := do
  let least ← ofExcept (duration least)
  let text ← silently ((layoutInput s file).adapt .failed)
  writeLayout least text

/-- Shows a day of the agenda in a file, or in that of the settings if none is named. -/
def performDay (s : Surroundings m) (settings : Settings) (file : Option String) (date : String)
    (least : Option String) (json : Bool) : Session m Unit := do
  let date ← ofExcept ((Date.ofWords s.today date).mapError fun fault => .failed fault.summary)
  let least ← ofExcept (match least with
    | some text => duration text
    | none => .ok settings.leastSeconds)
  let path := file.getD settings.agendaPath
  let text ← silently ((s.read path).adapt .failed)
  let agenda ← ofExcept ((Agenda.ofText text).mapError fun _ =>
    .failed s!"failed to load agenda from {path}")
  writeReport { date, least, slotMinutes := settings.slotMinutes, json } agenda s.zone

/-- Performs a command, or writes the overview if there is none. -/
def performCommand (s : Surroundings m) (settings : Settings) : Option Command → Session m Unit
  | some (.layout file least) => performLayout s file least
  | some (.day file date least json) => performDay s settings file date least json
  | none => do
    write HelpPage.overview.text
    write ['\n']

/-- How a run fails for which there are no settings. -/
def withoutSettings : Settings.Fault → Failure
  | .torn => .brokenOff
  | _ => .failed "failed to load configuration"

/-- Loads the settings, with a file that is named on the command line. -/
def loadSettings (s : Surroundings m) (named : Option String) : ExceptT Failure m Settings := do
  let sources ← s.settingsSources named
  ofExcept ((Settings.load sources).mapError withoutSettings)

/-- Does what arguments ask for; they are none if they are wrong. -/
def perform (s : Surroundings m) : Option Arguments → Session m Unit
  | none => throw .misused
  | some (.help page) => write page.text
  | some .version => write versionText
  | some (.run named command) => do
    let settings ← silently (loadSettings s named)
    performCommand s settings command

/-- **The command that packs boxes**, by itself: the text that it writes. -/
def runLayout (s : Surroundings m) (file : Option String) (least : String) :
    ExceptT Outcome m (List Char) :=
  (performLayout s file least).captured

/-- **The program.** -/
def run (s : Surroundings m) (words : List String) : m Outcome := do
  match ← (perform s (Arguments.parse words)).captured.run with
  | .ok output => return .printed output
  | .error outcome => return outcome

end CommandLine

end Daybook
