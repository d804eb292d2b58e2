import Std.Time.DateTime.Timestamp
import Daybook.CommandLine.Run

/-!
# The program

Gives the files, the standard input, the environment, the user and the clock of the machine to the
program and does what comes of it.  Clocks show UTC.
-/

namespace Daybook.Main

/-- What the file of a path holds. -/
def file (path : String) : IO TextFile := do
  try
    let bytes ← IO.FS.readBinFile path
    match String.fromUTF8? bytes with
    | some text => return .text text
    | none => return .unreadable
  catch _ => return .unreadable

/-- Whether there is a regular file at a path, be it behind links. -/
def isRegular (path : String) : IO Bool := do
  try
    let resolved ← IO.FS.realPath path
    return (← resolved.metadata).type == .file
  catch _ => return false

/-- What the file of a path holds if it is a regular one.  Others are not looked into. -/
def settingsFile (path : String) : IO TextFile := do
  if ← isRegular path then file path else return .missing

/-- The text on the standard input, if it is text. -/
def input : IO (Option String) := do
  try
    let bytes ← (← IO.getStdin).readBinToEnd
    return String.fromUTF8? bytes
  catch _ => return none

/-- The environment variables. -/
def environment : IO (List (String × String)) := do
  try
    let text ← IO.FS.readFile "/proc/self/environ"
    return (text.splitOn "\x00").filterMap fun entry =>
      match entry.splitOn "=" with
      | name :: value :: values => some (name, "=".intercalate (value :: values))
      | _ => none
  catch _ => return []

/-- The number of the user, as the machine writes it. -/
def userNumber? : IO (Option String) := do
  let status ← IO.FS.readFile "/proc/self/status"
  return (status.splitOn "\n").findSome? fun line =>
    match line.splitOn "\t" with
    | "Uid:" :: number :: _ => some number
    | _ => none

/-- The user's own directory in the table of users. -/
def home : IO (Option String) := do
  try
    let number ← userNumber?
    let users ← IO.FS.readFile "/etc/passwd"
    let own := (users.splitOn "\n").findSome? fun line =>
      match line.splitOn ":" with
      | [_, _, user, _, _, directory, _] => if some user == number then some directory else none
      | _ => none
    return own.filter fun directory => !directory.isEmpty
  catch _ => return none

/-- The directories that the working directory lies in, from the nearest to the outermost. -/
def above : IO (List String) := do
  try
    let parts := ((← IO.currentDir).toString.splitOn "/").filter fun part => !part.isEmpty
    return (List.range parts.length).reverse.map fun depth =>
      "/" ++ "/".intercalate (parts.take depth)
  catch _ => return []

/-- The date of today. -/
def today : IO Date := do
  let now ← Std.Time.Timestamp.now
  match Instant.ofSeconds? now.toSecondsSinceUnixEpoch.val with
  | some t => return t.date
  | none => throw (IO.userError "the clock is out of range")

end Daybook.Main

/-- Runs the program on the machine. -/
def main (words : List String) : IO UInt32 := do
  let surroundings : Daybook.Surroundings IO :=
    { file := Daybook.Main.file
      settingsFile := Daybook.Main.settingsFile
      input := Daybook.Main.input
      environment := ← Daybook.Main.environment
      home := ← Daybook.Main.home
      above := ← Daybook.Main.above
      today := ← Daybook.Main.today
      zone := .utc }
  let outcome ← Daybook.CommandLine.run surroundings words
  IO.print (String.ofList outcome.output)
  if let some report := outcome.report? then IO.eprintln report
  return outcome.exitCode.toUInt32
