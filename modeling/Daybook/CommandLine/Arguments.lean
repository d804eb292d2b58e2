/-!
# Command line arguments

`Arguments.parse` reads the arguments of the command line.  There are two commands, `layout` and
`day`, besides `help`.  Options may stand before and behind the command where they belong to both.

A word that begins with a hyphen is one or more options; the value of an option follows in the same
word, perhaps behind an equals sign, or is the next word, which then must be no option.  Behind `--`
every word is a file.

Words are taken one after the other, and the first that asks for help or cannot be taken decides.
The value of an option, or a file, is checked only when the next word is taken, or when all are.  A
command takes over the words behind it before the last value in front of it is checked.
-/

namespace Daybook

/-- **The pages of help.** -/
inductive HelpPage where
  /-- The commands. -/
  | overview
  /-- `layout`, at length. -/
  | layout
  /-- `layout`, in short. -/
  | layoutSummary
  | day
  | help
  deriving DecidableEq

/-- **A command with its arguments.** -/
inductive Command where
  | layout (file : Option String) (least : String)
  | day (file : Option String) (date : String) (least : Option String) (json : Bool)
  deriving DecidableEq

/-- **What the arguments ask for.** -/
inductive Arguments where
  | help (page : HelpPage)
  | version
  /-- A command, or none, with a file of settings. -/
  | run (settings : Option String) (command : Option Command)
  deriving DecidableEq

namespace Arguments

/-! ### Options -/

/-- **An option.** -/
inductive Opt where
  /-- More to be told. -/
  | verbose
  /-- The file of settings. -/
  | config
  | help
  | version
  /-- The least height. -/
  | least
  | date
  | json
  deriving DecidableEq

/-- Where options stand. -/
inductive Level where
  /-- Before a command. -/
  | top
  /-- Behind `layout`. -/
  | layout
  /-- Behind `day`. -/
  | day
  deriving DecidableEq

/-- The options of a level by their long names. -/
def longOption? (level : Level) (name : String) : Option Opt :=
  match name, level with
  | "verbose", _ => some .verbose
  | "config", _ => some .config
  | "help", _ => some .help
  | "version", .top => some .version
  | "min-duration", .layout => some .least
  | "min-duration", .day => some .least
  | "date", .day => some .date
  | "json", .day => some .json
  | _, _ => none

/-- The options of a level by their letters. -/
def shortOption? (level : Level) (letter : Char) : Option Opt :=
  match letter, level with
  | 'v', _ => some .verbose
  | 'c', _ => some .config
  | 'h', _ => some .help
  | 'V', .top => some .version
  | 'd', .day => some .date
  | _, _ => none

/-- Whether an option takes a value. -/
def Opt.takesValue : Opt → Bool
  | .config => true
  | .least => true
  | .date => true
  | _ => false

/-- The page of help of a level, at length or in short. -/
def Level.page : Level → (long : Bool) → HelpPage
  | .top, _ => .overview
  | .layout, true => .layout
  | .layout, false => .layoutSummary
  | .day, _ => .day

/-! ### Taking words -/

/-- **What a word gives a value to.** -/
inductive Target where
  /-- An option that takes a value. -/
  | option (o : Opt)
  | file
  deriving DecidableEq

/-- **What the words of a level have given.** -/
structure Given where
  /-- The options without a value. -/
  flags : List Opt
  /-- The values, by what they belong to. -/
  values : List (Target × String)
  /-- What the last word gave, not yet checked; a value that is still to come is none. -/
  pending : Option (Target × Option String)

/-- Nothing is given. -/
def Given.nothing : Given :=
  { flags := [], values := [], pending := none }

/-- **How the reading of arguments ends early.** -/
inductive Stop where
  /-- The arguments are wrong. -/
  | wrong
  /-- They ask for something that is answered at once. -/
  | answer (a : Arguments)

/-- Whether what a value belongs to can be empty.  A path cannot. -/
def Target.allowsEmpty : Target → Bool
  | .option .config => false
  | .file => false
  | .option _ => true

/-- Takes a value, if it has not been given before and may be what it is. -/
def Given.accept (g : Given) (target : Target) (value : String) : Except Stop Given :=
  if value.isEmpty && !target.allowsEmpty then .error .wrong
  else if (g.values.lookup target).isSome then .error .wrong
  else .ok { g with values := (target, value) :: g.values }

/-- Checks what the last word gave. -/
def Given.settle (g : Given) : Except Stop Given :=
  match g.pending with
  | none => .ok g
  | some (_, none) => .error .wrong
  | some (target, some value) => { g with pending := none }.accept target value

/-- Takes an option without a value. -/
def Given.flag (g : Given) (level : Level) (long : Bool) (o : Opt) : Except Stop Given := do
  let g ← g.settle
  match o with
  | .help => throw (.answer (.help (level.page long)))
  | .version => throw (.answer .version)
  | o => if g.flags.contains o then throw .wrong else return { g with flags := o :: g.flags }

/-- Takes an option with the value in its word. -/
def Given.attached (g : Given) (o : Opt) (value : String) : Except Stop Given := do
  (← g.settle).accept (.option o) value

/-- Takes an option whose value is the next word. -/
def Given.awaiting (g : Given) (o : Opt) : Except Stop Given := do
  return { ← g.settle with pending := some (.option o, none) }

/-- Takes a word that begins with two hyphens, without them. -/
def Given.long (g : Given) (level : Level) (word : List Char) : Except Stop Given :=
  match longOption? level (String.ofList (word.takeWhile (· != '='))) with
  | none => .error .wrong
  | some o =>
    match word.dropWhile (· != '=') with
    | _ :: value => if o.takesValue then g.attached o (String.ofList value) else .error .wrong
    | [] => if o.takesValue then g.awaiting o else g.flag level true o

/-- Takes a word that begins with one hyphen, without it. -/
def Given.short (level : Level) : (g : Given) → List Char → Except Stop Given
  | g, [] => .ok g
  | g, letter :: rest =>
    match shortOption? level letter with
    | none => .error .wrong
    | some o =>
      if o.takesValue then
        match rest with
        | [] => g.awaiting o
        | '=' :: value => g.attached o (String.ofList value)
        | value => g.attached o (String.ofList value)
      else do
        let g ← g.flag level false o
        g.short level rest

/-- Takes a file. -/
def Given.file (g : Given) (level : Level) (word : String) : Except Stop Given := do
  if level = .top ∨ g.pending.any (·.1 = .file) ∨ (g.values.lookup .file).isSome then throw .wrong
  return { ← g.settle with pending := some (.file, some word) }

/-! ### Levels -/

/-- Takes the words behind `--`. -/
def takeFiles (level : Level) : Given → List String → Except Stop Given
  | g, [] => g.settle
  | g, word :: words => do
    let g ← g.file level word
    takeFiles level g words

/-- Takes the words of a command. -/
def takeWords (level : Level) : Given → List String → Except Stop Given
  | g, [] => g.settle
  | g, word :: words => do
    match word.toList with
    | ['-', '-'] => takeFiles level g words
    | '-' :: '-' :: name => takeWords level (← g.long level name) words
    | '-' :: c :: letters => takeWords level (← g.short level (c :: letters)) words
    | _ =>
      match g.pending with
      | some (target, none) =>
        takeWords level { g with pending := some (target, some word) } words
      | _ => takeWords level (← g.file level word) words

/-- The command that words give behind `layout`. -/
def layoutCommand (g : Given) : Command :=
  .layout (g.values.lookup .file) ((g.values.lookup (.option .least)).getD "0")

/-- The command that words give behind `day`. -/
def dayCommand (g : Given) : Command :=
  .day (g.values.lookup .file) ((g.values.lookup (.option .date)).getD "today")
    (g.values.lookup (.option .least)) (g.flags.contains .json)

/-- What the words behind a command ask for.  A file of settings that is named there goes before one
that is named in front. -/
def takeCommand (level : Level) (command : Given → Command) (top : Given) (words : List String) :
    Except Stop Arguments := do
  let given ← takeWords level .nothing words
  let top ← top.settle
  let config : Target := .option .config
  let settings := (given.values.lookup config).or (top.values.lookup config)
  return .run settings (some (command given))

/-- The page that the words behind `help` ask for. -/
def helpPage? : List String → Option HelpPage
  | [] => some .overview
  | ["layout"] => some .layout
  | ["day"] => some .day
  | ["help"] => some .help
  | _ => none

/-- Takes the words in front of a command. -/
def takeTop : Given → List String → Except Stop Arguments
  | g, [] => do
    let g ← g.settle
    return .run (g.values.lookup (.option .config)) none
  | g, word :: words => do
    match word.toList with
    | ['-', '-'] =>
      let g ← takeFiles .top g words
      return .run (g.values.lookup (.option .config)) none
    | '-' :: '-' :: name => takeTop (← g.long .top name) words
    | '-' :: c :: letters => takeTop (← g.short .top (c :: letters)) words
    | _ =>
      match g.pending with
      | some (target, none) => takeTop { g with pending := some (target, some word) } words
      | _ =>
        if word = "layout" then takeCommand .layout layoutCommand g words
        else if word = "day" then takeCommand .day dayCommand g words
        else if word = "help" then
          match helpPage? words with
          | some page => return .help page
          | none => throw .wrong
        else throw .wrong

/-- **What arguments ask for**; none if they are wrong. -/
def parse (words : List String) : Option Arguments :=
  match takeTop .nothing words with
  | .ok a => some a
  | .error (.answer a) => some a
  | .error .wrong => none

end Arguments

end Daybook
