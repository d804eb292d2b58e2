import Daybook.CommandLine.Arguments

/-!
# Help

The pages of help, line by line.
-/

namespace Daybook

/-- The lines of a page. -/
def HelpPage.lines : HelpPage → List String
  | .overview =>
    [ "Command-line day view for jks",
      "",
      "Usage: jks [OPTIONS] [COMMAND]",
      "",
      "Commands:",
      "  layout  Pack raw boxes into columns",
      "  day     Show the activities and plans of one day",
      "  help    Print this message or the help of the given subcommand(s)",
      "",
      "Options:",
      "  -v, --verbose          Enable verbose output",
      "  -c, --config <CONFIG>  Path to config file",
      "  -h, --help             Print help",
      "  -V, --version          Print version" ]
  | .layout =>
    [ "Pack raw boxes into columns.",
      "",
      "Reads a JSON array of `\x7b\"start\": .., \"duration\": ..\x7d` objects and prints the " ++
        "column of each box.",
      "",
      "Usage: jks layout [OPTIONS] [FILE]",
      "",
      "Arguments:",
      "  [FILE]",
      "          Input file, or `-` for stdin",
      "",
      "Options:",
      "      --min-duration <MIN_DURATION>",
      "          Minimum height used for overlap checks (e.g. `0`, `90s`, `15m`)",
      "          ",
      "          [default: 0]",
      "",
      "  -v, --verbose",
      "          Enable verbose output",
      "",
      "  -c, --config <CONFIG>",
      "          Path to config file",
      "",
      "  -h, --help",
      "          Print help (see a summary with '-h')" ]
  | .layoutSummary =>
    [ "Pack raw boxes into columns",
      "",
      "Usage: jks layout [OPTIONS] [FILE]",
      "",
      "Arguments:",
      "  [FILE]  Input file, or `-` for stdin",
      "",
      "Options:",
      "      --min-duration <MIN_DURATION>  Minimum height used for overlap checks " ++
        "(e.g. `0`, `90s`, `15m`)",
      "                                     [default: 0]",
      "  -v, --verbose                      Enable verbose output",
      "  -c, --config <CONFIG>              Path to config file",
      "  -h, --help                         Print help (see more with '--help')" ]
  | .day =>
    [ "Show the activities and plans of one day",
      "",
      "Usage: jks day [OPTIONS] [FILE]",
      "",
      "Arguments:",
      "  [FILE]  Agenda JSON file, or `-` for stdin. Defaults to the configured agenda",
      "",
      "Options:",
      "  -d, --date <DATE>                  Day to show: YYYY-MM-DD, today, yesterday or " ++
        "tomorrow [default:",
      "                                     today]",
      "  -v, --verbose                      Enable verbose output",
      "  -c, --config <CONFIG>              Path to config file",
      "      --min-duration <MIN_DURATION>  Minimum block height; overrides the configured value",
      "      --json                         Output as JSON",
      "  -h, --help                         Print help" ]
  | .help =>
    [ "Print this message or the help of the given subcommand(s)",
      "",
      "Usage: jks help [COMMAND]...",
      "",
      "Arguments:",
      "  [COMMAND]...  Print help for the subcommand(s)" ]

/-- A page as text. -/
def HelpPage.text (page : HelpPage) : List Char :=
  (page.lines.map fun line => line.toList ++ ['\n']).flatten

/-- What is printed for the version. -/
def versionText : List Char :=
  "jks 0.1.0\n".toList

end Daybook
