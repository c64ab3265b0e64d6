import Stylebook.Cli.Arguments

/-!
What the program says about its own use.
-/

namespace Stylebook.Cli

def versionText : String := "stylesmith 0.1.0\n"

def usageText : String :=
  "Compile nested YAML style definitions to CSS and analyze them\n\n" ++
  "Usage: stylesmith [-v] <COMMAND>\n\n" ++
  "Commands:\n" ++
  "  check FILE                 Validate a style file and print its findings\n" ++
  "  compile FILE [-o OUTPUT]   Compile a style file to CSS\n" ++
  "  analyze FILE [-f FORMAT]   Analyze a style file; FORMAT is text, json or yaml\n" ++
  "  help                       Print this message\n\n" ++
  "Options of analyze:\n" ++
  "  --config FILE              YAML file with analysis options\n" ++
  "  --min-cohesion RATIO       Minimum similarity for patterns to share a cluster\n" ++
  "  --min-frequency N          Minimum occurrences before a pattern is reported\n" ++
  "  --max-depth N              Deepest nesting level compared by the sibling detector\n" ++
  "  --cache-capacity N         Number of analysis reports kept in memory\n"

namespace UsageError

def problem : UsageError → String
  | nothingGiven => "a command is required"
  | commandMissing => "a command is required"
  | commandUnknown => "unrecognized command"
  | argumentUnknown => "unexpected argument"
  | valueSurplus => "unexpected value for an argument without one"
  | valueInvalid => "missing or invalid value for an argument"
  | numberMalformed => "malformed number for an argument"
  | argumentRepeated => "an argument cannot be used multiple times"
  | fileMissing => "a file is required"
  | helpWanted => "help was asked for"
  | versionWanted => "the version was asked for"

def status : UsageError → Nat
  | helpWanted => 0
  | versionWanted => 0
  | _ => 2

def output : UsageError → String
  | helpWanted => usageText
  | versionWanted => versionText
  | _ => ""

def errors (error : UsageError) : String :=
  match error with
  | helpWanted => ""
  | versionWanted => ""
  | nothingGiven => usageText
  | _ => "error: " ++ error.problem ++ "\n\nFor more information, try '--help'.\n"

end UsageError

end Stylebook.Cli
