import MessageKeys.Terminal.Arguments

namespace MessageKeys.Terminal

def programName : String := "keyscan"

def versionText : String := s!"{programName} 0.1.0\n"

def lines (ls : List String) : String := String.join (ls.map (· ++ "\n"))

namespace Scope

def usage : Scope → String
  | program => s!"{programName} [COMMAND]"
  | extract => s!"{programName} extract [OPTIONS]"
  | init => s!"{programName} init"
  | help => s!"{programName} help [COMMAND]"

def about : Scope → String
  | program => "A fast CLI tool for extracting i18next translation keys from JS/TS/JSX sources"
  | extract => "Extract translation keys from t() calls and <Trans> elements"
  | init => "Initialize a new .keyscanrc.json configuration file"
  | help => "Print this message or the help of the given subcommand(s)"

def commandList : List String :=
  ["Commands:", s!"  extract  {extract.about}", s!"  init     {init.about}", s!"  help     {help.about}"]

def details : Scope → List String
  | program =>
    commandList ++ ["", "Options:", "  -h, --help     Print help", "  -V, --version  Print version"]
  | extract =>
    ["Options:",
      "      --source-root <SOURCE_ROOT>      Source code root directory (overrides config file)",
      "  -v, --verbose                        Enable verbose output",
      "      --output-dir <OUTPUT_DIR>        Directory the report files are written to (overrides config file)",
      "      --existing-keys <EXISTING_KEYS>  Key list (JSON array or catalog) whose keys are left out of keys.json",
      "      --dry-run                        Print the report without writing any files",
      "  -h, --help                           Print help"]
  | init => ["Options:", "  -h, --help  Print help"]
  | help => commandList

def helpText (s : Scope) : String :=
  lines ([s.about, "", s!"Usage: {s.usage}", ""] ++ s.details)

end Scope

namespace Refusal

def complaint? : Refusal → Option String
  | unknownArgument word => some s!"unexpected argument '{word}' found"
  | unknownCommand word => some s!"unrecognized subcommand '{word}'"
  | missingValue option => some s!"a value is required for '{option.usage}' but none was supplied"
  | repeated option => some s!"the argument '{option}' cannot be used multiple times"
  | unneededValue option value =>
    some s!"unexpected value '{value}' for '{option}' found; no more were expected"
  | help | version => none

/-- Is the usage line shown with the complaint? -/
def showsUsage : Refusal → Bool
  | missingValue _ => false
  | _ => true

end Refusal

namespace UsageError

def complaintText (e : UsageError) (complaint : String) : String :=
  lines ([s!"error: {complaint}", ""] ++
    (if e.refusal.showsUsage then [s!"Usage: {e.scope.usage}", ""] else []) ++
    ["For more information, try '--help'."])

end UsageError

end MessageKeys.Terminal
