import SdkLint.Analysis.Run
import SdkLint.CommandLine.Arguments
import SdkLint.CommandLine.ConfigSource
import SdkLint.CommandLine.InitialConfig
import SdkLint.CommandLine.RuleList

/-!
# Running the program

What the program does with its arguments, as a function of what it sees of its surroundings.

Main definitions:

- `Failure`: why a command fails.
- `check`: the report about a folder, and whether it makes the run fail.
- `run`: what the program prints and writes, and its exit status.
-/

namespace SdkLint.CommandLine

/-! ## Failures -/

/-- Why a command fails. -/
inductive Failure where
  | unreadableConfig (path : String)
  | badConfig (cause : UnknownPreset)
  | noKnownRules (list : String)
  | notBuilt (cause : AnalysisError)
  | analysis (cause : AnalysisError)
  | configExists (path : String)
  | notWritten (path : String)
deriving DecidableEq, Repr

namespace Failure

/-- What is said about a failure. -/
def message : Failure → String
  | unreadableConfig path => "Failed to load config: " ++ path
  | badConfig _ => "Invalid configuration"
  | noKnownRules list =>
    "No known rules in --rules '" ++ list ++ "'. Run `apilint list-rules` to see them."
  | notBuilt _ => "Failed to build analyzer"
  | analysis _ => "Analysis failed"
  | configExists path =>
    "Configuration file already exists at " ++ path ++ ". Use --force to overwrite."
  | notWritten path => "Failed to write " ++ path

/-- What lies behind a failure. -/
def cause? : Failure → Option String
  | badConfig cause => some cause.message
  | notBuilt cause | analysis cause => some cause.message
  | _ => none

/-- The message with what lies behind it. -/
def text (f : Failure) : String :=
  let cause := match f.cause? with
    | some cause => "\nCaused by:\n    " ++ cause ++ "\n"
    | none => ""
  "Error: " ++ f.message ++ "\n" ++ cause

end Failure

/-! ## Checking -/

/-- Adds a rule, unless one of its name is there. -/
def addRule (rules : List Rule) (rule : Rule) : List Rule :=
  if rules.any fun r => r.name == rule.name then rules else rules ++ [rule]

/-- The rules that a list of names and codes between commas asks for, each once.  What is no rule is
passed over. -/
def listedRules (c : Config) (list : String) : List Rule :=
  let names := ((Text.splitString ',' list).map Text.trim).filter fun name => !name.isEmpty
  ((names.filterMap Catalogue.find?).map fun entry => entry.build c).foldl addRule []

/-- The rules of a run: those that are listed, or those that the configuration asks for. -/
def selectRules (c : Config) : Option String → Except Failure (List Rule)
  | none =>
    match c.chosenRules with
    | .ok rules => .ok rules
    | .error e => .error (.badConfig e)
  | some list =>
    let rules := listedRules c list
    if rules.isEmpty then .error (.noKnownRules list) else .ok rules

/-- The report about a folder, and whether it makes the run fail. -/
def check (w : World) (grammar : String → Java.Concrete) (config : Option String)
    (request : CheckRequest) : Except Failure (Report × Bool) :=
  match (ConfigSource.find w request.path config).load w with
  | .error path => .error (.unreadableConfig path)
  | .ok loaded =>
    let c := { loaded with preset := request.preset.or loaded.preset }
    match selectRules c request.rules with
    | .error e => .error e
    | .ok rules =>
      let setup : AnalysisRequest :=
        { root := some request.path, rules, exclude := request.exclude, config := c
          frontEnd := some (Java.frontEnd grammar) }
      match setup.build w.folder with
      | .error e => .error (.notBuilt e)
      | .ok analysis =>
        match analysis.run w.disk with
        | .error e => .error (.analysis e)
        | .ok report => .ok (report, report.hasAtLeast (c.failOn.getD .error))

/-! ## Starting -/

/-- The path of the configuration that `init` writes. -/
def initialConfigPath : String :=
  "./apilint.toml"

/-- Writes a first configuration: the path and contents of the file. -/
def createConfig (w : World) (force : Bool) : Except Failure (String × String) :=
  match w.disk.locate? (Path.join w.folder initialConfigPath) with
  | none => .ok (initialConfigPath, initialConfig)
  | some place =>
    if !force then .error (.configExists initialConfigPath)
    else if w.disk.isFolder place then .error (.notWritten initialConfigPath)
    else .ok (initialConfigPath, initialConfig)

/-- What `init` says. -/
def initialMessage : String :=
  "Created apilint.toml\n\nNext steps:\n  1. Edit apilint.toml to configure rules\n" ++
    "  2. Run: apilint check\n"

/-! ## The program -/

/-- What a run of the program comes to. -/
structure Outcome where
  /-- The exit status. -/
  status : Nat := 0
  output : String := ""
  complaint : String := ""
  /-- The file that is written, by path and contents. -/
  written : Option (String × String) := none
deriving DecidableEq, Repr

/-- The version of the program. -/
def version : String :=
  "apilint 0.3.0\n"

/-- How the program is called. -/
def usage : String :=
  "Usage: apilint [OPTIONS] <COMMAND>\n\nCommands:\n  check       Run lint checks\n" ++
    "  list-rules  List available rules\n  init        Initialize configuration file\n\n" ++
    "Options:\n  -v, --verbose          Enable verbose output\n" ++
    "  -c, --config <CONFIG>  Path to configuration file\n  -h, --help             Print help\n" ++
    "  -V, --version          Print version\n"

namespace Outcome

/-- The outcome of a command that fails. -/
def ofFailure (f : Failure) : Outcome :=
  { status := 1, complaint := f.text }

/-- The outcome of arguments that ask for no command. -/
def ofInterruption : Interruption → Outcome
  | .misuse complaint => { status := 2, complaint := "error: " ++ complaint ++ "\n\n" ++ usage }
  | .version => { output := version }
  | .help => { output := usage }

end Outcome

/-- Carries out a command. -/
def carryOut (w : World) (grammar : String → Java.Concrete) (invocation : Invocation) : Outcome :=
  match invocation.command with
  | .listRules => { output := ruleList }
  | .init force =>
    match createConfig w force with
    | .error e => .ofFailure e
    | .ok file => { output := initialMessage, written := some file }
  | .check request =>
    match check w grammar invocation.config request with
    | .error e => .ofFailure e
    | .ok (report, fails) =>
      { status := if fails then 1 else 0, output := report.listing request.format w.terminal }

/-- What the program does with its arguments. -/
def run (w : World) (grammar : String → Java.Concrete) (arguments : List String) : Outcome :=
  match Invocation.ofArguments arguments with
  | .error e => .ofInterruption e
  | .ok invocation => carryOut w grammar invocation

end SdkLint.CommandLine
