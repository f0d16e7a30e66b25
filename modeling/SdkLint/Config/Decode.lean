import SdkLint.Config.Basic
import SdkLint.Toml.Document

/-!
# Reading configurations

A configuration is read from a TOML document.  Entries that the configuration does not know are
ignored; an entry of the wrong shape makes the whole document unreadable.  The selection of files
and the entries about types may also be written as arrays, their parts in order.
-/

namespace SdkLint.Config

open Toml

/-! ## Parts -/

/-- Reads a value with a reader for its shape; nothing is read from nothing. -/
def optional {α : Type} (read : Value → Option α) : Option Value → Option (Option α)
  | none => some none
  | some v => (read v).map some

/-- Reads a value, or takes a default where there is none. -/
def withDefault {α : Type} (read : Value → Option α) (default : α) (v : Option Value) : Option α :=
  (optional read v).map (·.getD default)

def readBool : Value → Option Bool
  | .boolean b => some b
  | _ => none

/-- A list of texts; everything else in the list is an error. -/
def readTexts : Value → Option (List String)
  | .array items => items.mapM Value.asString
  | _ => none

/-- Whether a value may stand for "no value". -/
def isEmptyValue : Value → Bool
  | .array [] => true
  | .table [] => true
  | _ => false

/-- A severity: its name, or a table with its name alone and no value for it. -/
def readSeverity : Value → Option Severity
  | .string name => Severity.ofName? name
  | .table [(name, v)] => if isEmptyValue v then Severity.ofName? name else none
  | _ => none

/-- The parts of a record: looked up by name in a table, or by place in an array. -/
def recordPart (names : List String) (v : Value) : Option (String → Option Value) :=
  match v with
  | .table entries => some fun name => entries.lookup name
  | .array items => some fun name => (names.zip items).lookup name
  | _ => none

/-! ## Sections -/

/-- The `[analyzer]` section. -/
def readFiles (v : Value) : Option FileSelection := do
  let part ← recordPart
    ["root", "exclude", "include", "respect_gitignore", "fail_on_parse_error"] v
  let root ← withDefault Value.asString "." (part "root")
  let exclude ← withDefault readTexts [] (part "exclude")
  let only ← withDefault readTexts [] (part "include")
  let respectGitignore ← withDefault readBool true (part "respect_gitignore")
  let failOnParseError ← withDefault readBool false (part "fail_on_parse_error")
  some { root, exclude, only, respectGitignore, failOnParseError }

/-- A `[rules.…]` section. -/
def readSection : Value → Option RuleSection
  | .table entries => do
    let enabled ← optional readBool (entries.lookup "enabled")
    let severity ← optional readSeverity (entries.lookup "severity")
    let options := entries.filter fun (name, _) => name != "enabled" && name != "severity"
    some { enabled, severity, options }
  | _ => none

/-- All `[rules.…]` sections. -/
def readSections : Value → Option (List (String × RuleSection))
  | .table entries => entries.mapM fun (name, v) => (readSection v).map fun s => (name, s)
  | _ => none

/-- A `[[types]]` entry. -/
def readType (v : Value) : Option TypeEntry := do
  let part ← recordPart ["name", "superclass", "interfaces"] v
  let name ← (part "name").bind Value.asString
  let superclass ← optional Value.asString (part "superclass")
  let interfaces ← withDefault readTexts [] (part "interfaces")
  some { name, superclass, interfaces }

/-- All `[[types]]` entries. -/
def readTypes : Value → Option (List TypeEntry)
  | .array items => items.mapM readType
  | _ => none

/-! ## Documents -/

/-- The configuration that a table describes. -/
def ofTable? (entries : Table) : Option Config := do
  let preset ← optional Value.asString (entries.lookup "preset")
  let failOn ← optional readSeverity (entries.lookup "fail_on")
  let files ← withDefault readFiles .standard (entries.lookup "analyzer")
  let rules ← withDefault readSections [] (entries.lookup "rules")
  let types ← withDefault readTypes [] (entries.lookup "types")
  some { preset, failOn, files, rules, types }

/-- The configuration that a document describes, if it is TOML of the right shape. -/
def parse? (text : String) : Option Config :=
  (Toml.parse? text).bind ofTable?

end SdkLint.Config
