import SdkLint.Rules.Catalogue

/-!
# The list of rules

What `list-rules` shows: a table of all rules, the codes of the rules of each preset, and two
examples.
-/

namespace SdkLint.CommandLine

/-- A text with blanks after it up to a width. -/
def padTo (width : Nat) (text : String) : String :=
  text ++ String.ofList (List.replicate (width - text.length) ' ')

/-- A row of the table. -/
def ruleRow (code name severity description : String) : String :=
  padTo 7 code ++ " " ++ padTo 28 name ++ " " ++ padTo 9 severity ++ " " ++ description

/-- The codes of the rules of a preset. -/
def presetCodes (p : Preset) : String :=
  Text.join ", " ((p.rules {}).map Rule.code)

/-- The line of a preset. -/
def presetRow (name : String) (p : Preset) (note : String := "") : String :=
  "  " ++ padTo 12 name ++ " - " ++ presetCodes p ++ note

/-- The lines of the list. -/
def ruleListLines : List String :=
  ["Available rules:", "", ruleRow "Code" "Name" "Severity" "Description",
   String.ofList (List.replicate 96 '-')] ++
  (Catalogue.rulesWhere {} fun _ => true).map
    (fun r => ruleRow r.code r.name r.severity.name r.description) ++
  ["", "Presets:", presetRow "recommended" .recommended " (default)", presetRow "strict" .strict,
   presetRow "minimal" .minimal, "", "Use --rules to filter specific rules, e.g.:",
   "  apilint check --rules no-direct-throw,use-caught-exception-cause",
   "  apilint check --rules AP004,AP007"]

/-- The list of rules. -/
def ruleList : String :=
  String.join (ruleListLines.map fun line => line ++ "\n")

end SdkLint.CommandLine
