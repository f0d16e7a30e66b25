import SdkLint.Config.Basic
import SdkLint.Finding.Basic
import SdkLint.Json.Value

/-!
# Reports as JSON

The JSON form of violations and reports: records with their fields in the order of declaration, a
suggestion only where there is one.  Reading accepts what writing produces; fields that it does not
know are ignored, and a suggestion or the list of skipped files may be left out.
-/

namespace SdkLint

namespace Severity

def toJson (s : Severity) : Json :=
  .str s.name

/-- The severity that a text names. -/
def ofJson? : Json → Option Severity
  | .str name => ofName? name
  | .obj [(name, .null)] => ofName? name
  | _ => none

end Severity

namespace Location

def toJson (l : Location) : Json :=
  .obj [("file", .str l.file), ("line", .int l.line), ("column", .int l.column),
    ("offset", .int l.offset), ("length", .int l.length)]

def ofJson? (j : Json) : Option Location := do
  let part ← j.recordPart ["file", "line", "column", "offset", "length"]
  let file ← (part "file").bind Json.asString
  let line ← (part "line").bind Json.asNat
  let column ← (part "column").bind Json.asNat
  let offset ← (part "offset").bind Json.asNat
  let length ← (part "length").bind Json.asNat
  some { file, line, column, offset, length }

end Location

namespace Violation

/-- A suggestion as a record of its own. -/
def suggestionToJson (text : String) : Json :=
  .obj [("message", .str text)]

def suggestionOfJson? (j : Json) : Option String := do
  let part ← j.recordPart ["message"]
  (part "message").bind Json.asString

def toJson (v : Violation) : Json :=
  .obj ([("code", .str v.code), ("rule", .str v.rule), ("severity", v.severity.toJson),
    ("location", v.location.toJson), ("message", .str v.message)] ++
    (v.suggestion.map fun text => ("suggestion", suggestionToJson text)).toList)

def ofJson? (j : Json) : Option Violation := do
  let part ← j.recordPart ["code", "rule", "severity", "location", "message", "suggestion"]
  let code ← (part "code").bind Json.asString
  let rule ← (part "rule").bind Json.asString
  let severity ← (part "severity").bind Severity.ofJson?
  let location ← (part "location").bind Location.ofJson?
  let message ← (part "message").bind Json.asString
  let suggestion ← Json.optional suggestionOfJson? (part "suggestion")
  some { code, rule, severity, location, message, suggestion }

end Violation

namespace Report

def toJson (r : Report) : Json :=
  .obj [("violations", .arr (r.violations.map Violation.toJson)),
    ("files_checked", .int r.filesChecked),
    ("files_skipped", .arr (r.filesSkipped.map .str))]

def ofJson? (j : Json) : Option Report := do
  let part ← j.recordPart ["violations", "files_checked", "files_skipped"]
  let violations ← (part "violations").bind (Json.asList Violation.ofJson?)
  let filesChecked ← (part "files_checked").bind Json.asNat
  let filesSkipped ← Json.withDefault (Json.asList Json.asString) [] (part "files_skipped")
  some { violations, filesChecked, filesSkipped }

end Report

/-- Reads an entry about a type. -/
def TypeEntry.ofJson? (j : Json) : Option TypeEntry := do
  let part ← j.recordPart ["name", "superclass", "interfaces"]
  let name ← (part "name").bind Json.asString
  let superclass ← Json.optional Json.asString (part "superclass")
  let interfaces ← Json.withDefault (Json.asList Json.asString) [] (part "interfaces")
  some { name, superclass, interfaces }

end SdkLint
