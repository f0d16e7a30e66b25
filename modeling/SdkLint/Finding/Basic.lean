import SdkLint.Tree.Basic

/-!
# Findings

A `Finding` is what a rule says about a place in a file.  A `Violation` is an entry of the listing
that the user sees: a finding together with its rule, severity and location, or a remark about a
rule that failed.  A `Report` collects the violations of a whole run.
-/

namespace SdkLint

/-! ## Severities -/

/-- How grave a violation is. -/
inductive Severity where
  | info
  | warning
  | error
deriving DecidableEq, Repr, Inhabited

namespace Severity

def all : List Severity :=
  [.info, .warning, .error]

/-- The word for a severity. -/
def name : Severity → String
  | .info => "info"
  | .warning => "warning"
  | .error => "error"

/-- The severity that a word names. -/
def ofName? (text : String) : Option Severity :=
  all.find? fun severity => severity.name == text

/-- The place of a severity in their order. -/
def rank : Severity → Nat
  | .info => 0
  | .warning => 1
  | .error => 2

/-- Whether a severity is at least as grave as a threshold. -/
def atLeast (severity threshold : Severity) : Bool :=
  threshold.rank ≤ severity.rank

end Severity

/-! ## Violations -/

/-- What a rule reports about a place in the file being checked. -/
structure Finding where
  position : Position
  span : Span
  message : String
  /-- How to mend it. -/
  help : Option String := none
deriving DecidableEq, Repr, Inhabited

/-- Where a violation lies.  Line 0 stands for the run as a whole. -/
structure Location where
  file : String
  line : Nat
  column : Nat
  /-- The byte offset and length of the text it is about. -/
  offset : Nat := 0
  length : Nat := 0
deriving DecidableEq, Repr, Inhabited

/-- The location of problems with the configuration. -/
def Location.config : Location :=
  { file := "<config>", line := 0, column := 0 }

/-- One entry of the listing. -/
structure Violation where
  code : String
  rule : String
  severity : Severity
  location : Location
  message : String
  suggestion : Option String := none
deriving DecidableEq, Repr, Inhabited

namespace Violation

/-- Whether a violation comes before or with another in the order by line and column. -/
def placedBefore (a b : Violation) : Bool :=
  a.location.line < b.location.line ||
    (a.location.line == b.location.line && a.location.column ≤ b.location.column)

/-- Violations in the order of their places; those at one place stay in order. -/
def sort (violations : List Violation) : List Violation :=
  violations.mergeSort placedBefore

/-- `file:line:column` -/
def place (v : Violation) : String :=
  v.location.file ++ ":" ++ toString v.location.line ++ ":" ++ toString v.location.column

/-- The violation on one line. -/
def line (v : Violation) : String :=
  v.place ++ ": " ++ v.severity.name ++ " [" ++ v.code ++ "] " ++ v.message

/-- The violation as a paragraph: place, message and suggestion on lines of their own, the severity
shown by a label. -/
def paragraph (v : Violation) (label : String := v.severity.name) : String :=
  let suggestion := match v.suggestion with
    | some text => "  = help: " ++ text ++ "\n"
    | none => ""
  v.code ++ " " ++ v.rule ++ " at " ++ v.place ++ "\n" ++
    "  " ++ label ++ ": " ++ v.message ++ "\n" ++ suggestion

end Violation

/-! ## Reports -/

/-- The outcome of a run over many files. -/
structure Report where
  violations : List Violation := []
  filesChecked : Nat := 0
  /-- Files left out because they did not parse. -/
  filesSkipped : List String := []
deriving DecidableEq, Repr, Inhabited

namespace Report

/-- Whether some violation is at least as grave as a threshold. -/
def hasAtLeast (r : Report) (threshold : Severity) : Bool :=
  r.violations.any fun v => v.severity.atLeast threshold

def bySeverity (r : Report) (severity : Severity) : List Violation :=
  r.violations.filter fun v => v.severity == severity

def byCode (r : Report) (code : String) : List Violation :=
  r.violations.filter fun v => v.code == code

def count (r : Report) (severity : Severity) : Nat :=
  r.violations.countP fun v => v.severity == severity

/-- The counts on one line. -/
def summary (r : Report) : String :=
  "Found " ++ toString (r.count .error) ++ " error(s), " ++ toString (r.count .warning) ++
    " warning(s), " ++ toString (r.count .info) ++ " info(s) in " ++ toString r.filesChecked ++
    " file(s)"

/-- The reports of two runs as one. -/
def append (r s : Report) : Report :=
  { violations := r.violations ++ s.violations
    filesChecked := r.filesChecked + s.filesChecked
    filesSkipped := r.filesSkipped ++ s.filesSkipped }

end Report

end SdkLint
