import SdkLint.Finding.Json

/-!
# Listings

The forms in which a report is shown: as paragraphs with the skipped files and the counts at the
end, as one line per violation, or as JSON.

Main definitions:

- `Report.paragraphs`, `Report.compact`, `Report.located`: the listings.
- `Report.listing`: the listing of a report in a format.
-/

namespace SdkLint

/-! ## Colours -/

/-- The codes of colours on a terminal. -/
inductive Colour where
  | red
  | green
  | yellow
  | blue
deriving DecidableEq, Repr

/-- The number of a colour. -/
def Colour.code : Colour → String
  | red => "31"
  | green => "32"
  | yellow => "33"
  | blue => "34"

/-- A text in a colour, if colours are wanted. -/
def paint (colours : Bool) (colour : Colour) (text : String) : String :=
  if colours then "\x1b[" ++ colour.code ++ "m" ++ text ++ "\x1b[0m" else text

/-- The colour of a severity. -/
def Severity.colour : Severity → Colour
  | error => .red
  | warning => .yellow
  | info => .blue

/-! ## Formats -/

/-- The format of a listing. -/
inductive Format where
  /-- Paragraphs. -/
  | text
  | json
  /-- One line per violation. -/
  | compact
  /-- Paragraphs without blank lines between them. -/
  | rich
deriving DecidableEq, Repr, Inhabited

namespace Format

/-- The word for a format. -/
def name : Format → String
  | text => "text"
  | json => "json"
  | compact => "compact"
  | rich => "rich"

/-- The format that a word names. -/
def ofName? (word : String) : Option Format :=
  [text, json, compact, rich].find? fun format => format.name == word

end Format

namespace Report

/-- A line with its line feed. -/
def endLine (line : String) : String :=
  line ++ "\n"

/-- One line per violation. -/
def compact (r : Report) : String :=
  String.join (r.violations.map fun v => endLine v.line)

/-- The colour of the counts. -/
def colour (r : Report) : Colour :=
  if 0 < r.count .error then .red
  else if 0 < r.count .warning then .yellow
  else .green

/-- A paragraph for each violation with a blank line after it, a line for each skipped file, and the
counts. -/
def paragraphs (r : Report) (colours : Bool) : String :=
  let violations := r.violations.map fun v =>
    endLine (v.paragraph (paint colours v.severity.colour v.severity.name))
  let skipped := r.filesSkipped.map fun path => endLine ("skipped " ++ path ++ " (does not parse)")
  String.join (violations ++ skipped) ++ endLine (paint colours r.colour r.summary)

/-- A paragraph for each violation, and the counts. -/
def located (r : Report) : String :=
  String.join (r.violations.map fun v => v.paragraph) ++ endLine r.summary

/-- The listing of a report in a format. -/
def listing (r : Report) (format : Format) (colours : Bool) : String :=
  match format with
  | .text => r.paragraphs colours
  | .json => endLine r.toJson.text
  | .compact => r.compact
  | .rich => r.located

end Report

end SdkLint
