import SdkLint.Finding.Json
import SdkLint.Proofs.Text.Offsets

/-!
# Reading reports back

What a report or a violation is written as is read back as the same report or violation, whatever
texts it holds.  Numbers have to fit a machine word, as those of every run do.  The fields of an
object may come in any order and among unknown ones, and where the suggestion or the list of
skipped files is left out, it is read as missing or empty.

Main definitions:

- `Report.Fits`, `Violation.Fits`: all numbers fit a machine word.
- `Json.Lists`: an object lists certain fields and leaves one out.

Main results:

- Theorem `Violation.ofJson?_toJson`: violations are read back as they were.
- Theorem `Report.ofJson?_toJson`: reports are read back as they were.
- Theorem `reports_read_back`: both, and what is read where a field is left out.
-/

namespace SdkLint

/-! ## Numbers that fit a machine word -/

/-- The numbers of a location fit a machine word. -/
structure Location.Fits (l : Location) : Prop where
  line : FitsWord l.line
  column : FitsWord l.column
  offset : FitsWord l.offset
  length : FitsWord l.length

/-- The numbers of a violation fit a machine word. -/
def Violation.Fits (v : Violation) : Prop :=
  v.location.Fits

/-- The numbers of a report fit a machine word. -/
structure Report.Fits (r : Report) : Prop where
  checked : FitsWord r.filesChecked
  violations : ∀ v ∈ r.violations, v.Fits

/-! ## Objects and their fields -/

namespace Json

/-- The entries of an object list certain fields, in any order and possibly among others, but not
the field with a certain name; no name comes twice. -/
structure Lists (fields : List (String × Json)) (omitted : String)
    (entries : List (String × Json)) : Prop where
  distinct : (entries.map Prod.fst).Nodup
  listed : ∀ field ∈ fields, field ∈ entries
  omits : omitted ∉ entries.map Prod.fst

/-- An entry is found by its name if no name comes twice. -/
theorem lookup_of_mem {entries : List (String × Json)} {name : String} {value : Json}
    (hdistinct : (entries.map Prod.fst).Nodup) (hmem : (name, value) ∈ entries) :
    entries.lookup name = some value := by
  obtain ⟨before, after, rfl⟩ := List.append_of_mem hmem
  rw [List.map_append, List.nodup_append] at hdistinct
  refine List.lookup_eq_some_iff.2 ⟨before, after, rfl, fun entry hentry => ?_⟩
  have hne := hdistinct.2.2 entry.1 (List.mem_map_of_mem hentry) name (by simp)
  simpa using Ne.symm hne

/-- A name that no entry has is not found. -/
theorem lookup_of_notMem {entries : List (String × Json)} {name : String}
    (hnot : name ∉ entries.map Prod.fst) : entries.lookup name = none := by
  rw [List.lookup_eq_none_iff]
  intro entry hentry
  have hne : name ≠ entry.1 := fun h => hnot (h ▸ List.mem_map_of_mem hentry)
  simpa using hne

/-- A field that is listed is read. -/
theorem bind_lookup {α : Type} {entries : List (String × Json)} {name : String} {value : Json}
    {read : Json → Option α} {a : α} (hdistinct : (entries.map Prod.fst).Nodup)
    (hmem : (name, value) ∈ entries) (hread : read value = some a) :
    (entries.lookup name).bind read = some a := by
  rw [lookup_of_mem hdistinct hmem, Option.bind_some, hread]

theorem asNat_int {n : Nat} (h : FitsWord n) : asNat (.int n) = some n := by
  have h : n < 0x10000000000000000 := h
  rw [asNat, if_pos (by omega), Int.toNat_natCast]

/-- A list whose items are read back is read back. -/
theorem asList_map {α : Type} {read : Json → Option α} {write : α → Json} {items : List α}
    (hitems : ∀ item ∈ items, read (write item) = some item) :
    asList read (.arr (items.map write)) = some items := by
  simp only [asList]
  induction items with
  | nil => rfl
  | cons item items ih =>
    rw [List.forall_mem_cons] at hitems
    simp [hitems.1, ih hitems.2]

end Json

/-! ## Severities and locations -/

theorem Severity.ofJson?_toJson (s : Severity) : Severity.ofJson? s.toJson = some s := by
  cases s <;> decide

/-- The fields that every location is written with. -/
def Location.fields (l : Location) : List (String × Json) :=
  [("file", .str l.file), ("line", .int l.line), ("column", .int l.column),
    ("offset", .int l.offset), ("length", .int l.length)]

/-- A location is read off its fields, wherever they stand. -/
theorem Location.ofJson?_obj {l : Location} (hfits : l.Fits) {entries : List (String × Json)}
    (hdistinct : (entries.map Prod.fst).Nodup) (hlisted : ∀ field ∈ l.fields, field ∈ entries) :
    ofJson? (.obj entries) = some l := by
  simp only [fields, List.forall_mem_cons] at hlisted
  obtain ⟨hfile, hline, hcolumn, hoffset, hlength, -⟩ := hlisted
  have hfile : (entries.lookup "file").bind Json.asString = some l.file :=
    Json.bind_lookup hdistinct hfile rfl
  have hline := Json.bind_lookup hdistinct hline (Json.asNat_int hfits.line)
  have hcolumn := Json.bind_lookup hdistinct hcolumn (Json.asNat_int hfits.column)
  have hoffset := Json.bind_lookup hdistinct hoffset (Json.asNat_int hfits.offset)
  have hlength := Json.bind_lookup hdistinct hlength (Json.asNat_int hfits.length)
  simp only [ofJson?, Json.recordPart, Option.bind_eq_bind, Option.bind_some, hfile, hline,
    hcolumn, hoffset, hlength]

theorem Location.ofJson?_toJson {l : Location} (hfits : l.Fits) : ofJson? l.toJson = some l :=
  ofJson?_obj hfits (by simp) fun _ hfield => hfield

/-! ## Violations and reports -/

/-- The fields that every violation is written with. -/
def Violation.fields (v : Violation) : List (String × Json) :=
  [("code", .str v.code), ("rule", .str v.rule), ("severity", v.severity.toJson),
    ("location", v.location.toJson), ("message", .str v.message)]

/-- A violation is read off its fields, wherever they stand, and the entry for its suggestion. -/
theorem Violation.ofJson?_obj {v : Violation} (hfits : v.Fits) {entries : List (String × Json)}
    (hdistinct : (entries.map Prod.fst).Nodup) (hlisted : ∀ field ∈ v.fields, field ∈ entries) :
    ofJson? (.obj entries) =
      (Json.optional suggestionOfJson? (entries.lookup "suggestion")).map
        fun suggestion => { v with suggestion } := by
  simp only [fields, List.forall_mem_cons] at hlisted
  obtain ⟨hcode, hrule, hseverity, hlocation, hmessage, -⟩ := hlisted
  have hcode : (entries.lookup "code").bind Json.asString = some v.code :=
    Json.bind_lookup hdistinct hcode rfl
  have hrule : (entries.lookup "rule").bind Json.asString = some v.rule :=
    Json.bind_lookup hdistinct hrule rfl
  have hseverity := Json.bind_lookup hdistinct hseverity (Severity.ofJson?_toJson v.severity)
  have hlocation := Json.bind_lookup hdistinct hlocation (Location.ofJson?_toJson hfits)
  have hmessage : (entries.lookup "message").bind Json.asString = some v.message :=
    Json.bind_lookup hdistinct hmessage rfl
  simp only [ofJson?, Json.recordPart, Option.bind_eq_bind, Option.bind_some, hcode, hrule,
    hseverity, hlocation, hmessage]
  cases Json.optional suggestionOfJson? (entries.lookup "suggestion") <;> rfl

/-- The entry for a suggestion, if there is one. -/
def Violation.suggestionEntry (v : Violation) : List (String × Json) :=
  (v.suggestion.map fun text => ("suggestion", suggestionToJson text)).toList

/-- Violations are read back as they were. -/
theorem Violation.ofJson?_toJson {v : Violation} (hfits : v.Fits) : ofJson? v.toJson = some v := by
  have hdistinct : ((v.fields ++ v.suggestionEntry).map Prod.fst).Nodup := by
    unfold suggestionEntry
    cases v.suggestion <;> simp [fields]
  have hsuggestion : Json.optional suggestionOfJson?
      ((v.fields ++ v.suggestionEntry).lookup "suggestion") = some v.suggestion := by
    unfold suggestionEntry
    cases v.suggestion <;> rfl
  have hread := ofJson?_obj hfits hdistinct fun field hfield => List.mem_append_left _ hfield
  rw [hsuggestion] at hread
  exact hread

/-- The fields of a report that may not be left out. -/
def Report.fields (r : Report) : List (String × Json) :=
  [("violations", .arr (r.violations.map Violation.toJson)), ("files_checked", .int r.filesChecked)]

/-- A report is read off its fields, wherever they stand, and the entry for the skipped files. -/
theorem Report.ofJson?_obj {r : Report} (hfits : r.Fits) {entries : List (String × Json)}
    (hdistinct : (entries.map Prod.fst).Nodup) (hlisted : ∀ field ∈ r.fields, field ∈ entries) :
    ofJson? (.obj entries) =
      (Json.withDefault (Json.asList Json.asString) [] (entries.lookup "files_skipped")).map
        fun filesSkipped => { r with filesSkipped } := by
  simp only [fields, List.forall_mem_cons] at hlisted
  obtain ⟨hviolations, hchecked, -⟩ := hlisted
  have hviolations := Json.bind_lookup hdistinct hviolations
    (Json.asList_map fun v hv => Violation.ofJson?_toJson (hfits.violations v hv))
  have hchecked := Json.bind_lookup hdistinct hchecked (Json.asNat_int hfits.checked)
  simp only [ofJson?, Json.recordPart, Option.bind_eq_bind, Option.bind_some, hviolations, hchecked]
  cases Json.withDefault (Json.asList Json.asString) [] (entries.lookup "files_skipped") <;> rfl

/-- Reports are read back as they were. -/
theorem Report.ofJson?_toJson {r : Report} (hfits : r.Fits) : ofJson? r.toJson = some r := by
  have hskipped : Json.asList Json.asString (.arr (r.filesSkipped.map .str)) =
      some r.filesSkipped :=
    Json.asList_map fun _ _ => rfl
  rw [toJson, ofJson?_obj hfits (by simp) (by simp [fields])]
  simp [List.lookup_cons, Json.withDefault, hskipped]

/-- Reports and violations are read back as they were, and where an object leaves out the suggestion
or the skipped files, none are read. -/
theorem reports_read_back (r : Report) (v : Violation) (hr : r.Fits) (hv : v.Fits) :
    Report.ofJson? r.toJson = some r ∧
      Violation.ofJson? v.toJson = some v ∧
      (∀ entries, Json.Lists v.fields "suggestion" entries →
        Violation.ofJson? (.obj entries) = some { v with suggestion := none }) ∧
      (∀ entries, Json.Lists r.fields "files_skipped" entries →
        Report.ofJson? (.obj entries) = some { r with filesSkipped := [] }) := by
  refine ⟨Report.ofJson?_toJson hr, Violation.ofJson?_toJson hv, ?_, ?_⟩
  · rintro entries ⟨hdistinct, hlisted, homits⟩
    rw [Violation.ofJson?_obj hv hdistinct hlisted, Json.lookup_of_notMem homits]
    rfl
  · rintro entries ⟨hdistinct, hlisted, homits⟩
    rw [Report.ofJson?_obj hr hdistinct hlisted, Json.lookup_of_notMem homits]
    rfl

/-- A violation whose texts need escapes and whose numbers are as great as they may be. -/
def awkwardViolation : Violation where
  code := "AP009"
  rule := ""
  severity := .error
  location :=
    { file := "src/Größe \"x\"/日本.java", line := 0xffffffffffffffff, column := 0
      offset := 0xffffffffffffffff, length := 7 }
  message := "a tab\t, a quote \" and a backslash \\\nnull"
  suggestion := some ""

/-- A report with such violations and a skipped file. -/
def awkwardReport : Report where
  violations := [awkwardViolation, { awkwardViolation with suggestion := none, severity := .info }]
  filesChecked := 2
  filesSkipped := ["null", "日本/語 .java"]

theorem awkward_reports_read_back :
    Report.ofJson? awkwardReport.toJson = some awkwardReport ∧
      Violation.ofJson? (.obj (("note", .null) :: awkwardViolation.fields.reverse)) =
        some { awkwardViolation with suggestion := none } ∧
      Report.ofJson? (.obj awkwardReport.fields) =
        some { awkwardReport with filesSkipped := [] } := by
  have hv : awkwardViolation.Fits := ⟨by decide, by decide, by decide, by decide⟩
  have hr : awkwardReport.Fits :=
    ⟨by decide, List.forall_mem_cons.2 ⟨hv, List.forall_mem_singleton.2 hv⟩⟩
  obtain ⟨hreport, -, hviolation, hskipped⟩ :=
    reports_read_back awkwardReport awkwardViolation hr hv
  exact ⟨hreport,
    hviolation _ ⟨by decide, fun field hfield => by simp [hfield], by decide⟩,
    hskipped _ ⟨by decide, fun _ hfield => hfield, by decide⟩⟩

end SdkLint
