import Mathlib.Algebra.Order.BigOperators.Group.List
import SdkLint.Proofs.Analysis.Assembly
import SdkLint.Proofs.Finding.CompactLines
import SdkLint.Proofs.Rules.FromCatalogue
import SdkLint.Proofs.Rules.Quotations
import SdkLint.Proofs.Walk.Emission

/-!
# Compact listings of runs

A run of rules of the catalogue over Java files gives a compact listing with one line for each
violation, unless a message quotes a text that goes over several lines in its file.  Then the
listing has as many lines more as there are line feeds in what is quoted.

Main definition:

- `Analysis.QuotesLines`: a violation quotes a text of its file that goes over several lines.

Main result:

- Theorem `Analysis.compact_run`: the lines of the compact listing of a run.
-/

namespace SdkLint

open Text

/-- The options of a configuration that sets none are on one line. -/
theorem Config.oneLined_default : Config.OneLined {} :=
  fun _ _ h => absurd h (Option.not_mem_none _)

namespace Analysis

/-! ## Messages of runs -/

/-- A violation quotes a text of its file, one of some files, that goes over several lines, and has
as many line feeds in its message. -/
def QuotesLines (a : Analysis) (files : List FoundFile) (v : Violation) : Prop :=
  ∃ file ∈ files, ∃ content t text,
    v.location.file = (Path.relativeTo? a.root file.path).getD file.path ∧
    String.fromUTF8? file.contents = some content ∧ a.frontEnd.parse content = .ok t ∧
    t.Quotes v.code text ∧ ¬ OneLine text ∧ countFeeds v.message = countFeeds text

section

variable {a : Analysis} (hrules : ∀ r ∈ a.rules, r.OneLined)

include hrules

/-- What is said about the configuration is on one line. -/
theorem oneLine_of_mem_configProblems {v : Violation} (hv : v ∈ a.configProblems) :
    OneLine v.location.file ∧ OneLine v.code ∧ OneLine v.message := by
  obtain ⟨r, hr, hv⟩ := List.mem_flatMap.1 hv
  obtain ⟨problem, hproblem, rfl⟩ := List.mem_map.1 hv
  have hrule := hrules r (List.mem_filter.1 hr).1
  refine ⟨?_, hrule.name_code.2, hrule.oneLine_problems problem hproblem⟩
  change OneLine Location.config.file
  decide

variable {grammar : String → Java.Concrete} (hjava : a.frontEnd = Java.frontEnd grammar)
  (hnames : ∀ text, (grammar text).NamedOnLines text)

include hjava hnames

/-- The violations of a Java file say what may be said about it. -/
theorem says_of_mem_violations? {file : FoundFile} {vs : List Violation}
    (hvs : a.violations? file = some vs) {v : Violation} (hv : v ∈ vs) :
    ∃ content t, String.fromUTF8? file.contents = some content ∧
      a.frontEnd.parse content = .ok t ∧ OneLine v.code ∧
      v.location.file = (Path.relativeTo? a.root file.path).getD file.path ∧
      t.IsMessage v.code v.message := by
  obtain ⟨content, t, hcontent, hparse, rfl⟩ := violations?_eq_some.1 hvs
  have hparsed : Java.parse (grammar content) content = .ok t :=
    Java.parse_frontEnd_eq_ok.1 (hjava ▸ hparse)
  have hactive : ∀ r ∈ a.config.activate a.rules, r.rule.OneLined := by
    intro r hr
    obtain ⟨rule, hrule, rfl⟩ := List.mem_map.1 hr
    exact hrules rule (List.mem_filter.1 hrule).1
  obtain ⟨hcode, hplace, hmessage⟩ :=
    violations_say hactive (namedOnLines_of_parse (hnames content) hparsed) v hv
  exact ⟨content, t, hcontent, hparse, hcode, hplace, hmessage⟩

/-- A run of rules of the catalogue with options on one line over Java files with paths on one line
gives a compact listing whose lines are the violations exactly if all messages are on one line.
There is a line feed for each violation and one for each line feed in a message, and a message with
line feeds quotes a text that has them in its file. -/
theorem compact_run {disk : Disk} {files : List FoundFile}
    (hfound : a.selection.discover disk = .ok files) (hpaths : ∀ file ∈ files, OneLine file.path)
    {report : Report} (hrun : a.run disk = .ok report) :
    (report.HasLineEach ↔ ∀ v ∈ report.violations, OneLine v.message) ∧
      countFeeds report.compact = report.violations.length +
        (report.violations.map fun v => countFeeds v.message).sum ∧
      ∀ v ∈ report.violations, ¬ OneLine v.message → a.QuotesLines files v := by
  have hmem {v : Violation} := (assembled_of_run hfound hrun).mem_violations (v := v)
  have hframe : ∀ v ∈ report.violations, OneLine v.location.file ∧ OneLine v.code := by
    intro v hv
    rcases hmem.1 hv with hconfig | ⟨file, hfile, vs, hvs, hv⟩
    · obtain ⟨hplace, hcode, -⟩ := oneLine_of_mem_configProblems hrules hconfig
      exact ⟨hplace, hcode⟩
    · obtain ⟨content, t, -, -, hcode, hplace, -⟩ :=
        says_of_mem_violations? hrules hjava hnames hvs hv
      have hpath := hpaths file ((FoundFile.sort_perm files).mem_iff.1 hfile)
      exact ⟨hplace ▸ .getD (fun _ => Path.oneLine_relativeTo? hpath) hpath, hcode⟩
  refine ⟨?_, Report.countFeeds_compact hframe, fun v hv hlines => ?_⟩
  · rw [Report.hasLineEach_iff]
    refine forall₂_congr fun v hv => ?_
    exact Violation.oneLine_line_iff (hframe v hv).1 (hframe v hv).2
  · rcases hmem.1 hv with hconfig | ⟨file, hfile, vs, hvs, hv⟩
    · exact absurd (oneLine_of_mem_configProblems hrules hconfig).2.2 hlines
    · obtain ⟨content, t, hcontent, hparse, -, hplace, hmessage⟩ :=
        says_of_mem_violations? hrules hjava hnames hvs hv
      obtain ⟨text, hquotes, htext, hcount⟩ := hmessage.exists_quotes hlines
      exact ⟨file, (FoundFile.sort_perm files).mem_iff.1 hfile, content, t, text, hplace,
        hcontent, hparse, hquotes, htext, hcount⟩

end

/-! ## A return type on two lines -/

/-- A client whose operation returns a type that is written on two lines. -/
def wrappedText : String :=
  "@ServiceClient\nclass AClient \x7b\n  @ServiceMethod(returns = ReturnType.COLLECTION)\n" ++
    "  Map<String,\n    Integer> go() \x7b\x7d\n\x7d\n"

def wrappedConcrete : Java.Concrete :=
  (Java.Concrete.ofRows? wrappedText
    [{ depth := 0, kind := "program", start := 0, stop := 118 },
      { depth := 1, kind := "class_declaration", start := 0, stop := 117 },
      { depth := 2, kind := "modifiers", start := 0, stop := 14 },
      { depth := 3, kind := "marker_annotation", start := 0, stop := 14 },
      { depth := 4, kind := "@", start := 0, stop := 1, named := false },
      { depth := 4, kind := "identifier", start := 1, stop := 14, field := some "name" },
      { depth := 2, kind := "class", start := 15, stop := 20, named := false },
      { depth := 2, kind := "identifier", start := 21, stop := 28, field := some "name" },
      { depth := 2, kind := "class_body", start := 29, stop := 117 },
      { depth := 3, kind := "\x7b", start := 29, stop := 30, named := false },
      { depth := 3, kind := "method_declaration", start := 33, stop := 115 },
      { depth := 4, kind := "modifiers", start := 33, stop := 80 },
      { depth := 5, kind := "annotation", start := 33, stop := 80 },
      { depth := 6, kind := "@", start := 33, stop := 34, named := false },
      { depth := 6, kind := "identifier", start := 34, stop := 47, field := some "name" },
      { depth := 6, kind := "annotation_argument_list", start := 47, stop := 80 },
      { depth := 7, kind := "(", start := 47, stop := 48, named := false },
      { depth := 7, kind := "element_value_pair", start := 48, stop := 79 },
      { depth := 8, kind := "identifier", start := 48, stop := 55 },
      { depth := 8, kind := "=", start := 56, stop := 57, named := false },
      { depth := 8, kind := "field_access", start := 58, stop := 79 },
      { depth := 9, kind := "identifier", start := 58, stop := 68 },
      { depth := 9, kind := ".", start := 68, stop := 69, named := false },
      { depth := 9, kind := "identifier", start := 69, stop := 79, field := some "field" },
      { depth := 7, kind := ")", start := 79, stop := 80, named := false },
      { depth := 4, kind := "generic_type", start := 83, stop := 107 },
      { depth := 5, kind := "type_identifier", start := 83, stop := 86 },
      { depth := 5, kind := "type_arguments", start := 86, stop := 107 },
      { depth := 6, kind := "<", start := 86, stop := 87, named := false },
      { depth := 6, kind := "type_identifier", start := 87, stop := 93 },
      { depth := 6, kind := ",", start := 93, stop := 94, named := false },
      { depth := 6, kind := "type_identifier", start := 99, stop := 106 },
      { depth := 6, kind := ">", start := 106, stop := 107, named := false },
      { depth := 4, kind := "identifier", start := 108, stop := 110, field := some "name" },
      { depth := 4, kind := "formal_parameters", start := 110, stop := 112 },
      { depth := 5, kind := "(", start := 110, stop := 111, named := false },
      { depth := 5, kind := ")", start := 111, stop := 112, named := false },
      { depth := 4, kind := "block", start := 113, stop := 115 },
      { depth := 5, kind := "\x7b", start := 113, stop := 114, named := false },
      { depth := 5, kind := "\x7d", start := 114, stop := 115, named := false },
      { depth := 3, kind := "\x7d", start := 116, stop := 117, named := false }] false).get (by decide +kernel)

/-- The tree of the client. -/
def wrappedTree : Tree :=
  (Java.treeOf? wrappedConcrete wrappedText).get (by decide +kernel)

/-- A grammar that knows this text.  All others are read as empty ones. -/
def wrappedGrammar (text : String) : Java.Concrete :=
  if text = wrappedText then wrappedConcrete
  else .node { kind := "program", span := ⟨0, 0⟩, point := ⟨0, 0⟩ } []

/-- An analysis with all rules of the catalogue. -/
def wrappedAnalysis : Analysis where
  root := "/src"
  rules := Catalogue.rulesWhere {} fun _ => true
  exclude := []
  only := []
  failOnParseError := false
  config := {}
  frontEnd := Java.frontEnd wrappedGrammar
  resolver := fun _ => none

def wrappedFile : FoundFile :=
  ⟨"/src/AClient.java", wrappedText.toUTF8⟩

/-- A disk with the client only. -/
def wrappedDisk : Disk where
  files := [(["src", "AClient.java"], wrappedText.toUTF8)]

theorem wrappedGrammar_namedOnLines (text : String) :
    (wrappedGrammar text).NamedOnLines text := by
  unfold wrappedGrammar
  split
  · rename_i htext
    subst htext
    unfold Java.Concrete.NamedOnLines
    decide +kernel
  · unfold Java.Concrete.NamedOnLines
    simp [Java.Concrete.subtrees, Java.Concrete.subtreesOf, Java.Concrete.info]

/-- The message about the return type. -/
def wrappedMessage : String :=
  "COLLECTION synchronous service method 'go' must return PagedIterable, " ++
    "found 'Map<String,\n    Integer>'"

theorem fromUTF8?_wrappedFile : String.fromUTF8? wrappedFile.contents = some wrappedText :=
  dif_pos wrappedText.isValidUTF8

theorem exists_mem_emission_wrapped :
    ∃ v ∈ emission (wrappedAnalysis.config.activate wrappedAnalysis.rules)
      ⟨.ofPath wrappedFile.path wrappedText wrappedAnalysis.root, wrappedTree,
        wrappedAnalysis.resolver⟩, v.message = wrappedMessage := by
  decide +kernel

theorem exists_mem_violations?_wrapped :
    ∃ vs, wrappedAnalysis.violations? wrappedFile = some vs ∧
      ∃ v ∈ vs, v.message = wrappedMessage := by
  refine ⟨_, violations?_eq_some.2
    ⟨wrappedText, wrappedTree, fromUTF8?_wrappedFile, ?_, rfl⟩, ?_⟩
  · apply Java.parse_frontEnd_eq_ok.2
    rw [wrappedGrammar, if_pos rfl]
    exact Java.parse_of_treeOf? (Option.some_get _).symm
  · obtain ⟨v, hv, hmessage⟩ := exists_mem_emission_wrapped
    rw [violations_eq_sort_emission]
    exact ⟨v, List.mem_mergeSort.2 hv, hmessage⟩

/-- The compact listing about the client has more lines than there are violations: the message about
the return type quotes it over two lines. -/
theorem wrappedAnalysis_compact :
    ∃ report, wrappedAnalysis.run wrappedDisk = .ok report ∧ ¬ report.HasLineEach ∧
      report.violations.length < countFeeds report.compact ∧
      ∃ v ∈ report.violations, v.message = wrappedMessage ∧
        wrappedAnalysis.QuotesLines [wrappedFile] v := by
  have hfound : wrappedAnalysis.selection.discover wrappedDisk = .ok [wrappedFile] := by
    decide +kernel
  have htexts : ∀ file ∈ [wrappedFile], (String.fromUTF8? file.contents).isSome :=
    List.forall_mem_singleton.2 (Option.isSome_of_eq_some fromUTF8?_wrappedFile)
  obtain ⟨report, hrun⟩ := exists_report_of_texts rfl hfound htexts
  obtain ⟨vs, hvs, v, hv, hmessage⟩ := exists_mem_violations?_wrapped
  have hmem : v ∈ report.violations :=
    (assembled_of_run hfound hrun).mem_violations.2
      (.inr ⟨wrappedFile, List.mem_mergeSort.2 (List.mem_singleton_self _), vs, hvs, hv⟩)
  have hlines : ¬ OneLine v.message := by
    rw [hmessage]
    decide +kernel
  obtain ⟨heach, hcount, hquotes⟩ := compact_run
    (Catalogue.oneLined_of_mem_rulesWhere Config.oneLined_default _) rfl
    wrappedGrammar_namedOnLines hfound (by decide +kernel) hrun
  refine ⟨report, hrun, fun h => hlines (heach.1 h v hmem), ?_, v, hmem, hmessage,
    hquotes v hmem hlines⟩
  have hle : countFeeds v.message ≤ (report.violations.map fun v => countFeeds v.message).sum :=
    List.single_le_sum (fun _ _ => Nat.zero_le _) _ (List.mem_map.2 ⟨v, hmem, rfl⟩)
  have hpositive : countFeeds v.message ≠ 0 := fun h => hlines (countFeeds_eq_zero.1 h)
  omega

end Analysis

end SdkLint
