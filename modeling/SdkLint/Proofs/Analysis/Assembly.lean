import SdkLint.Analysis.Run
import SdkLint.Proofs.Files.PathOrder

/-!
# How a run is put together

A run looks at every file on its own and puts the answers together in the order of paths.  Neither
the order in which the files are found nor what else is found has an influence on what is said about
a file, and of several files that make the run fail the first one in the order of paths decides.

Main definitions:

- `Analysis.violations?`: the violations of a file on its own.
- `Analysis.Stops`: a file makes the run fail.
- `Analysis.Answers`: what a run over some files, in order, has to say.

Main results:

- Theorem `Analysis.answers_checkFiles`: the answer for files in any order is the one for the files
  in the order of their paths.
- Theorem `Analysis.assembled_of_run`: the report of a run is put together from the files found.
- Theorem `Analysis.run_assembles`: runs that find the same files have one answer.
-/

namespace SdkLint

namespace Analysis

/-! ## One file -/

/-- The violations of a file on its own, if it is a text that parses. -/
def violations? (a : Analysis) (file : FoundFile) : Option (List Violation) :=
  (String.fromUTF8? file.contents).bind fun content => (a.checkSource file.path content).toOption

/-- The violations of a file are those of a walk over its tree. -/
theorem violations?_eq_some {a : Analysis} {file : FoundFile} {vs : List Violation} :
    a.violations? file = some vs ↔ ∃ content t, String.fromUTF8? file.contents = some content ∧
      a.frontEnd.parse content = .ok t ∧
      vs = (walk (a.config.activate a.rules)
        ⟨.ofPath file.path content a.root, t, a.resolver⟩).violations := by
  simp only [violations?, Option.bind_eq_some_iff, checkSource]
  refine exists_congr fun content => ?_
  cases a.frontEnd.parse content with
  | error error => simp [Except.toOption]
  | ok t => simp [Except.toOption, eq_comm]

/-- `a.Stops file error`: a file makes the run fail with an error. -/
inductive Stops (a : Analysis) (file : FoundFile) : AnalysisError → Prop where
  | noText (hbytes : String.fromUTF8? file.contents = none) : Stops a file .unreadable
  | noParse {content : String} {error : AnalysisError}
      (htext : String.fromUTF8? file.contents = some content)
      (herror : a.checkSource file.path content = .error error)
      (hfail : a.failOnParseError = true) : Stops a file error

/-- The failures are those that stop a run. -/
theorem outcome_eq_error {a : Analysis} {file : FoundFile} {error : AnalysisError} :
    a.outcome file = .error error ↔ a.Stops file error := by
  constructor
  · intro h
    unfold outcome at h
    split at h
    case h_1 hbytes =>
      cases h
      exact .noText hbytes
    case h_2 content htext =>
      split at h
      case h_1 => cases h
      case h_2 herror =>
        split at h
        case isTrue hfail =>
          cases h
          exact .noParse htext herror hfail
        case isFalse => cases h
  · intro h
    cases h with
    | noText hbytes => simp [outcome, hbytes]
    | noParse htext herror hfail => simp [outcome, htext, herror, hfail]

/-- What comes of a file that does not stop the run depends on whether it parses. -/
theorem outcome_eq_ok {a : Analysis} {file : FoundFile} {came : FileOutcome}
    (h : a.outcome file = .ok came) :
    came = match a.violations? file with
      | some violations => .checked violations
      | none => .skipped file.path := by
  unfold outcome at h
  unfold violations?
  split at h
  case h_1 => cases h
  case h_2 content htext =>
    split at h
    case h_1 violations hok =>
      cases h
      simp [htext, hok, Except.toOption]
    case h_2 error herror =>
      split at h
      case isTrue => cases h
      case isFalse =>
        cases h
        simp [htext, herror, Except.toOption]

/-! ## All files -/

/-- `a.Assembled files report`: none of some files stops the run, and the report gathers what is
said about each of them. -/
structure Assembled (a : Analysis) (files : List FoundFile) (report : Report) : Prop where
  unstopped : ∀ file ∈ files, ∀ error, ¬a.Stops file error
  violations : report.violations = a.configProblems ++ (files.filterMap a.violations?).flatten
  checked : report.filesChecked = (files.filterMap a.violations?).length
  skipped : report.filesSkipped =
    (files.filter fun file => (a.violations? file).isNone).map FoundFile.path

/-- Every violation in a report is about the configuration or about one of the files. -/
theorem Assembled.mem_violations {a : Analysis} {files : List FoundFile} {report : Report}
    (h : a.Assembled files report) {v : Violation} :
    v ∈ report.violations ↔
      v ∈ a.configProblems ∨ ∃ file ∈ files, ∃ vs, a.violations? file = some vs ∧ v ∈ vs := by
  simp only [h.violations, List.mem_append, List.mem_flatten, List.mem_filterMap]
  refine or_congr_right ⟨?_, ?_⟩
  · rintro ⟨vs, ⟨file, hfile, hvs⟩, hv⟩
    exact ⟨file, hfile, vs, hvs, hv⟩
  · rintro ⟨file, hfile, vs, hvs, hv⟩
    exact ⟨vs, ⟨file, hfile, hvs⟩, hv⟩

/-- `a.StopsFirst files error`: some file stops the run with an error, and none before it does. -/
def StopsFirst (a : Analysis) (files : List FoundFile) (error : AnalysisError) : Prop :=
  ∃ before file after, files = before ++ file :: after ∧
    (∀ earlier ∈ before, ∀ error', ¬a.Stops earlier error') ∧ a.Stops file error

/-- What a run over some files, in order, has to say. -/
def Answers (a : Analysis) (files : List FoundFile) : Except AnalysisError Report → Prop
  | .ok report => a.Assembled files report
  | .error error => a.StopsFirst files error

theorem StopsFirst.cons {a : Analysis} {file : FoundFile} {files : List FoundFile}
    {error : AnalysisError} (hfile : ∀ error', ¬a.Stops file error')
    (h : a.StopsFirst files error) : a.StopsFirst (file :: files) error := by
  obtain ⟨before, stopper, after, rfl, hbefore, hstops⟩ := h
  exact ⟨file :: before, stopper, after, rfl, List.forall_mem_cons.2 ⟨hfile, hbefore⟩, hstops⟩

theorem not_stops {a : Analysis} {file : FoundFile} {came : FileOutcome}
    (h : a.outcome file = .ok came) (error : AnalysisError) : ¬a.Stops file error := by
  intro hstops
  rw [outcome_eq_error.2 hstops] at h
  cases h

/-- Looking at files in order fails with the failure of the first one that stops the run. -/
theorem stopsFirst_of_mapM {a : Analysis} {files : List FoundFile} {error : AnalysisError}
    (h : files.mapM a.outcome = .error error) : a.StopsFirst files error := by
  induction files with
  | nil => cases h
  | cons file files ih =>
    rw [List.mapM_cons] at h
    cases hfile : a.outcome file with
    | error first =>
      rw [hfile] at h
      cases h
      exact ⟨[], file, files, rfl, by simp, outcome_eq_error.1 hfile⟩
    | ok came =>
      cases hfiles : files.mapM a.outcome with
      | error later =>
        rw [hfile, hfiles] at h
        cases h
        exact (ih hfiles).cons (not_stops hfile)
      | ok outcomes =>
        rw [hfile, hfiles] at h
        cases h

/-- Looking at files in order succeeds if none stops the run, and adds their reports to what there
is. -/
theorem assembled_of_mapM {a : Analysis} {files : List FoundFile} {outcomes : List FileOutcome}
    (h : files.mapM a.outcome = .ok outcomes) (start : Report) :
    (∀ file ∈ files, ∀ error, ¬a.Stops file error) ∧
      (outcomes.map FileOutcome.report).foldl Report.append start =
        { violations := start.violations ++ (files.filterMap a.violations?).flatten
          filesChecked := start.filesChecked + (files.filterMap a.violations?).length
          filesSkipped := start.filesSkipped ++
            (files.filter fun file => (a.violations? file).isNone).map FoundFile.path } := by
  induction files generalizing outcomes start with
  | nil =>
    cases h
    simp
  | cons file files ih =>
    rw [List.mapM_cons] at h
    cases hfile : a.outcome file with
    | error first =>
      rw [hfile] at h
      cases h
    | ok came =>
      cases hfiles : files.mapM a.outcome with
      | error later =>
        rw [hfile, hfiles] at h
        cases h
      | ok cames =>
        rw [hfile, hfiles] at h
        cases h
        obtain ⟨hunstopped, hreport⟩ := ih hfiles (start.append came.report)
        refine ⟨List.forall_mem_cons.2 ⟨not_stops hfile, hunstopped⟩, ?_⟩
        rw [List.map_cons, List.foldl_cons, hreport, outcome_eq_ok hfile]
        cases hviolations : a.violations? file with
        | none => simp [hviolations, FileOutcome.report, Report.append]
        | some violations =>
          simp [hviolations, FileOutcome.report, Report.append, Nat.add_assoc, Nat.add_comm 1]

theorem checkFiles_eq (a : Analysis) (files : List FoundFile) :
    a.checkFiles files =
      match (FoundFile.sort files).mapM a.outcome with
      | .error error => .error error
      | .ok outcomes =>
        .ok ((outcomes.map FileOutcome.report).foldl Report.append
          { violations := a.configProblems }) :=
  rfl

/-- The answer for files in any order is the one for the files in the order of their paths. -/
theorem answers_checkFiles (a : Analysis) (files : List FoundFile) :
    a.Answers (FoundFile.sort files) (a.checkFiles files) := by
  rw [checkFiles_eq]
  cases h : (FoundFile.sort files).mapM a.outcome with
  | error error => exact stopsFirst_of_mapM h
  | ok outcomes =>
    obtain ⟨hunstopped, hreport⟩ := assembled_of_mapM h { violations := a.configProblems }
    simp only [hreport]
    exact
      { unstopped := hunstopped
        violations := rfl
        checked := Nat.zero_add _
        skipped := List.nil_append _ }

/-- The order in which files with different paths are given plays no part. -/
theorem checkFiles_perm (a : Analysis) {files found : List FoundFile}
    (hdistinct : FoundFile.Distinct files) (hperm : found.Perm files) :
    a.checkFiles found = a.checkFiles files := by
  rw [checkFiles_eq, FoundFile.sort_eq_of_perm hdistinct hperm, checkFiles_eq]

theorem run_eq_checkFiles {a : Analysis} {disk : Disk} {files : List FoundFile}
    (hfound : a.selection.discover disk = .ok files) : a.run disk = a.checkFiles files := by
  rw [run, hfound]

/-- The report of a run is put together from the files found. -/
theorem assembled_of_run {a : Analysis} {disk : Disk} {files : List FoundFile}
    (hfound : a.selection.discover disk = .ok files) {report : Report}
    (hrun : a.run disk = .ok report) : a.Assembled (FoundFile.sort files) report := by
  have hanswers := answers_checkFiles a files
  rwa [← run_eq_checkFiles hfound, hrun] at hanswers

/-- A run that passes over what does not parse gives a report if all files found are texts. -/
theorem exists_report_of_texts {a : Analysis} (hlenient : a.failOnParseError = false) {disk : Disk}
    {files : List FoundFile} (hfound : a.selection.discover disk = .ok files)
    (htexts : ∀ file ∈ files, (String.fromUTF8? file.contents).isSome) :
    ∃ report, a.run disk = .ok report := by
  have hanswers := answers_checkFiles a files
  rw [← run_eq_checkFiles hfound] at hanswers
  cases hrun : a.run disk with
  | ok report => exact ⟨report, rfl⟩
  | error error =>
    rw [hrun] at hanswers
    obtain ⟨before, file, after, hsplit, -, hstops⟩ := hanswers
    have hfile : file ∈ FoundFile.sort files :=
      hsplit ▸ List.mem_append_right _ List.mem_cons_self
    cases hstops with
    | noText hbytes =>
      have htext := htexts file ((FoundFile.sort_perm files).mem_iff.1 hfile)
      rw [hbytes] at htext
      cases htext
    | noParse _ _ hfail =>
      rw [hlenient] at hfail
      cases hfail

/-- A run that finds certain files, each one once, has one answer, in whatever order it finds them.
It puts together what there is to say about each file on its own, in the order of their paths, or
fails as the first file in that order does that cannot be read. -/
theorem run_assembles (a : Analysis) (files : List FoundFile)
    (hdistinct : FoundFile.Distinct files) :
    ∃ ordered answer, ordered.Perm files ∧
      ordered.Pairwise (fun f g => Path.Before f.path g.path) ∧
      a.Answers ordered answer ∧
      ∀ disk found, a.selection.discover disk = .ok found → found.Perm files →
        a.run disk = answer := by
  refine ⟨FoundFile.sort files, a.checkFiles files, FoundFile.sort_perm files,
    FoundFile.sort_ascending hdistinct, answers_checkFiles a files, ?_⟩
  intro disk found hfound hperm
  rw [run, hfound]
  exact checkFiles_perm a hdistinct hperm

/-- A language whose texts are all read as a class with one field, save for one that does not
parse. -/
def classFrontEnd : FrontEnd where
  handles := Java.handles
  parse := fun text =>
    if text == "class" then .error (.badText (.syntaxError ⟨1, 6⟩))
    else
      (Tree.build text
        ([.start .classDef ⟨0, 23⟩ ⟨1, 1⟩, .token "A", .start .classBody ⟨8, 23⟩ ⟨1, 9⟩,
          .start .fieldDef ⟨12, 22⟩ ⟨2, 3⟩, .start .varDeclarator ⟨16, 21⟩ ⟨2, 7⟩] ++
          BuildStep.leaf .ident "x" ⟨16, 17⟩ ⟨2, 7⟩ ++
          BuildStep.leaf .literal "1" ⟨20, 21⟩ ⟨2, 11⟩ ++
          [.finish, .finish, .finish, .finish])).mapError
        fun error => .badText (.build error)

/-- An analysis with a rule that finds the field and one whose options are wrong. -/
def classAnalysis : Analysis where
  root := "/src"
  rules := [FinalFields.rule {}, ImmutableFields.rule { marker := " " }]
  exclude := []
  only := []
  failOnParseError := false
  config := {}
  frontEnd := classFrontEnd
  resolver := fun _ => none

/-- Files in the order of their paths, of which the first one does not parse. -/
def classFiles : List FoundFile :=
  [⟨"/src/a.java", "class".toUTF8⟩, ⟨"/src/b/C.java", "class A \x7b\n  int x = 1;\n\x7d".toUTF8⟩,
    ⟨"/src/b.java", "class A \x7b int x = 1; \x7d".toUTF8⟩]

/-- A disk where they lie in another order. -/
def classDisk : Disk where
  files := classFiles.reverse.map fun file => (Place.ofPath file.path, file.contents)

/-- The run finds the files in the other order and answers for them in the order of their paths. -/
theorem classRun_assembles :
    classAnalysis.selection.discover classDisk = .ok classFiles.reverse ∧
      classAnalysis.Answers classFiles (classAnalysis.run classDisk) := by
  have hdistinct : FoundFile.Distinct classFiles := by
    unfold FoundFile.Distinct
    decide
  have hfound : classAnalysis.selection.discover classDisk = .ok classFiles.reverse := by
    decide +kernel
  have hascending : classFiles.Pairwise fun f g => Path.Before f.path g.path := by
    decide +kernel
  obtain ⟨ordered, answer, hperm, hordered, hanswers, hrun⟩ :=
    run_assembles classAnalysis classFiles hdistinct
  obtain rfl : ordered = classFiles :=
    hperm.eq_of_pairwise (fun f g _ _ hfg hgf => absurd hgf.1 hfg.2) hordered hascending
  rw [hrun classDisk _ hfound (List.reverse_perm _)]
  exact ⟨hfound, hanswers⟩

end Analysis

end SdkLint
