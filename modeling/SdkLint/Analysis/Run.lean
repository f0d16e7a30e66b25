import SdkLint.Analysis.Basic

/-!
# Running an analysis

The report of a run opens with the problems of the configuration; the violations of the files
follow, file by file in the order of their paths.  A file that does not parse is skipped, or makes
the run fail if the analysis says so; a file that is no text always does.  Of several failures the
first one in the order of paths counts.

Main definitions:

- `Analysis.checkSource`: the violations of one text.
- `Analysis.configProblems`: the problems of the configuration.
- `Analysis.checkFiles`: the report about some files, in whatever order they are given.
- `Analysis.run`: the report about the files on a disk.
-/

namespace SdkLint

namespace Analysis

/-! ## One file -/

/-- The violations of a text as if it lay at a path. -/
def checkSource (a : Analysis) (path content : String) : Except AnalysisError (List Violation) :=
  match a.frontEnd.parse content with
  | .error error => .error (.unparsable path error)
  | .ok tree =>
    let input : WalkInput :=
      { file := .ofPath path content a.root, tree, resolver := a.resolver }
    .ok (walk (a.config.activate a.rules) input).violations

/-- What came of a file. -/
inductive FileOutcome where
  | checked (violations : List Violation)
  /-- It does not parse. -/
  | skipped (path : String)
deriving DecidableEq, Repr

/-- What comes of a file, or the failure that it causes. -/
def outcome (a : Analysis) (file : FoundFile) : Except AnalysisError FileOutcome :=
  match String.fromUTF8? file.contents with
  | none => .error .unreadable
  | some content =>
    match a.checkSource file.path content with
    | .ok violations => .ok (.checked violations)
    | .error error => if a.failOnParseError then .error error else .ok (.skipped file.path)

/-- The report about one file. -/
def FileOutcome.report : FileOutcome → Report
  | checked violations => { violations, filesChecked := 1 }
  | skipped path => { filesSkipped := [path] }

/-! ## All files -/

/-- The violations for what is wrong with the options of the rules that are switched on. -/
def configProblems (a : Analysis) : List Violation :=
  (a.rules.filter fun r => a.config.isEnabled r.name).flatMap fun r =>
    r.problems.map fun problem =>
      { code := r.code
        rule := r.name
        severity := .warning
        location := .config
        message := problem }

/-- The report about some files, in whatever order they are given. -/
def checkFiles (a : Analysis) (files : List FoundFile) : Except AnalysisError Report :=
  let inOrder := files.mergeSort fun f g => Path.le f.path g.path
  match inOrder.mapM a.outcome with
  | .error error => .error error
  | .ok outcomes =>
    .ok ((outcomes.map FileOutcome.report).foldl Report.append { violations := a.configProblems })

/-- The files that the analysis looks at. -/
def selection (a : Analysis) : Selection where
  root := a.root
  exclude := a.exclude
  only := a.only
  respectGitignore := a.config.files.respectGitignore
  handles := a.frontEnd.handles

/-- The report about the files on a disk. -/
def run (a : Analysis) (disk : Disk) : Except AnalysisError Report :=
  match a.selection.discover disk with
  | .error error => .error (.discovery error)
  | .ok files => a.checkFiles files

end Analysis

end SdkLint
