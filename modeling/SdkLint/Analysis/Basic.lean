import SdkLint.Files.Discovery
import SdkLint.Java.Parse
import SdkLint.Rules.Catalogue

/-!
# Analyses

An `Analysis` is a run over many files that has been set up: where it looks, what it leaves out, the
rules with their configuration, the front end that reads files, and what is known about types.

Main definitions:

- `FrontEnd`: a language.
- `FrontEndError`: why a front end has no tree for a text.
- `AnalysisError`: why a run fails.
- `AnalysisRequest.build`: sets up a run; what a request leaves open the configuration decides.
-/

namespace SdkLint

/-! ## Front ends -/

/-- Why a front end has no tree for a text. -/
inductive FrontEndError where
  /-- The grammar of its language cannot be loaded. -/
  | noGrammar (language message : String)
  /-- The grammar gives up on the text. -/
  | noTree
  /-- The text is not in the language, or its building steps describe no tree. -/
  | badText (error : Java.ParseError)
deriving DecidableEq, Repr

/-- What is said about an error. -/
def FrontEndError.message : FrontEndError → String
  | noGrammar language message => "failed to load " ++ language ++ " grammar: " ++ message
  | noTree => "parser produced no tree"
  | badText error => error.message

/-- A language whose files can be checked. -/
structure FrontEnd where
  /-- Whether the file at a path holds the language. -/
  handles : String → Bool
  /-- The syntax tree of a text. -/
  parse : String → Except FrontEndError Tree

/-- Java, given a grammar that finds the concrete tree of a text. -/
def Java.frontEnd (grammar : String → Java.Concrete) : FrontEnd where
  handles := Java.handles
  parse := fun text => (Java.parse (grammar text) text).mapError .badText

/-- Java has the trees that its grammar leads to. -/
theorem Java.parse_frontEnd_eq_ok {grammar : String → Java.Concrete} {text : String} {t : Tree} :
    (Java.frontEnd grammar).parse text = .ok t ↔ Java.parse (grammar text) text = .ok t := by
  change (Java.parse (grammar text) text).mapError FrontEndError.badText = .ok t ↔ _
  cases Java.parse (grammar text) text with
  | error error => exact ⟨nofun, nofun⟩
  | ok tree =>
    constructor
    · intro h
      exact congrArg Except.ok (Except.ok.inj h)
    · intro h
      exact congrArg Except.ok (Except.ok.inj h)

/-! ## Errors -/

/-- Why a run fails. -/
inductive AnalysisError where
  /-- A file is no text. -/
  | unreadable
  /-- A file does not parse. -/
  | unparsable (path : String) (error : FrontEndError)
  /-- The files to look at cannot be found. -/
  | discovery (error : DiscoveryError)
  /-- There is no language to read files in. -/
  | noFrontEnd
deriving DecidableEq, Repr

/-- What is said about an error. -/
def AnalysisError.message : AnalysisError → String
  | unreadable => "IO error: stream did not contain valid UTF-8"
  | unparsable path error => "Parse error in " ++ path ++ ": " ++ error.message
  | discovery .badPattern => "Invalid glob pattern"
  | discovery .badRoot => "Walk error"
  | noFrontEnd => "No source parser configured"

/-! ## Setting up -/

/-- A run that has been set up. -/
structure Analysis where
  /-- Where the files lie: an absolute path. -/
  root : String
  rules : List Rule
  exclude : List String
  only : List String
  failOnParseError : Bool
  config : Config
  frontEnd : FrontEnd
  /-- What is known about types. -/
  resolver : TypeResolver

/-- What may be said about a run; the rest is up to the configuration. -/
structure AnalysisRequest where
  root : Option String := none
  rules : List Rule
  /-- Patterns in addition to those of the configuration. -/
  exclude : List String := []
  only : List String := []
  failOnParseError : Option Bool := none
  config : Config := {}
  frontEnd : Option FrontEnd := none
  /-- What is known about types, if not what the configuration lists. -/
  resolver : Option TypeResolver := none

/-- Sets up a run.  Relative paths start at `folder`. -/
def AnalysisRequest.build (r : AnalysisRequest) (folder : String) :
    Except AnalysisError Analysis :=
  match r.frontEnd with
  | none => .error .noFrontEnd
  | some frontEnd => .ok
    { root := Path.join folder (r.root.getD r.config.files.root)
      rules := r.rules
      exclude := r.exclude ++ r.config.files.exclude
      only := r.only ++ r.config.files.only
      failOnParseError := r.failOnParseError.getD r.config.files.failOnParseError
      config := r.config
      frontEnd
      resolver := r.resolver.getD r.config.typeTable.resolve }

end SdkLint
