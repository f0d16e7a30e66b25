import SdkLint.Cause.Policy
import SdkLint.Finding.Basic
import SdkLint.Rule.Context
import SdkLint.Toml.Value

/-!
# Configurations

A configuration chooses a preset of rules, switches rules on and off, overrides their severities,
sets their options, says which files to look at, and lists known types.
-/

namespace SdkLint

/-- The section of a rule. -/
structure RuleSection where
  enabled : Option Bool := none
  severity : Option Severity := none
  /-- All other entries of the section. -/
  options : Toml.Table := []
deriving Repr, Inhabited

namespace RuleSection

/-- The text of an option, if it is one. -/
def text? (s : RuleSection) (key : String) : Option String :=
  (s.options.lookup key).bind Toml.Value.asString

/-- The texts in a list option; other elements are left out.  A list without texts is not the same
as no list. -/
def texts? (s : RuleSection) (key : String) : Option (List String) :=
  ((s.options.lookup key).bind Toml.Value.asArray).map fun items =>
    items.filterMap Toml.Value.asString

/-- The texts in a table option with their keys; other entries are left out. -/
def textTable (s : RuleSection) (key : String) : List (String × String) :=
  (((s.options.lookup key).bind Toml.Value.asTable).getD []).filterMap fun (name, value) =>
    value.asString.map fun text => (name, text)

end RuleSection

/-- Which files a run looks at, and how. -/
structure FileSelection where
  root : String := "."
  /-- Patterns of the files that are left out. -/
  exclude : List String := []
  /-- Patterns of the files that are looked at, all if there are none. -/
  only : List String := []
  respectGitignore : Bool := true
  /-- Whether a file that does not parse makes the run fail. -/
  failOnParseError : Bool := false
deriving DecidableEq, Repr, Inhabited

namespace FileSelection

/-- The selection of a configuration that says nothing about files: build results are left out. -/
def standard : FileSelection :=
  { exclude := ["**/target/**", "**/build/**"] }

end FileSelection

/-- What a configuration says about a type. -/
structure TypeEntry where
  name : String
  superclass : Option String := none
  interfaces : List String := []
deriving DecidableEq, Repr, Inhabited

/-- A configuration. -/
structure Config where
  preset : Option String := none
  /-- The least severity that makes a run fail. -/
  failOn : Option Severity := none
  files : FileSelection := .standard
  /-- The sections of rules by name. -/
  rules : List (String × RuleSection) := []
  types : List TypeEntry := []
deriving Repr, Inhabited

namespace Config

/-- The section of a rule. -/
def section? (c : Config) (rule : String) : Option RuleSection :=
  c.rules.lookup rule

/-- Whether a rule is switched on; it is unless its section says otherwise. -/
def isEnabled (c : Config) (rule : String) : Bool :=
  ((c.section? rule).bind RuleSection.enabled).getD true

/-- The severity that the configuration gives to a rule. -/
def severityOf (c : Config) (rule : String) : Option Severity :=
  (c.section? rule).bind RuleSection.severity

section Lookups

variable {c : Config} {rule : String}

/-- Nothing but its section switches a rule off. -/
theorem isEnabled_eq_false_iff :
    c.isEnabled rule = false ↔ ∃ s, c.section? rule = some s ∧ s.enabled = some false := by
  simp [isEnabled, Option.getD_eq_iff, Option.bind_eq_some_iff]

theorem severityOf_eq_some_iff {severity : Severity} :
    c.severityOf rule = some severity ↔
      ∃ s, c.section? rule = some s ∧ s.severity = some severity := by
  simp [severityOf, Option.bind_eq_some_iff]

theorem severityOf_eq_none_iff :
    c.severityOf rule = none ↔ ∀ s, c.section? rule = some s → s.severity = none := by
  simp [severityOf, Option.bind_eq_none_iff]

end Lookups

/-- The table of the types that the configuration lists. -/
def typeTable (c : Config) : TypeTable :=
  .ofEntries (c.types.map fun entry =>
    (entry.name, { superclass := entry.superclass, interfaces := entry.interfaces }))

end Config

namespace ExceptionPolicy

/-- The section that the rules about exceptions share. -/
def sharedSection : String := "exception-discipline"

/-- The policy with what a section says about it. -/
def override (policy : ExceptionPolicy) (s : RuleSection) : ExceptionPolicy where
  allowedDirect := (s.texts? "allowed_direct_exceptions").getD policy.allowedDirect
  factories := (s.texts? "sanctioned_factories").getD policy.factories
  generatedSuffixes := (s.texts? "generated_marker_suffixes").getD policy.generatedSuffixes

/-- The policy of a rule: the shared section first, then the rule's own. -/
def ofConfig (c : Config) (rule : String) : ExceptionPolicy :=
  ([c.section? sharedSection, c.section? rule].filterMap id).foldl override {}

end ExceptionPolicy

end SdkLint
