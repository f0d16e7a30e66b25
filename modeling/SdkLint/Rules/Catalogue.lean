import SdkLint.Config.Basic
import SdkLint.Rule.Walk
import SdkLint.Rules.BannedApi
import SdkLint.Rules.CauseKept
import SdkLint.Rules.ClientShape
import SdkLint.Rules.DirectThrow
import SdkLint.Rules.FinalFields
import SdkLint.Rules.ImmutableFields
import SdkLint.Rules.Javadoc
import SdkLint.Rules.LoggedThrown
import SdkLint.Rules.LoggerThrow
import SdkLint.Rules.Logging

/-!
# The catalogue of rules

All rules in the order of their codes, each with the way it takes its options from a configuration,
and the presets that select among them.
-/

namespace SdkLint

/-! ## Options from a configuration -/

namespace ImmutableFields

/-- The options that a configuration sets. -/
def Options.ofConfig (c : Config) : Options :=
  match c.section? name with
  | some s => { marker := (s.text? "marker").getD "Immutable" }
  | none => {}

end ImmutableFields

namespace ClientShape

/-- The options that a configuration sets. -/
def Options.ofConfig (c : Config) : Options :=
  let standard : Options := {}
  match c.section? name with
  | some s =>
    { marker := (s.text? "marker").getD standard.marker
      operationMarker := (s.text? "operation_marker").getD standard.operationMarker
      syncSuffix := (s.text? "sync_suffix").getD standard.syncSuffix
      asyncSuffix := (s.text? "async_suffix").getD standard.asyncSuffix
      returnTypes := (s.textTable "return_types").foldl
        (fun table (key, value) => table.set key value) standard.returnTypes }
  | none => standard

end ClientShape

namespace BannedApi

/-- The options that a configuration sets. -/
def Options.ofConfig (c : Config) : Options :=
  match c.section? name with
  | some s =>
    { bannedNames := (s.texts? "banned_names").getD []
      message := (s.text? "message").getD defaultMessage }
  | none => {}

end BannedApi

namespace Logging

/-- The options that a configuration sets. -/
def Options.ofConfig (c : Config) : Options :=
  let standard : Options := {}
  match c.section? name with
  | some s =>
    { loggerType := (s.text? "logger_type").getD standard.loggerType
      bannedPackages := (s.texts? "banned_logging_packages").getD standard.bannedPackages }
  | none => standard

end Logging

/-! ## The catalogue -/

/-- An entry of the catalogue. -/
structure CatalogueEntry where
  name : String
  code : String
  /-- The rule with the options that a configuration sets. -/
  build : Config → Rule

namespace Catalogue

/-- All rules, in the order of their codes. -/
def entries : List CatalogueEntry :=
  [⟨FinalFields.name, FinalFields.code, fun _ => FinalFields.rule {}⟩,
   ⟨ImmutableFields.name, ImmutableFields.code, fun c => ImmutableFields.rule (.ofConfig c)⟩,
   ⟨ClientShape.name, ClientShape.code, fun c => ClientShape.rule (.ofConfig c)⟩,
   ⟨DirectThrow.name, DirectThrow.code, fun c =>
     DirectThrow.rule (.ofConfig c DirectThrow.name)⟩,
   ⟨LoggerThrow.name, LoggerThrow.code, fun c =>
     LoggerThrow.rule (.ofConfig c LoggerThrow.name)⟩,
   ⟨LoggedThrown.name, LoggedThrown.code, fun c =>
     LoggedThrown.rule (.ofConfig c LoggedThrown.name)⟩,
   ⟨CauseKept.name, CauseKept.code, fun c => CauseKept.rule (.ofConfig c CauseKept.name)⟩,
   ⟨BannedApi.name, BannedApi.code, fun c => BannedApi.rule (.ofConfig c)⟩,
   ⟨Javadoc.name, Javadoc.code, fun _ => Javadoc.rule⟩,
   ⟨Logging.name, Logging.code, fun c => Logging.rule (.ofConfig c)⟩]

/-- The rule with a name, or with a code in upper or lower case. -/
def find? (nameOrCode : String) : Option CatalogueEntry :=
  entries.find? fun e =>
    e.name == nameOrCode || e.code.toList.map Char.toLower == nameOrCode.toList.map Char.toLower

/-- The rules whose entries satisfy a test, with the options that a configuration sets. -/
def rulesWhere (c : Config) (wanted : CatalogueEntry → Bool) : List Rule :=
  (entries.filter wanted).map fun e => e.build c

end Catalogue

/-! ## Presets -/

/-- A named selection of rules. -/
inductive Preset where
  /-- All rules but the one that does nothing without options. -/
  | recommended
  /-- All rules. -/
  | strict
  /-- The rules about the shape of the interface and the causes of exceptions. -/
  | minimal
deriving DecidableEq, Repr, Inhabited

/-- A name that is no preset's. -/
structure UnknownPreset where
  name : String
deriving DecidableEq, Repr

/-- What is said about a name that is no preset's. -/
def UnknownPreset.message (e : UnknownPreset) : String :=
  "unknown preset '" ++ e.name ++ "' (expected recommended, strict or minimal)"

namespace Preset

/-- The preset with a name, in upper or lower case and with blanks around it. -/
def ofName (text : String) : Except UnknownPreset Preset :=
  match String.ofList ((Text.trimBoth text.toList).map Char.toLower) with
  | "recommended" => .ok .recommended
  | "strict" => .ok .strict
  | "minimal" => .ok .minimal
  | _ => .error ⟨text⟩

/-- The names of the rules of a preset. -/
def ruleNames : Preset → List String
  | recommended => (Catalogue.entries.filter fun e => e.name != BannedApi.name).map (·.name)
  | strict => Catalogue.entries.map (·.name)
  | minimal => [ImmutableFields.name, ClientShape.name, CauseKept.name]

/-- The rules of a preset with the options that a configuration sets. -/
def rules (p : Preset) (c : Config) : List Rule :=
  Catalogue.rulesWhere c fun e => p.ruleNames.contains e.name

end Preset

namespace Config

/-- The preset that a configuration chooses. -/
def chosenPreset (c : Config) : Except UnknownPreset Preset :=
  match c.preset with
  | some name => Preset.ofName name
  | none => .ok .recommended

/-- The rules that a configuration asks for: those of its preset and those that have a section. -/
def chosenRules (c : Config) : Except UnknownPreset (List Rule) :=
  match c.chosenPreset with
  | .error e => .error e
  | .ok preset => .ok (Catalogue.rulesWhere c fun e =>
      preset.ruleNames.contains e.name || (c.section? e.name).isSome)

/-- The rules that a configuration leaves switched on, at the severities that it gives them. -/
def activate (c : Config) (rules : List Rule) : List ActiveRule :=
  (rules.filter fun r => c.isEnabled r.name).map fun r =>
    { rule := r, severity := (c.severityOf r.name).getD r.severity }

end Config

end SdkLint
