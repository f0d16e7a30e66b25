import SdkLint.Rules.Catalogue

/-!
# The rules of the catalogue

What holds of the rules of the catalogue, whatever their options are, is proved rule by rule; it
then holds of every rule that a configuration builds and leaves switched on.

Main definitions:

- `Rule.FromCatalogue`: a rule of the catalogue, with any options.
- `catalogueRules`: all of them, as they are without a configuration.

Main results:

- Theorem `Catalogue.fromCatalogue_build`: the entries of the catalogue build its rules.
- Theorem `Config.fromCatalogue_of_mem_activate`: a configuration activates rules of the catalogue.
-/

namespace SdkLint

/-! ## Membership -/

/-- A rule of the catalogue, with any options. -/
inductive Rule.FromCatalogue : Rule → Prop
  | finalFields (o : FinalFields.Options) : FromCatalogue (FinalFields.rule o)
  | immutableFields (o : ImmutableFields.Options) : FromCatalogue (ImmutableFields.rule o)
  | clientShape (o : ClientShape.Options) : FromCatalogue (ClientShape.rule o)
  | directThrow (policy : ExceptionPolicy) : FromCatalogue (DirectThrow.rule policy)
  | loggerThrow (policy : ExceptionPolicy) : FromCatalogue (LoggerThrow.rule policy)
  | loggedThrown (policy : ExceptionPolicy) : FromCatalogue (LoggedThrown.rule policy)
  | causeKept (policy : ExceptionPolicy) : FromCatalogue (CauseKept.rule policy)
  | bannedApi (o : BannedApi.Options) : FromCatalogue (BannedApi.rule o)
  | javadoc (severity : Severity) : FromCatalogue (Javadoc.rule severity)
  | logging (o : Logging.Options) : FromCatalogue (Logging.rule o)

/-- The entries of the catalogue build its rules. -/
theorem Catalogue.fromCatalogue_build {e : CatalogueEntry} (he : e ∈ entries) (c : Config) :
    (e.build c).FromCatalogue := by
  simp only [entries, List.mem_cons, List.not_mem_nil, or_false] at he
  rcases he with rfl | rfl | rfl | rfl | rfl | rfl | rfl | rfl | rfl | rfl <;> constructor

/-- The rules that a configuration builds and leaves switched on are rules of the catalogue. -/
theorem Config.fromCatalogue_of_mem_activate (c : Config) (wanted : CatalogueEntry → Bool) :
    ∀ r ∈ c.activate (Catalogue.rulesWhere c wanted), r.rule.FromCatalogue := by
  intro r hr
  obtain ⟨rule, hrule, rfl⟩ := List.mem_map.1 hr
  obtain ⟨e, he, rfl⟩ := List.mem_map.1 (List.mem_filter.1 hrule).1
  exact Catalogue.fromCatalogue_build (List.mem_filter.1 he).1 c

/-- All rules of the catalogue, as they are without a configuration. -/
def catalogueRules : List ActiveRule :=
  Config.activate {} (Catalogue.rulesWhere {} fun _ => true)

/-! ## What rules look at -/

namespace Logging

variable (o : Options) {cx cx' : Context}

/-- How a logger is made is judged by the tree and the scopes. -/
theorem checkConstruction_congr (tree : cx'.tree = cx.tree) (scopes : cx'.scopes = cx.scopes)
    (i : NodeId) : checkConstruction o cx' i = checkConstruction o cx i := by
  unfold checkConstruction
  rw [tree, scopes]

theorem judge_congr (tree : cx'.tree = cx.tree) (scopes : cx'.scopes = cx.scopes) (i : NodeId) :
    judge o cx' i = judge o cx i := by
  simp only [judge, tree, checkConstruction_congr o tree scopes]

end Logging

end SdkLint
