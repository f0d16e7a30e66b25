import SdkLint.Proofs.Rules.FromCatalogue
import SdkLint.Proofs.Walk.Parallel
import SdkLint.Proofs.Walk.Remarks
import SdkLint.Tree.Builder

/-!
# Directives only filter

Rules do not learn what becomes of their findings.  Walks around one tree, with contents that differ
in their allow directives, call the same rules in the same order and get the same answers.  What the
rules say is listed as it is where nothing is allowed; directives take violations out of that list
or turn them into a demand for a reason, one by one, and leave what rules say about their own
failures alone.

Main definitions:

- `Check.IgnoresContent`: a check that does not read the content of the file.
- `OnlyFilters`: what it means that directives only filter.

Main results:

- Theorem `calls_withContent`: the calls of a walk do not depend on the content.
- Theorem `Config.ignoresContent_of_mem_activate`: no rule of the catalogue reads the content.
- Theorem `suppression_only_filters`: directives filter the violations of a walk, one by one.
-/

namespace SdkLint

/-! ## Contents -/

/-- A file with another content. -/
def FileContext.withContent (file : FileContext) (content : String) : FileContext :=
  { file with content }

/-- What a rule may look at, with another content of the file. -/
def Context.withContent (cx : Context) (content : String) : Context :=
  { cx with file := cx.file.withContent content }

@[simp]
theorem Context.withContent_tree (cx : Context) (content : String) :
    (cx.withContent content).tree = cx.tree :=
  rfl

@[simp]
theorem Context.withContent_scopes (cx : Context) (content : String) :
    (cx.withContent content).scopes = cx.scopes :=
  rfl

/-- A walk around the same tree with another content of the file. -/
def WalkInput.withContent (input : WalkInput) (content : String) : WalkInput :=
  { input with file := input.file.withContent content }

@[simp]
theorem WalkInput.withContent_tree (input : WalkInput) (content : String) :
    (input.withContent content).tree = input.tree :=
  rfl

@[simp]
theorem WalkInput.withContent_file (input : WalkInput) (content : String) :
    (input.withContent content).file = input.file.withContent content :=
  rfl

@[simp]
theorem WalkInput.withContent_self (input : WalkInput) :
    input.withContent input.file.content = input :=
  rfl

@[simp]
theorem WalkInput.context_withContent (input : WalkInput) (content : String)
    (scopes : ScopeStack) :
    (input.withContent content).context scopes = (input.context scopes).withContent content :=
  rfl

/-- A check that does not read the content of the file: it answers every call as it would with any
other content. -/
def Check.IgnoresContent (check : Check) : Prop :=
  ∀ (cx : Context) (content : String) (state : check.State) (hook : Hook),
    check.respond (cx.withContent content) state hook = check.respond cx state hook

/-! ## Walks with different contents -/

/-- A check that does not read the content takes the same course with every content. -/
theorem Check.IgnoresContent.answersAlike {check : Check} (h : check.IgnoresContent)
    (input : WalkInput) (content : String) :
    check.AnswersAlike Eq input (input.withContent content) := by
  intro scopes state hook
  rw [WalkInput.context_withContent, h]
  exact ⟨rfl, rfl⟩

section Walks

variable {rules : List ActiveRule}

/-- The calls of a walk, and what the rules answer, do not depend on the content. -/
theorem calls_withContent (ignoring : ∀ r ∈ rules, r.rule.check.IgnoresContent)
    (input : WalkInput) (content : String) :
    (walk rules (input.withContent content)).calls = (walk rules input).calls := by
  have hcalls := calls_eq (input.withContent_tree content)
    (fun r hr => (ignoring r hr).answersAlike input content) ActiveRule.severity
  rwa [ActiveRule.map_graded_severity] at hcalls

/-- What directives leave of a remark does not depend on the content that the file has. -/
theorem Remark.filtered_withContent (file : FileContext) (content : String) :
    Remark.filtered (file.withContent content) = Remark.filtered file := by
  funext text m
  cases m <;> rfl

/-- The things that the rules of a walk say do not depend on the content. -/
theorem remarks_withContent (ignoring : ∀ r ∈ rules, r.rule.check.IgnoresContent)
    (input : WalkInput) (content : String) :
    remarks rules (input.withContent content) = remarks rules input := by
  have hviolation : Remark.violation (input.file.withContent content) =
      Remark.violation input.file := by
    funext m
    cases m <;> rfl
  simp only [remarks, calls_withContent ignoring, WalkInput.withContent_tree,
    WalkInput.withContent_file, hviolation]

/-- The violations of a walk with any content are what its directives leave of what the rules
say. -/
theorem violations_withContent (ignoring : ∀ r ∈ rules, r.rule.check.IgnoresContent)
    (input : WalkInput) (content : String) :
    (walk rules (input.withContent content)).violations =
      (remarks rules input).filterMap (Remark.filtered input.file content.toList) := by
  rw [violations_eq_filterMap_remarks, remarks_withContent ignoring, WalkInput.withContent_file,
    Remark.filtered_withContent]
  rfl

end Walks

/-! ## Contents without directives -/

/-- Whether no line of a content holds a directive. -/
def Directive.AbsentFrom (content : List Char) : Prop :=
  ∀ line ∈ Text.lines content, Directive.parse line = none

instance (content : List Char) : Decidable (Directive.AbsentFrom content) :=
  inferInstanceAs (Decidable (∀ line ∈ Text.lines content, Directive.parse line = none))

/-- Without directives nothing is allowed. -/
theorem Directive.AbsentFrom.check_eq {content : List Char} (h : Directive.AbsentFrom content)
    (line : Nat) (name code : String) : Directive.check content line name code = .denied := by
  unfold Directive.check
  split
  · rfl
  · dsimp only
    split
    · next d hcovering =>
      obtain ⟨text, htext, hd⟩ := List.exists_of_findSome?_eq_some hcovering
      rw [h text (List.mem_of_mem_drop (List.mem_of_mem_take htext))] at hd
      cases hd
    · rfl

/-- Without directives all that rules say is listed as it is. -/
theorem Directive.AbsentFrom.filtered_eq {content : List Char} (h : Directive.AbsentFrom content)
    (file : FileContext) : Remark.filtered file content = some ∘ Remark.violation file := by
  funext m
  cases m with
  | finding r f => simp only [Remark.filtered, h.check_eq, Function.comp_apply]
  | failure r position e => rfl

/-! ## The rules of the catalogue -/

/-- A check that looks at every node by itself reads what its judgement reads. -/
theorem Check.ofNodes_ignoresContent {α : Type} (judge : α → Context → NodeId → Verdict)
    (h : ∀ options cx content i, judge options (cx.withContent content) i = judge options cx i)
    (options : α) : (Check.ofNodes (judge options)).IgnoresContent := by
  intro cx content state hook
  cases hook with
  | enter i => exact congrArg (Prod.mk ()) (h options cx content i)
  | leave i => rfl
  | finish => rfl

/-- No rule of the catalogue reads the content of the file. -/
theorem Rule.FromCatalogue.ignoresContent {rule : Rule} (h : rule.FromCatalogue) :
    rule.check.IgnoresContent := by
  cases h with
  | finalFields o =>
      intro cx content state hook
      cases hook <;> rfl
  | immutableFields o =>
      exact Check.ofNodes_ignoresContent ImmutableFields.judge (fun _ _ _ _ => rfl) o
  | clientShape o => exact Check.ofNodes_ignoresContent ClientShape.judge (fun _ _ _ _ => rfl) o
  | directThrow policy =>
      exact Check.ofNodes_ignoresContent DirectThrow.judge (fun _ _ _ _ => rfl) policy
  | loggerThrow policy =>
      exact Check.ofNodes_ignoresContent LoggerThrow.judge (fun _ _ _ _ => rfl) policy
  | loggedThrown policy =>
      exact Check.ofNodes_ignoresContent LoggedThrown.judge (fun _ _ _ _ => rfl) policy
  | causeKept policy =>
      exact Check.ofNodes_ignoresContent CauseKept.judge (fun _ _ _ _ => rfl) policy
  | bannedApi o => exact Check.ofNodes_ignoresContent BannedApi.judge (fun _ _ _ _ => rfl) o
  | javadoc severity =>
      exact Check.ofNodes_ignoresContent (fun _ => Javadoc.judge) (fun _ _ _ _ => rfl) ()
  | logging o =>
      refine Check.ofNodes_ignoresContent Logging.judge (fun o cx content i => ?_) o
      exact Logging.judge_congr o (cx.withContent_tree content) (cx.withContent_scopes content) i

/-- Nor does a rule that a configuration leaves switched on. -/
theorem Config.ignoresContent_of_mem_activate (c : Config) (wanted : CatalogueEntry → Bool) :
    ∀ r ∈ c.activate (Catalogue.rulesWhere c wanted), r.rule.check.IgnoresContent :=
  fun r hr => (c.fromCatalogue_of_mem_activate wanted r hr).ignoresContent

/-! ## Suppression -/

/-- What it means that the directives of a content only filter what a walk lists. -/
structure OnlyFilters (rules : List ActiveRule) (input : WalkInput) (content : String) : Prop where
  /-- The same rules are called in the same order, are shown the same scopes and answer the same. -/
  calls : (walk rules (input.withContent content)).calls = (walk rules input).calls
  /-- Without directives, what the rules say is listed as it is, in the order of places. -/
  unfiltered : (walk rules input).violations =
    (remarks rules input).map (Remark.violation input.file)
  /-- With directives, that list is filtered one by one. -/
  filtered : (walk rules (input.withContent content)).violations =
    (remarks rules input).filterMap (Remark.filtered input.file content.toList)

/-- Directives only filter: whatever directives a content has, walking with it lists what is listed
without directives, in the same order, with each allowed finding dropped or replaced by a demand for
a reason and nothing else changed. -/
theorem suppression_only_filters (rules : List ActiveRule) (input : WalkInput) (content : String)
    (ignoring : ∀ r ∈ rules, r.rule.check.IgnoresContent)
    (absent : Directive.AbsentFrom input.file.content.toList) :
    OnlyFilters rules input content where
  calls := calls_withContent ignoring input content
  unfiltered := by
    have h := violations_withContent ignoring input input.file.content
    rwa [WalkInput.withContent_self, absent.filtered_eq, List.filterMap_eq_map] at h
  filtered := violations_withContent ignoring input content

/-! ## A walk with a directive -/

/-- The steps that build a class with two fields that should be final and an assignment to
nothing. -/
def fieldsSteps : List BuildStep :=
  [.start .classDef ⟨0, 0⟩ ⟨1, 1⟩, .token "A", .start .classBody ⟨0, 0⟩ ⟨1, 9⟩] ++
    ([("x", 2), ("y", 3)].flatMap fun (name, line) =>
      [.start .fieldDef ⟨0, 0⟩ ⟨line, 3⟩, .start .varDeclarator ⟨0, 0⟩ ⟨line, 7⟩] ++
        BuildStep.leaf .ident name ⟨0, 0⟩ ⟨line, 7⟩ ++
        BuildStep.leaf .literal "1" ⟨0, 0⟩ ⟨line, 11⟩ ++ [.finish, .finish]) ++
    [.start .assign ⟨0, 0⟩ ⟨4, 3⟩, .finish, .finish, .finish]

/-- The class without directives. -/
def fieldsInput : WalkInput where
  file := .ofPath "A.java" "class A \x7b\n  int x = 1;\n  int y = 1;\n  = ;\n\x7d\n" ""
  tree := ((Tree.build "" fieldsSteps).toOption).get (by decide +kernel)
  resolver := fun _ => none

/-- The class with a directive that covers the first of the fields and gives no reason. -/
def fieldsAllowed : String :=
  "class A \x7b // apilint: allow(AP001)\n  int x = 1;\n  int y = 1;\n  = ;\n\x7d\n"

/-- The first field needs a reason; the second one and the failure stay as they are. -/
theorem fieldsAllowed_filters :
    (∀ r ∈ catalogueRules, r.rule.check.IgnoresContent) ∧
      Directive.AbsentFrom fieldsInput.file.content.toList ∧
      OnlyFilters catalogueRules fieldsInput fieldsAllowed ∧
      ((emission catalogueRules fieldsInput).map fun v => (v.severity, v.location.line)) =
        [(.info, 4), (.error, 2), (.error, 3)] ∧
      ((emission catalogueRules (fieldsInput.withContent fieldsAllowed)).map fun v =>
        (v.severity, v.location.line)) = [(.info, 4), (.warning, 2), (.error, 3)] := by
  have hignoring : ∀ r ∈ catalogueRules, r.rule.check.IgnoresContent :=
    Config.ignoresContent_of_mem_activate {} _
  have habsent : Directive.AbsentFrom fieldsInput.file.content.toList := by decide +kernel
  exact ⟨hignoring, habsent, suppression_only_filters _ _ _ hignoring habsent,
    by decide +kernel, by decide +kernel⟩

end SdkLint
