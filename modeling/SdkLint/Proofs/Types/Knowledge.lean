import SdkLint.Proofs.Rules.FromCatalogue
import SdkLint.Proofs.Tree.Building
import SdkLint.Proofs.Types.Chain
import SdkLint.Proofs.Walk.Emission
import SdkLint.Proofs.Walk.Parallel

/-!
# Knowing more about types removes findings

What is known about types lets exceptions and setters pass and is never held against anything.  With
more knowledge the same rules of the catalogue are called in the same order and fail in the same
way, and each call reports a part of what it reported: the violations of the walk are a part of what
they were.

Main definitions:

- `WalkInput.withResolver`: a walk around the same tree with other knowledge about types.
- `Verdict.Leaner`: an answer with the same failure and a part of the findings.

Main results:

- Theorem `DirectThrow.judge_leaner`, theorem `ImmutableFields.judge_leaner`: the two rules that ask
  about types report less when more is known.
- Theorem `Rule.FromCatalogue.answersLeaner`: the rules of the catalogue answer leaner.
- Theorem `emission_sublist`: leaner answers give rise to a part of the violations.
- Theorem `knowledge_only_removes`: with more knowledge about types, a part of the violations is
  left.
-/

namespace SdkLint

/-! ## Other knowledge -/

/-- What a rule may look at, with other knowledge about types. -/
def Context.withResolver (cx : Context) (resolver : TypeResolver) : Context :=
  { cx with resolver }

@[simp]
theorem Context.withResolver_tree (cx : Context) (resolver : TypeResolver) :
    (cx.withResolver resolver).tree = cx.tree :=
  rfl

@[simp]
theorem Context.withResolver_scopes (cx : Context) (resolver : TypeResolver) :
    (cx.withResolver resolver).scopes = cx.scopes :=
  rfl

/-- A walk around the same tree with other knowledge about types. -/
def WalkInput.withResolver (input : WalkInput) (resolver : TypeResolver) : WalkInput :=
  { input with resolver }

@[simp]
theorem WalkInput.withResolver_tree (input : WalkInput) (resolver : TypeResolver) :
    (input.withResolver resolver).tree = input.tree :=
  rfl

/-! ## Leaner answers -/

/-- An answer is leaner than another one if it fails in the same way and reports a part of the
findings. -/
structure Verdict.Leaner (v w : Verdict) : Prop where
  findings : w.findings.Sublist v.findings
  failure : w.failure = v.failure

namespace Verdict.Leaner

theorem refl (v : Verdict) : Leaner v v :=
  ⟨.refl _, rfl⟩

theorem of_eq {v w : Verdict} (h : w = v) : Leaner v w :=
  h ▸ refl w

/-- A check that passes on a weaker condition answers leaner. -/
theorem pass_or_report {p q : Bool} (h : p → q) (findings : List Finding) :
    Leaner (if p then .pass else .report findings) (if q then .pass else .report findings) := by
  rcases Bool.eq_false_or_eq_true p with hp | hp
  · rw [if_pos hp, if_pos (h hp)]
    exact refl _
  · rw [if_neg (Bool.eq_false_iff.1 hp)]
    split
    · exact ⟨List.nil_sublist _, rfl⟩
    · exact refl _

/-- Checks that pass on the same condition answer leaner if the rest does. -/
theorem pass_or (p : Bool) {v w : Verdict} (h : Leaner v w) :
    Leaner (if p then .pass else v) (if p then .pass else w) := by
  cases p with
  | true => exact refl _
  | false => exact h

/-- Checks that go on with the same value answer leaner if the rest does. -/
theorem require {α : Type} (value : Option α) (failure : Failure) {next next' : α → Verdict}
    (h : ∀ a, Leaner (next a) (next' a)) :
    Leaner (.require value failure next) (.require value failure next') := by
  cases value with
  | none => exact refl _
  | some a => exact h a

end Verdict.Leaner

/-- A leaner answer gives rise to a part of the violations. -/
theorem ActiveRule.violationsOf_sublist {v w : Verdict} (h : v.Leaner w) (r : ActiveRule)
    (file : FileContext) (t : Tree) (node : NodeId) :
    (r.violationsOf file t node w).Sublist (r.violationsOf file t node v) := by
  rw [violationsOf, violationsOf, h.failure]
  exact (h.findings.filterMap _).append_right _

/-! ## Rules that ask about types -/

/-- A type that descends from an allowed exception is known to do so when more is known. -/
theorem DirectThrow.isAllowedByHierarchy_of_within {policy : ExceptionPolicy} {cx : Context}
    {more : TypeResolver} (within : cx.resolver.Within more) {written : String}
    (h : isAllowedByHierarchy policy cx written) :
    isAllowedByHierarchy policy (cx.withResolver more) written := by
  obtain ⟨candidate, hcandidate, hallowed⟩ := List.any_eq_true.1 h
  obtain ⟨ancestor, hancestor, hallowed⟩ := List.any_eq_true.1 hallowed
  have hchain := (superclassChain_isPrefix within candidate chainLimit).subset hancestor
  exact List.any_eq_true.2 ⟨candidate, hcandidate,
    List.any_eq_true.2 ⟨ancestor, hchain, hallowed⟩⟩

theorem DirectThrow.judge_leaner (policy : ExceptionPolicy) (cx : Context) {more : TypeResolver}
    (within : cx.resolver.Within more) (i : NodeId) :
    (judge policy cx i).Leaner (judge policy (cx.withResolver more) i) := by
  simp only [judge, Context.withResolver_tree]
  refine .require _ _ fun expr => .pass_or _ (.require _ _ fun written => .pass_or_report ?_ _)
  rw [Bool.or_eq_true, Bool.or_eq_true]
  exact Or.imp_right (isAllowedByHierarchy_of_within within)

/-- A supertype that is known stays known when more is known. -/
theorem ImmutableFields.hasKnownSupertype_of_within {cx : Context} {more : TypeResolver}
    (within : cx.resolver.Within more) (h : hasKnownSupertype cx) :
    hasKnownSupertype (cx.withResolver more) := by
  rcases hinfo : (cx.scopes.qualifiedClassName cx.tree).bind cx.resolver with _ | info
  · rw [hasKnownSupertype, hinfo] at h
    cases h
  · rw [hasKnownSupertype, hinfo] at h
    have hmore := within.bind hinfo
    rwa [hasKnownSupertype, Context.withResolver, hmore]

theorem ImmutableFields.checkMethod_leaner (o : Options) (cx : Context) {more : TypeResolver}
    (within : cx.resolver.Within more) (i : NodeId) :
    (checkMethod o cx i).Leaner (checkMethod o (cx.withResolver more) i) := by
  simp only [checkMethod, Context.withResolver_tree]
  refine .require _ _ fun anchor => ?_
  split
  · exact .refl _
  · refine .pass_or _ (.pass_or_report ?_ _)
    rw [Bool.and_eq_true, Bool.and_eq_true]
    exact And.imp_right (hasKnownSupertype_of_within within)

theorem ImmutableFields.judge_leaner (o : Options) (cx : Context) {more : TypeResolver}
    (within : cx.resolver.Within more) (i : NodeId) :
    (judge o cx i).Leaner (judge o (cx.withResolver more) i) := by
  have hmember : isMarkedMember o (cx.withResolver more) i = isMarkedMember o cx i := rfl
  simp only [judge, Context.withResolver_tree, hmember]
  refine .pass_or _ ?_
  split
  · exact .refl _
  · exact checkMethod_leaner o cx within i
  · exact .refl _

/-! ## The rules of the catalogue -/

/-- A check that looks at every node by itself answers leaner if its judgements are leaner. -/
theorem Check.ofNodes_answersLeaner {judge : Context → NodeId → Verdict}
    (h : ∀ cx more, cx.resolver.Within more →
      ∀ i, (judge cx i).Leaner (judge (cx.withResolver more) i))
    {input : WalkInput} {more : TypeResolver} (within : input.resolver.Within more) :
    (Check.ofNodes judge).AnswersAlike Verdict.Leaner input (input.withResolver more) :=
  Check.ofNodes_answersAlike Verdict.Leaner input _ (.refl .pass) fun scopes =>
    h (input.context scopes) more within

/-- With more knowledge about types, a rule of the catalogue takes the same course and answers
leaner.  All but two of them do not ask about types. -/
theorem Rule.FromCatalogue.answersLeaner {rule : Rule} (h : rule.FromCatalogue)
    {input : WalkInput} {more : TypeResolver} (within : input.resolver.Within more) :
    rule.check.AnswersAlike Verdict.Leaner input (input.withResolver more) := by
  cases h with
  | finalFields o =>
      intro scopes state hook
      cases hook <;> exact ⟨rfl, .refl _⟩
  | immutableFields o =>
      exact Check.ofNodes_answersLeaner (fun cx _ => ImmutableFields.judge_leaner o cx) within
  | directThrow policy =>
      exact Check.ofNodes_answersLeaner (fun cx _ => DirectThrow.judge_leaner policy cx) within
  | clientShape o => exact Check.ofNodes_answersLeaner (fun _ _ _ _ => .of_eq rfl) within
  | loggerThrow policy => exact Check.ofNodes_answersLeaner (fun _ _ _ _ => .of_eq rfl) within
  | loggedThrown policy => exact Check.ofNodes_answersLeaner (fun _ _ _ _ => .of_eq rfl) within
  | causeKept policy => exact Check.ofNodes_answersLeaner (fun _ _ _ _ => .of_eq rfl) within
  | bannedApi o => exact Check.ofNodes_answersLeaner (fun _ _ _ _ => .of_eq rfl) within
  | javadoc severity => exact Check.ofNodes_answersLeaner (fun _ _ _ _ => .of_eq rfl) within
  | logging o =>
      refine Check.ofNodes_answersLeaner (fun cx more _ i => .of_eq ?_) within
      exact Logging.judge_congr o (cx.withResolver_tree more) (cx.withResolver_scopes more) i

/-! ## Walks -/

section Walks

variable {rules : List ActiveRule} {input : WalkInput} {more : TypeResolver}

/-- Calls with leaner answers give rise to a part of the violations. -/
theorem HookCall.violations_sublist {call call' : HookCall}
    (h : HookCall.Agrees Verdict.Leaner call call') :
    (call'.violations rules (input.withResolver more)).Sublist (call.violations rules input) := by
  unfold HookCall.violations
  rw [h.rule, h.hook]
  rcases rules[call.rule]? with _ | r
  · exact List.nil_sublist _
  · exact r.violationsOf_sublist h.verdict input.file input.tree call.hook.node

/-- The violations that arise with more knowledge are a part of those that arise without it. -/
theorem emission_sublist (catalogued : ∀ r ∈ rules, r.rule.FromCatalogue)
    (within : input.resolver.Within more) :
    (emission rules (input.withResolver more)).Sublist (emission rules input) := by
  have hfatal : ∀ v w, Verdict.Leaner v w → w.isFatal = v.isFatal := by
    intro v w h
    rw [Verdict.isFatal, Verdict.isFatal, h.failure]
  have halike : ∀ r ∈ rules,
      r.rule.check.AnswersAlike Verdict.Leaner input (input.withResolver more) :=
    fun r hr => (catalogued r hr).answersLeaner within
  have hcalls := calls_agree (input.withResolver_tree more) hfatal halike ActiveRule.severity
  rw [ActiveRule.map_graded_severity] at hcalls
  unfold emission
  generalize (walk rules input).calls = calls at hcalls
  generalize (walk rules (input.withResolver more)).calls = calls' at hcalls
  induction hcalls with
  | nil => exact .refl _
  | cons hcall _ ih => exact (HookCall.violations_sublist hcall).append ih

/-- With more knowledge about types, a part of the violations is left, in the same order. -/
theorem knowledge_only_removes (rules : List ActiveRule) (input : WalkInput) (more : TypeResolver)
    (catalogued : ∀ r ∈ rules, r.rule.FromCatalogue) (within : input.resolver.Within more) :
    (walk rules (input.withResolver more)).violations.Sublist (walk rules input).violations := by
  rw [violations_eq_sort_emission, violations_eq_sort_emission]
  exact Violation.sort_sublist (emission_sublist catalogued within)

end Walks

/-! ## A walk with two tables -/

/-- An immutable class with a setter that overrides something and throws two exceptions. -/
def throwingClass : Outline :=
  let part (kind : NodeKind) (line : Nat) (token : Option String) (below : List Outline) :
      Outline :=
    .node kind ⟨0, 0⟩ ⟨line, 1⟩ token below
  let marked (line : Nat) (name : String) : Outline :=
    part .modifiers line none [part .annotationUse line (some name) []]
  let throwing (line : Nat) (type : String) : Outline :=
    part .throwStmt line none
      [part .creation line none
        [part .typeName line (some type) [], part .argumentList line none []]]
  part .compilationUnit 1 none
    [part .packageDecl 1 none [part .ident 1 (some "p") []],
      part .classDef 2 none
        [marked 2 "Immutable", part .ident 2 (some "A") [],
          part .classBody 2 none
            [part .methodDef 3 none
              [marked 3 "Override", part .ident 3 (some "setX") [],
                part .block 3 none [throwing 4 "Odd", throwing 5 "Other"]]]]]

/-- A walk around the class with nothing known about types. -/
def throwingInput : WalkInput where
  file := .ofPath "A.java" "" ""
  tree := throwingClass.toTree ""
  resolver := TypeTable.resolve {}

/-- A table with the superclass of one of the exceptions. -/
def fewTypes : TypeTable :=
  ⟨[("p.Odd", { superclass := some "p.Base" })]⟩

/-- A table with the supertypes of the class and of that superclass as well. -/
def moreTypes : TypeTable :=
  ⟨[("p.A", { interfaces := ["p.HasX"] }), ("p.Odd", { superclass := some "p.Base" }),
    ("p.Base", { superclass := some "java.lang.IllegalStateException" })]⟩

/-- The table with few types removes nothing; the other one removes the setter and the exception
that turns out to descend from an allowed one. -/
theorem moreTypes_only_removes :
    (∀ r ∈ catalogueRules, r.rule.FromCatalogue) ∧
      throwingInput.resolver.Within fewTypes.resolve ∧
      fewTypes.resolve.Within moreTypes.resolve ∧
      (walk catalogueRules (throwingInput.withResolver fewTypes.resolve)).violations.Sublist
        (walk catalogueRules throwingInput).violations ∧
      (walk catalogueRules (throwingInput.withResolver moreTypes.resolve)).violations.Sublist
        (walk catalogueRules (throwingInput.withResolver fewTypes.resolve)).violations ∧
      ((emission catalogueRules (throwingInput.withResolver fewTypes.resolve)).map fun v =>
          (v.code, v.location.line)) =
        [("AP002", 3), ("AP004", 4), ("AP005", 4), ("AP004", 5), ("AP005", 5)] ∧
      ((emission catalogueRules (throwingInput.withResolver moreTypes.resolve)).map fun v =>
          (v.code, v.location.line)) = [("AP005", 4), ("AP004", 5), ("AP005", 5)] := by
  have hcatalogued : ∀ r ∈ catalogueRules, r.rule.FromCatalogue :=
    Config.fromCatalogue_of_mem_activate {} _
  have hfew : throwingInput.resolver.Within fewTypes.resolve :=
    TypeResolver.nothing_within fewTypes.resolve
  have hmore : fewTypes.resolve.Within moreTypes.resolve :=
    TypeTable.within_of_entries (by decide)
  exact ⟨hcatalogued, hfew, hmore, knowledge_only_removes _ _ _ hcatalogued hfew,
    knowledge_only_removes _ (throwingInput.withResolver fewTypes.resolve) _ hcatalogued hmore,
    by decide +kernel, by decide +kernel⟩

end SdkLint
