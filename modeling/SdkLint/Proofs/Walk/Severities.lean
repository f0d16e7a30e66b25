import SdkLint.Proofs.Walk.Parallel
import SdkLint.Proofs.Walk.Remarks
import SdkLint.Proofs.Walk.Suppression
import SdkLint.Rules.Catalogue

/-!
# Configurations select rules and grade findings

A configuration leaves some rules switched on and may give them other severities.  The severities do
not reach the rules: they are called as they would be at their own severities, answer the same and
are switched off by the same failures.  In the listing only the findings that are reported as they
are carry the severity of their rule.  A demand for a reason stays a warning, and whether it is made
is up to the rule; a skipped node stays an info and a broken rule a warning.

Main definitions:

- `Config.enabled`: the rules that a configuration leaves switched on, at their own severities.
- `Config.regraded`: a violation at the severity that a configuration gives to its rule.
- `listed`: the things that rules say and that are listed, each with its violation.
- `SelectsAndGrades`: what it means that a configuration acts by selection and severity only.

Main results:

- Theorem `Config.mem_enabled_iff`: which rules a configuration leaves switched on.
- Theorem `remarks_graded`: at other severities the rules say the same things in the same order.
- Theorem `Remark.filtered_graded`: of a violation, severities change the severity at most.
- Theorem `activate_selectsAndGrades`: configurations act by selection and severity only.
-/

namespace SdkLint

/-! ## Rules at the severities of a configuration -/

namespace Config

/-- The rules that a configuration leaves switched on, at their own severities. -/
def enabled (c : Config) (rules : List Rule) : List ActiveRule :=
  (rules.filter fun r => c.isEnabled r.name).map Rule.active

/-- The severity that a configuration gives to a rule: its own one unless it is overridden. -/
def grade (c : Config) (r : ActiveRule) : Severity :=
  (c.severityOf r.rule.name).getD r.severity

/-- A violation at the severity that a configuration gives to its rule. -/
def regraded (c : Config) (v : Violation) : Violation :=
  { v with severity := (c.severityOf v.rule).getD v.severity }

/-- All rules are left switched on but those whose sections switch them off. -/
theorem mem_enabled_iff {c : Config} {rules : List Rule} {r : ActiveRule} :
    r ∈ c.enabled rules ↔ ∃ rule ∈ rules, rule.active = r ∧
      ¬ ∃ s, c.section? rule.name = some s ∧ s.enabled = some false := by
  simp only [enabled, List.mem_map, List.mem_filter, ← isEnabled_eq_false_iff,
    Bool.not_eq_false]
  constructor
  · rintro ⟨rule, ⟨hmem, hon⟩, hactive⟩
    exact ⟨rule, hmem, hactive, hon⟩
  · rintro ⟨rule, hmem, hactive, hon⟩
    exact ⟨rule, ⟨hmem, hon⟩, hactive⟩

theorem regraded_of_section {c : Config} {v : Violation} {s : RuleSection} {severity : Severity}
    (hsection : c.section? v.rule = some s) (hseverity : s.severity = some severity) :
    c.regraded v = { v with severity } := by
  have hgiven : c.severityOf v.rule = some severity :=
    severityOf_eq_some_iff.2 ⟨s, hsection, hseverity⟩
  rw [regraded, hgiven, Option.getD_some]

theorem regraded_of_no_severity {c : Config} {v : Violation}
    (h : ∀ s, c.section? v.rule = some s → s.severity = none) : c.regraded v = v := by
  have hnone : c.severityOf v.rule = none := severityOf_eq_none_iff.2 h
  rw [regraded, hnone, Option.getD_none]

/-- A configuration selects rules and then grades them. -/
theorem activate_eq_map_graded (c : Config) (rules : List Rule) :
    c.activate rules = (c.enabled rules).map (ActiveRule.graded c.grade) := by
  rw [enabled, List.map_map]
  rfl

end Config

/-! ## Remarks at other severities -/

namespace Remark

/-- The same thing said by a rule at another severity. -/
def graded (grade : ActiveRule → Severity) : Remark → Remark
  | finding r f => finding (r.graded grade) f
  | failure r position e => failure (r.graded grade) position e

theorem location_violation_graded (grade : ActiveRule → Severity) (file : FileContext)
    (m : Remark) : ((m.graded grade).violation file).location = (m.violation file).location := by
  cases m <;> rfl

/-- Whether a remark is a finding that is reported as it is: one that no directive allows. -/
def isReported (content : List Char) : Remark → Bool
  | finding r f =>
    Directive.check content f.position.line r.rule.name r.rule.code == .denied
  | failure .. => false

variable (file : FileContext) (content : List Char)

theorem filtered_of_isReported {r : ActiveRule} {f : Finding}
    (h : (finding r f).isReported content) :
    (finding r f).filtered file content = some (r.reported file f) := by
  have hdenied : Directive.check content f.position.line r.rule.name r.rule.code = .denied :=
    beq_iff_eq.1 h
  simp [filtered, violation, ActiveRule.reported, Finding.location, hdenied]

/-- An allowed finding is dropped, unless its rule asks for a reason and is given none. -/
theorem filtered_of_not_isReported {r : ActiveRule} {f : Finding}
    (h : ¬ (finding r f).isReported content) :
    ∃ reason, Directive.check content f.position.line r.rule.name r.rule.code = .allowed reason ∧
      (finding r f).filtered file content =
        if r.rule.requiresReason && reason.isNone then
          some (r.missingReason (f.location file))
        else none := by
  rcases hcheck : Directive.check content f.position.line r.rule.name r.rule.code with _ | reason
  · exact absurd (beq_iff_eq.2 hcheck) h
  · refine ⟨reason, rfl, ?_⟩
    simp [filtered, violation, ActiveRule.reported, Finding.location, hcheck]

/-- Of the violation for a remark, a configuration changes the severity at most, and this only if
the remark is a finding that is reported as it is. -/
theorem filtered_graded (c : Config) (m : Remark) :
    (m.graded c.grade).filtered file content =
      (m.filtered file content).map fun v => if m.isReported content then c.regraded v else v := by
  cases m with
  | failure r position e => rfl
  | finding r f =>
      by_cases h : (finding r f).isReported content
      · have hgraded : (finding (r.graded c.grade) f).isReported content := h
        rw [graded, filtered_of_isReported file content hgraded,
          filtered_of_isReported file content h, Option.map_some, if_pos h]
        rfl
      · have hgraded : ¬ (finding (r.graded c.grade) f).isReported content := h
        obtain ⟨reason, hcheck, hfiltered⟩ := filtered_of_not_isReported file content h
        obtain ⟨reason', hcheck', hfiltered'⟩ := filtered_of_not_isReported file content hgraded
        obtain rfl : reason = reason' := Allowance.allowed.inj (hcheck.symm.trans hcheck')
        simp only [graded, hfiltered, hfiltered', if_neg h, Option.map_id']
        rfl

end Remark

/-! ## Walks at other severities -/

section Walks

variable (grade : ActiveRule → Severity) (rules : List ActiveRule) (input : WalkInput)

/-- Severities do not decide which rules are called, nor what they answer. -/
theorem calls_graded :
    (walk (rules.map (ActiveRule.graded grade)) input).calls = (walk rules input).calls :=
  calls_eq rfl (fun _ _ _ _ _ => ⟨rfl, rfl⟩) grade

theorem HookCall.remarks_graded (t : Tree) (call : HookCall) :
    call.remarks (rules.map (ActiveRule.graded grade)) t =
      (call.remarks rules t).map (Remark.graded grade) := by
  unfold HookCall.remarks
  rw [List.getElem?_map]
  rcases rules[call.rule]? with _ | r
  · rfl
  · rcases hfailure : call.verdict.failure <;>
      simp [Function.comp_def, Remark.graded]

/-- At other severities the rules say the same things in the same order. -/
theorem remarks_graded :
    remarks (rules.map (ActiveRule.graded grade)) input =
      (remarks rules input).map (Remark.graded grade) := by
  have hcalls : (walk rules input).calls.flatMap
        (HookCall.remarks (rules.map (ActiveRule.graded grade)) input.tree) =
      ((walk rules input).calls.flatMap (HookCall.remarks rules input.tree)).map
        (Remark.graded grade) := by
    rw [List.map_flatMap]
    exact List.flatMap_congr fun call _ => HookCall.remarks_graded grade rules input.tree call
  rw [remarks, remarks, calls_graded, hcalls]
  symm
  refine List.map_mergeSort fun m _ m' _ => ?_
  simp only [Violation.placedBefore, Remark.location_violation_graded]

end Walks

/-! ## Configured walks -/

/-- The things that rules say and that are listed, each with its violation. -/
def listed (rules : List ActiveRule) (input : WalkInput) : List (Remark × Violation) :=
  (remarks rules input).filterMap fun m =>
    (m.filtered input.file input.file.content.toList).map fun v => (m, v)

theorem mem_listed {rules : List ActiveRule} {input : WalkInput} {m : Remark} {v : Violation} :
    (m, v) ∈ listed rules input ↔
      m ∈ remarks rules input ∧ m.filtered input.file input.file.content.toList = some v := by
  simp [listed]

/-- What it means that a configuration acts by selection and severity only: beside the walk with
the rules that it leaves switched on, at their own severities, the walk that it asks for differs in
the severities of the findings that are reported as they are. -/
structure SelectsAndGrades (c : Config) (rules : List Rule) (input : WalkInput) : Prop where
  /-- All rules are left switched on but those whose sections switch them off. -/
  selected : ∀ r, r ∈ c.enabled rules ↔ ∃ rule ∈ rules, rule.active = r ∧
    ¬ ∃ s, c.section? rule.name = some s ∧ s.enabled = some false
  /-- The severity in the section of a rule overrides those of its violations. -/
  overridden : ∀ v s severity, c.section? v.rule = some s → s.severity = some severity →
    c.regraded v = { v with severity }
  /-- If there is none, they keep theirs. -/
  kept : ∀ v, (∀ s, c.section? v.rule = some s → s.severity = none) → c.regraded v = v
  /-- The same rules are called in the same order, are shown the same scopes and answer the same. -/
  calls : (walk (c.activate rules) input).calls = (walk (c.enabled rules) input).calls
  /-- At their own severities, the rules give rise to a list of violations. -/
  ungraded : (walk (c.enabled rules) input).violations =
    (listed (c.enabled rules) input).map Prod.snd
  /-- At the severities of the configuration they give rise to the same list, but the findings that
  are reported as they are get the severities that override those of their rules. -/
  graded : (walk (c.activate rules) input).violations =
    (listed (c.enabled rules) input).map fun (m, v) =>
      if m.isReported input.file.content.toList then c.regraded v else v
  /-- Findings that are not allowed are reported as they are. -/
  reported : ∀ r f v, (Remark.finding r f, v) ∈ listed (c.enabled rules) input →
    (Remark.finding r f).isReported input.file.content.toList → v = r.reported input.file f
  /-- Other findings in the list are demands for a reason.  They are warnings, and are made by the
  rules which ask for reasons by themselves. -/
  demanded : ∀ r f v, (Remark.finding r f, v) ∈ listed (c.enabled rules) input →
    ¬ (Remark.finding r f).isReported input.file.content.toList →
      r.rule.requiresReason ∧ v = r.missingReason (f.location input.file) ∧ v.severity = .warning
  /-- What is left are failures: infos about skipped nodes, and warnings about rules that are
  switched off. -/
  failed : ∀ r position e v, (Remark.failure r position e, v) ∈ listed (c.enabled rules) input →
    v = r.absorb input.file position e ∧
      v.severity = match e with
        | .malformed _ => .info
        | .internal _ => .warning

/-- Configurations act by selection and severity only. -/
theorem activate_selectsAndGrades (c : Config) (rules : List Rule) (input : WalkInput) :
    SelectsAndGrades c rules input where
  selected := fun _ => Config.mem_enabled_iff
  overridden := fun _ _ _ => Config.regraded_of_section
  kept := fun _ => Config.regraded_of_no_severity
  calls := by rw [c.activate_eq_map_graded, calls_graded]
  ungraded := by
    rw [violations_eq_filterMap_remarks, listed, List.map_filterMap]
    simp only [Option.map_map, Function.comp_def, Option.map_id']
  graded := by
    rw [c.activate_eq_map_graded, violations_eq_filterMap_remarks, remarks_graded,
      List.filterMap_map, listed, List.map_filterMap]
    refine List.filterMap_congr fun m _ => ?_
    rw [Function.comp_apply, Remark.filtered_graded, Option.map_map]
    rfl
  reported := by
    intro r f v hlisted hreported
    have hfiltered := (mem_listed.1 hlisted).2
    rw [Remark.filtered_of_isReported _ _ hreported] at hfiltered
    exact (Option.some.inj hfiltered).symm
  demanded := by
    intro r f v hlisted hreported
    have hfiltered := (mem_listed.1 hlisted).2
    obtain ⟨reason, -, hdemand⟩ :=
      Remark.filtered_of_not_isReported input.file _ hreported
    rw [hdemand, Option.ite_none_right_eq_some, Bool.and_eq_true] at hfiltered
    obtain ⟨⟨hrequires, -⟩, hv⟩ := hfiltered
    obtain rfl := Option.some.inj hv
    exact ⟨hrequires, rfl, rfl⟩
  failed := by
    intro r position e v hlisted
    obtain rfl := Option.some.inj (mem_listed.1 hlisted).2
    refine ⟨rfl, ?_⟩
    cases e <;> rfl

/-- A configuration that takes findings about fields for infos. -/
def fieldsAsInfos : Config where
  rules := [(FinalFields.name, { severity := some .info })]

/-- The finding becomes an info; the demand for a reason stays a warning. -/
example : (emission (fieldsAsInfos.activate (Catalogue.rulesWhere fieldsAsInfos fun _ => true))
      (fieldsInput.withContent fieldsAllowed)).map (fun v => (v.severity, v.location.line)) =
    [(.info, 4), (.warning, 2), (.info, 3)] := by
  decide +kernel

end SdkLint
