import SdkLint.Proofs.Walk.Calls
import SdkLint.Proofs.Walk.Emission
import SdkLint.Rule.Scripted
import SdkLint.Tree.Builder

/-!
# Rules do not see each other

The calls of one rule among many are those of a walk that has this rule alone: the walk of all rules
simulates it, stop by stop.  With codes that tell the rules apart, the violations of a rule are
those that it has alone.

Main definitions:

- `WalkState.Focused`: a walk of many rules, looked at from the place of one, is a walk of that one.
- `ActiveRule.disabled`: the warning that a rule has been switched off.

Main results:

- Theorem `calls_alone`: the calls of a rule are those that it gets alone.
- Theorem `filter_code_emission`: so are the violations, if codes tell the rules apart.
- Theorem `walk_isolates_rules`: rules do not see each other, violations are sorted, and a rule that
  fails internally is switched off with one warning.
-/

namespace SdkLint

/-! ## The simulation -/

/-- A call of a rule as it is when the rule is alone. -/
def HookCall.alone (call : HookCall) : HookCall :=
  { call with rule := 0 }

namespace WalkState

/-- Looked at from one place, a walk of many rules is the walk of the rule there. -/
structure Focused (place : Nat) (s solo : WalkState) : Prop where
  scopes : s.scopes = solo.scopes
  rules : ∃ r, s.rules[place]? = some r ∧ solo.rules = [r]
  calls : (s.calls.toList.filter fun call => call.rule == place).map HookCall.alone =
    solo.calls.toList

variable (input : WalkInput) {place : Nat} {s solo : WalkState}

theorem Focused.moved (h : Focused place s solo) (scopes : ScopeStack)
    (entered left entered' left' : Nat) :
    Focused place { s with scopes, entered, left }
      { solo with scopes, entered := entered', left := left' } :=
  ⟨rfl, h.rules, h.calls⟩

/-- A call of another rule cannot be seen. -/
theorem Focused.callRule_other (h : Focused place s solo) (hook : Hook) {other : Nat}
    (hne : other ≠ place) : Focused place (s.callRule input hook other) solo := by
  refine callRule_induction (motive := fun s' => Focused place s' solo) (fun _ => h) ?_
  intro r state hget
  rw [callRule_of_on hget]
  refine ⟨h.scopes, ?_, ?_⟩
  · simpa [List.getElem?_set_ne hne] using h.rules
  · simpa [hne] using h.calls

/-- A call of the rule is the call that it gets alone. -/
theorem Focused.callRule_self (h : Focused place s solo) (hook : Hook) :
    Focused place (s.callRule input hook place) (solo.callRule input hook 0) := by
  obtain ⟨⟨r, state⟩, hget, hsolo⟩ := h.rules
  have hget' : solo.rules[0]? = some ⟨r, state⟩ := by simp [hsolo]
  cases state with
  | none =>
      rw [callRule_of_off hget, callRule_of_off hget']
      exact h
  | some state =>
      have hlt : place < s.rules.length := (List.getElem?_eq_some_iff.1 hget).1
      rw [callRule_of_on hget, callRule_of_on hget', ← h.scopes]
      refine ⟨rfl, ⟨_, List.getElem?_set_self hlt, by rw [hsolo]; rfl⟩, ?_⟩
      simp [h.calls, HookCall.alone]

/-- Of the calls of one stop only those of the rule can be seen. -/
theorem Focused.callRules (h : Focused place s solo) (hook : Hook) (places : List Nat) :
    Focused place (s.callRules input hook places)
      (solo.callRules input hook ((places.filter (· == place)).map fun _ => 0)) := by
  induction places generalizing s solo with
  | nil => exact h
  | cons other places ih =>
      rw [callRules_cons]
      by_cases hother : other = place
      · subst hother
        rw [List.filter_cons_of_pos (by simp), List.map_cons, callRules_cons]
        exact ih (h.callRule_self input hook)
      · rw [List.filter_cons_of_neg (by simpa using hother)]
        exact ih (h.callRule_other input hook hother)

end WalkState

/-- A rule is among those that list a kind if and only if it is so when alone. -/
theorem filter_subscribers {rules : List ActiveRule} {place : Nat} {r : ActiveRule}
    (h : rules[place]? = some r) (kind : NodeKind) :
    ((((dispatch rules).subscribers kind).filter (· == place)).map fun _ => 0) =
      (dispatch [r]).subscribers kind := by
  rw [dispatch_subscribers, dispatch_singleton, List.filter_beq, (Dispatch.nodup_askers _ _).count]
  have hmem : place ∈ Dispatch.askers (rules.map fun r => r.rule.kinds) kind ↔
      kind ∈ r.rule.kinds := by
    simp [Dispatch.mem_askers, h]
  by_cases hkind : kind ∈ r.rule.kinds <;> simp [hmem, hkind]

theorem WalkState.Focused.stops {rules : List ActiveRule} {place : Nat} {r : ActiveRule}
    (hr : rules[place]? = some r) (input : WalkInput) {s solo : WalkState}
    (h : Focused place s solo) (stops : List Visit) :
    Focused place (stops.foldl (visit input (dispatch rules)) s)
      (stops.foldl (visit input (dispatch [r])) solo) := by
  induction stops generalizing s solo with
  | nil => exact h
  | cons v stops ih =>
      refine ih ?_
      cases v with
      | enter i =>
          have hmoved := h.moved (s.scopes.enter input.tree i) (s.entered + 1) s.left
            (solo.entered + 1) solo.left
          have hcalls := hmoved.callRules input (.enter i)
            ((dispatch rules).subscribers (input.tree.kind i))
          rw [filter_subscribers hr] at hcalls
          simp only [visit, ← h.scopes]
          exact hcalls
      | leave i =>
          have hcalls := h.callRules input (.leave i)
            ((dispatch rules).subscribers (input.tree.kind i))
          rw [filter_subscribers hr] at hcalls
          have hmoved := hcalls.moved
          simp only [visit, hcalls.scopes]
          exact hmoved _ _ _ _ _

theorem WalkState.focused_start {rules : List ActiveRule} {place : Nat} {r : ActiveRule}
    (h : rules[place]? = some r) : Focused place (.start rules) (.start [r]) :=
  ⟨rfl, ⟨r.running, by simp [start, h], rfl⟩, rfl⟩

/-- The calls of a rule are those that it gets in a walk of its own. -/
theorem calls_alone {rules : List ActiveRule} {place : Nat} {r : ActiveRule}
    (h : rules[place]? = some r) (input : WalkInput) :
    ((walk rules input).calls.filter fun call => call.rule == place).map HookCall.alone =
      (walk [r] input).calls := by
  have hplace : place < rules.length := (List.getElem?_eq_some_iff.1 h).1
  have hend := ((WalkState.focused_start h).stops h input input.tree.tour).callRules input .finish
    (List.range rules.length)
  rw [List.filter_beq, List.nodup_range.count, if_pos (List.mem_range.2 hplace)] at hend
  simp only [walk, runWalk_eq]
  exact hend.calls

/-! ## Violations of one rule -/

section Codes

variable {rules : List ActiveRule} {place : Nat} {r : ActiveRule}

/-- If the codes tell the rules apart, a rule's code is found at its place only. -/
theorem place_eq_of_code (distinct : (rules.map fun r => r.rule.code).Nodup) {place' : Nat}
    {r' : ActiveRule} (h : rules[place]? = some r) (h' : rules[place']? = some r')
    (hcode : r'.rule.code = r.rule.code) : place' = place := by
  have hget : (rules.map fun r => r.rule.code)[place]? = some r.rule.code := by simp [h]
  have hget' : (rules.map fun r => r.rule.code)[place']? = some r.rule.code := by
    simp [h', hcode]
  obtain ⟨hlt, heq⟩ := List.getElem?_eq_some_iff.1 hget
  obtain ⟨hlt', heq'⟩ := List.getElem?_eq_some_iff.1 hget'
  exact (distinct.getElem_inj_iff).1 (heq'.trans heq.symm)

/-- The violations with a rule's code are those of its calls. -/
theorem filter_code_emission (distinct : (rules.map fun r => r.rule.code).Nodup)
    (h : rules[place]? = some r) (input : WalkInput) :
    (emission rules input).filter (fun v => v.code == r.rule.code) =
      ((walk rules input).calls.filter fun call => call.rule == place).flatMap
        (HookCall.violations rules input) := by
  have hcall : ∀ call : HookCall,
      (call.violations rules input).filter (fun v => v.code == r.rule.code) =
        if call.rule == place then call.violations rules input else [] := by
    intro call
    by_cases hplace : call.rule = place
    · simp only [hplace, beq_self_eq_true, if_true, List.filter_eq_self]
      intro v hv
      rw [HookCall.violations, hplace, h] at hv
      simpa using code_of_mem_violationsOf hv
    · simp only [beq_iff_eq, hplace, if_false, List.filter_eq_nil_iff]
      intro v hv hcode
      rcases hr' : rules[call.rule]? with _ | r'
      · simp [HookCall.violations, hr'] at hv
      · rw [HookCall.violations, hr'] at hv
        rw [code_of_mem_violationsOf hv] at hcode
        exact hplace (place_eq_of_code distinct h hr' (by simpa using hcode))
  rw [emission, List.filter_flatMap, List.flatMap_congr fun call _ => hcall call]
  generalize (walk rules input).calls = calls
  induction calls with
  | nil => rfl
  | cons call calls ih =>
      rw [List.flatMap_cons, ih]
      by_cases hplace : call.rule = place
      · rw [List.filter_cons_of_pos (by simpa using hplace), List.flatMap_cons,
          if_pos (by simpa using hplace)]
      · rw [List.filter_cons_of_neg (by simpa using hplace), if_neg (by simpa using hplace),
          List.nil_append]

/-- The violations with a rule's code are those of a walk that has the rule alone. -/
theorem filter_code_emission_alone (distinct : (rules.map fun r => r.rule.code).Nodup)
    (h : rules[place]? = some r) (input : WalkInput) :
    (emission rules input).filter (fun v => v.code == r.rule.code) = emission [r] input := by
  rw [filter_code_emission distinct h, emission, ← calls_alone h input, List.flatMap_map]
  refine List.flatMap_congr fun call hcall => ?_
  have hplace : call.rule = place := by simpa using (List.mem_filter.1 hcall).2
  simp [HookCall.violations, HookCall.alone, hplace, h]

end Codes

/-! ## Isolation -/

/-- The warning that a rule has been switched off because of an internal failure. -/
def ActiveRule.disabled (r : ActiveRule) (file : FileContext) (position : Position)
    (detail : String) : Violation where
  code := r.rule.code
  rule := r.rule.name
  severity := .warning
  location := { file := file.relativePath, line := position.line, column := position.column }
  message := r.rule.name ++ (" failed and was disabled for the rest of this file: " ++
    ("internal error: " ++ detail))

/-- What it means that the rules of a walk do not see each other. -/
structure Isolated (rules : List ActiveRule) (input : WalkInput) : Prop where
  /-- The violations with a rule's code are those of a walk that has the rule alone, in the same
  order. -/
  alone : ∀ r ∈ rules,
    (walk rules input).violations.filter (fun v => v.code == r.rule.code) =
      (walk [r] input).violations
  /-- The violations are those that arise, in the order of their places. -/
  sorted : Violation.StablySorted (emission rules input) (walk rules input).violations
  /-- A rule that fails internally has not done so before and is not called again.  What it gives
  rise to ends with the findings of that call and one warning. -/
  switchedOff : ∀ (before after : List HookCall) (call : HookCall) (r : ActiveRule)
    (detail : String), (walk rules input).calls = before ++ call :: after →
    rules[call.rule]? = some r → call.verdict.failure = some (.internal detail) →
    (∀ earlier ∈ before, earlier.rule = call.rule → earlier.verdict.isFatal = false) ∧
    (∀ later ∈ after, later.rule ≠ call.rule) ∧
    (emission rules input).filter (fun v => v.code == r.rule.code) =
      (before.filter fun earlier => earlier.rule == call.rule).flatMap
          (HookCall.violations rules input) ++
        (call.verdict.findings.filterMap (r.emit input.file) ++
          [r.disabled input.file (input.tree.position call.hook.node) detail])

/-- No call of a rule follows a fatal answer of it. -/
theorem rule_ne_of_fatal {rules : List ActiveRule} {input : WalkInput}
    {before after : List HookCall} {call : HookCall}
    (hcalls : (walk rules input).calls = before ++ call :: after)
    (hfatal : call.verdict.isFatal = true) : ∀ later ∈ after, later.rule ≠ call.rule := by
  intro later hlater hrule
  obtain ⟨middle, rest, rfl⟩ := List.append_of_mem hlater
  have hsplit : (walk rules input).calls = (before ++ call :: middle) ++ later :: rest := by
    simp [hcalls]
  have hout := (runWalk_carriedOut rules input).not_switchedOff hsplit
  exact hout ⟨call, by simp, hrule.symm, hfatal⟩

/-- Rules whose codes tell them apart do not see each other: each has the violations that it has
alone, violations are listed in the order of their places, and a rule that fails internally is
switched off with one warning. -/
theorem walk_isolates_rules (rules : List ActiveRule) (input : WalkInput)
    (distinct : (rules.map fun r => r.rule.code).Nodup) : Isolated rules input where
  alone := by
    intro r hr
    obtain ⟨place, hplace⟩ := List.mem_iff_getElem?.1 hr
    rw [violations_eq_sort_emission, violations_eq_sort_emission, Violation.filter_sort,
      filter_code_emission_alone distinct hplace]
  sorted := by
    rw [violations_eq_sort_emission]
    exact Violation.stablySorted_sort _
  switchedOff := by
    intro before after call r detail hcalls hr hfailure
    have hfatal : call.verdict.isFatal = true := by simp [Verdict.isFatal, hfailure]
    have hafter := rule_ne_of_fatal hcalls hfatal
    refine ⟨?_, hafter, ?_⟩
    · intro earlier hearlier hrule
      have hout := (runWalk_carriedOut rules input).not_switchedOff hcalls
      refine Bool.eq_false_iff.2 fun h => hout ⟨earlier, by simpa using hearlier, hrule, h⟩
    · have hnone : (after.filter fun later => later.rule == call.rule) = [] := by
        simpa [List.filter_eq_nil_iff] using hafter
      have hown : call.violations rules input =
          call.verdict.findings.filterMap (r.emit input.file) ++
            [r.disabled input.file (input.tree.position call.hook.node) detail] := by
        simp only [HookCall.violations, hr, ActiveRule.violationsOf, hfailure]
        rfl
      rw [filter_code_emission distinct hr, hcalls, List.filter_append,
        List.filter_cons_of_pos (by simp), hnone, List.flatMap_append, List.flatMap_cons, hown]
      simp

/-! ## A walk with a failing rule -/

/-- A compilation unit with one class. -/
def sampleSteps : List BuildStep :=
  [.start .compilationUnit ⟨0, 10⟩ ⟨1, 1⟩, .start .classDef ⟨0, 10⟩ ⟨1, 1⟩, .token "A", .finish,
    .finish]

/-- A tree with one class. -/
def sampleInput : WalkInput where
  file := .ofPath "A.java" "class A {}" ""
  tree := ((Tree.build "class A {}" sampleSteps).toOption).get (by decide +kernel)
  resolver := fun _ => none

/-- A rule that fails internally on entering a class and would report it on leaving, next to one that
reports it. -/
def sampleRules : List ActiveRule :=
  [ { rule :=
        { name := "broken", code := "T001", kinds := [.classDef]
          check := Scripted.check
            [{ occasion := .enter, deed := .internal "boom" },
              { occasion := .leave, deed := .report "late" }] }
      severity := .error },
    { rule :=
        { name := "sound", code := "T002", kinds := [.classDef]
          check := Scripted.check [{ occasion := .enter, deed := .report "seen" }] }
      severity := .error } ]

/-- The broken rule is switched off, and the other one reports all the same. -/
theorem sampleRules_isolated :
    (sampleRules.map fun r => r.rule.code).Nodup ∧
      (∃ call ∈ (walk sampleRules sampleInput).calls, call.verdict.isFatal = true) ∧
      Isolated sampleRules sampleInput :=
  ⟨by decide, by decide +kernel, walk_isolates_rules _ _ (by decide)⟩

end SdkLint
