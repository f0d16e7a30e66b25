import SdkLint.Proofs.Finding.Order
import SdkLint.Proofs.Walk.Loop

/-!
# Violations in the order in which they arise

The violations of a walk are those that its calls give rise to, call by call, put in the order of
their places.

Main definitions:

- `HookCall.violations`: what one call gives rise to.
- `emission`: what the calls of a walk give rise to, in the order of the calls.

Main results:

- Theorem `violations_eq_sort_emission`: the violations of a walk are its emission, sorted.
- Theorem `code_of_mem_violationsOf`: what a rule gives rise to carries its code.
-/

namespace SdkLint

/-- The violations that one call of a rule gives rise to. -/
def HookCall.violations (rules : List ActiveRule) (input : WalkInput) (call : HookCall) :
    List Violation :=
  match rules[call.rule]? with
  | some r => r.violationsOf input.file input.tree call.hook.node call.verdict
  | none => []

/-- The violations of a walk in the order in which they arise. -/
def emission (rules : List ActiveRule) (input : WalkInput) : List Violation :=
  (walk rules input).calls.flatMap (HookCall.violations rules input)

/-! ## The violations of a walk are those of its calls -/

/-- The rules at work are those of the list, and the violations so far are those of the calls. -/
structure WalkState.Accounted (rules : List ActiveRule) (input : WalkInput) (s : WalkState) :
    Prop where
  active_eq : s.rules.map Running.active = rules
  violations_eq : s.violations.toList =
    s.calls.toList.flatMap (HookCall.violations rules input)

theorem WalkState.Accounted.callRule {rules : List ActiveRule} {input : WalkInput}
    {s : WalkState} (h : s.Accounted rules input) (hook : Hook) (place : Nat) :
    (s.callRule input hook place).Accounted rules input := by
  refine ⟨callRule_active.trans h.active_eq, ?_⟩
  refine callRule_induction (motive := fun s' =>
    s'.violations.toList = s'.calls.toList.flatMap (HookCall.violations rules input))
    (fun _ => h.violations_eq) fun r state hget => ?_
  have hrule : rules[place]? = some r := by simp [← h.active_eq, hget]
  rw [callRule_of_on hget]
  simp [h.violations_eq, HookCall.violations, hrule]

theorem runWalk_accounted (rules : List ActiveRule) (input : WalkInput) :
    (runWalk rules input).Accounted rules input := by
  refine runWalk_induction rules input ?_ ?_ fun s h hook place _ => h.callRule hook place
  · exact ⟨WalkState.start_active rules, by simp [WalkState.start]⟩
  · exact fun s _ _ _ h => ⟨h.active_eq, h.violations_eq⟩

/-- The violations of a walk are what its calls give rise to, in the order of places. -/
theorem violations_eq_sort_emission (rules : List ActiveRule) (input : WalkInput) :
    (walk rules input).violations = Violation.sort (emission rules input) := by
  simp only [walk, emission, (runWalk_accounted rules input).violations_eq]

/-! ## Codes -/

theorem code_of_emit {r : ActiveRule} {file : FileContext} {finding : Finding} {v : Violation}
    (h : r.emit file finding = some v) : v.code = r.rule.code := by
  unfold ActiveRule.emit at h
  split at h
  · split at h
    · obtain rfl := Option.some.inj h
      rfl
    · cases h
  · obtain rfl := Option.some.inj h
    rfl

/-- What a rule gives rise to carries its code. -/
theorem code_of_mem_violationsOf {r : ActiveRule} {file : FileContext} {t : Tree} {node : NodeId}
    {verdict : Verdict} {v : Violation} (h : v ∈ r.violationsOf file t node verdict) :
    v.code = r.rule.code := by
  rcases List.mem_append.1 h with h | h
  · obtain ⟨finding, -, hv⟩ := List.mem_filterMap.1 h
    exact code_of_emit hv
  · rw [Option.mem_toList, Option.map_eq_some_iff] at h
    obtain ⟨failure, -, rfl⟩ := h
    cases failure <;> rfl

end SdkLint
