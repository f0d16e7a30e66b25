import SdkLint.Proofs.Walk.Calls
import SdkLint.Proofs.Walk.Scopes

/-!
# What the calls of a walk answer

A rule that looks at every node by itself has no state, so that what it answers to a call depends on
the node and the scopes of the call alone.  It says about a node what its judgement says there.

Main definitions:

- `PassesAt`: a rule has nothing to say about a node.
- `ReportsAt`: a rule reports a finding about a node.

Main results:

- Theorem `verdict_ofNodes`: what a rule answers that looks at every node by itself.
- Theorem `passesAt_ofNodes`: such a rule passes a node if its judgement does so in the scopes of
  the node.
- Theorem `reportsAt_iff_of_ofNodes`: such a rule reports what it finds when it judges the node.
-/

namespace SdkLint

variable {rules : List ActiveRule} {input : WalkInput}

/-- What a check answers that looks at every node by itself: its judgement on the way in, nothing on
the way out and at the end. -/
theorem respond_ofNodes (judge : Context → NodeId → Verdict) (cx : Context)
    (state : (Check.ofNodes judge).State) (hook : Hook) :
    ((Check.ofNodes judge).respond cx state hook).2 =
      match hook with
      | .enter i => judge cx i
      | .leave _ | .finish => .pass := by
  cases hook <;> rfl

/-- A rule that looks at every node by itself answers what it judges there. -/
theorem verdict_ofNodes {rule : Rule} {judge : Context → NodeId → Verdict}
    (hcheck : rule.check = .ofNodes judge) {call : HookCall}
    (hcall : call ∈ (walk rules input).calls)
    (hrule : (rules[call.rule]?).map ActiveRule.rule = some rule) :
    call.verdict =
      match call.hook with
      | .enter i => judge (input.context call.scopes) i
      | .leave _ | .finish => .pass := by
  obtain ⟨r, state, hget, hverdict⟩ := walk_answers rules input call hcall
  rw [hget, Option.map_some, Option.some.injEq] at hrule
  subst hrule
  rw [hverdict]
  generalize r.rule.check = check at state hcheck ⊢
  subst hcheck
  exact respond_ofNodes judge _ state call.hook

/-- In a walk a rule has nothing to say about a node: it passes on every call that is about it. -/
def PassesAt (rules : List ActiveRule) (input : WalkInput) (rule : Rule) (i : NodeId) : Prop :=
  ∀ call ∈ (walk rules input).calls, (rules[call.rule]?).map ActiveRule.rule = some rule →
    call.hook.node = i → call.verdict = .pass

/-- A rule that looks at every node by itself passes a node if its judgement passes it wherever the
scopes are those around the node. -/
theorem passesAt_ofNodes {rule : Rule} {judge : Context → NodeId → Verdict}
    (hcheck : rule.check = .ofNodes judge) {i : NodeId}
    (hjudge : ∀ scopes : ScopeStack, scopes.Around input.tree i →
      judge (input.context scopes) i = .pass) : PassesAt rules input rule i := by
  intro call hcall hrule hnode
  have hshown := walk_shown rules input call hcall
  rw [verdict_ofNodes hcheck hcall hrule]
  cases hhook : call.hook with
  | enter j =>
      rw [hhook] at hnode hshown
      obtain rfl : j = i := hnode
      exact hjudge call.scopes (ScopeStack.around_of_frames hshown)
  | leave j => rfl
  | finish => rfl

/-- In a walk the rule at a place of the list reports a finding about a node: one of its calls that
are about the node answers it. -/
def ReportsAt (rules : List ActiveRule) (input : WalkInput) (place : Nat) (i : NodeId)
    (finding : Finding) : Prop :=
  ∃ call ∈ (walk rules input).calls, call.rule = place ∧ call.hook.node = i ∧
    finding ∈ call.verdict.findings

/-- A rule that looks at every node by itself and never fails internally reports what it finds when
it judges the node, if this does not depend on the scopes. -/
theorem reportsAt_iff_of_ofNodes {rule : Rule} {judge : Context → NodeId → Verdict}
    (hcheck : rule.check = .ofNodes judge) (hmild : ∀ cx j, (judge cx j).isFatal = false)
    {place : Nat} (hrule : (rules[place]?).map ActiveRule.rule = some rule) {i : NodeId}
    (hi : i < input.tree.size) (hkind : input.tree.kind i ∈ rule.kinds) {findings : List Finding}
    (hjudge : ∀ scopes, (judge (input.context scopes) i).findings = findings) {finding : Finding} :
    ReportsAt rules input place i finding ↔ finding ∈ findings := by
  constructor
  · rintro ⟨call, hcall, rfl, rfl, hfinding⟩
    rw [verdict_ofNodes hcheck hcall hrule] at hfinding
    cases hhook : call.hook with
    | enter j =>
        rw [hhook] at hfinding hjudge
        rwa [← hjudge call.scopes]
    | leave j =>
        rw [hhook] at hfinding
        cases hfinding
    | finish =>
        rw [hhook] at hfinding
        cases hfinding
  · intro hfinding
    obtain ⟨r, hget, rfl⟩ := Option.map_eq_some_iff.1 hrule
    have hout : CarriedOut [] (callsDue rules input.tree) (walk rules input).calls :=
      runWalk_carriedOut rules input
    rcases hout.made_or_switchedOff (enter_mem_callsDue hget hi hkind) with
      ⟨call, hcall, rfl, hhook⟩ | ⟨call, hcall, rfl, hfatal⟩
    · refine ⟨call, hcall, rfl, by rw [hhook]; rfl, ?_⟩
      rw [verdict_ofNodes hcheck hcall hrule, hhook]
      exact (hjudge call.scopes).symm ▸ hfinding
    · -- No answer switches the rule off.
      rw [verdict_ofNodes hcheck hcall hrule] at hfatal
      cases hhook : call.hook with
      | enter j => rw [hhook] at hfatal; cases (hmild _ j).symm.trans hfatal
      | leave j => rw [hhook] at hfatal; cases hfatal
      | finish => rw [hhook] at hfatal; cases hfatal

end SdkLint
