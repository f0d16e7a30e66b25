import Mathlib.Data.List.Forall2
import SdkLint.Proofs.Walk.Loop

/-!
# Walks side by side

Two walks around one tree may differ in the file, in what is known about types and in the
severities of the rules.  They go side by side if the rules, in the same states and shown the same
scopes, go on to the same states and answer alike: then the same rules are called in the same order
up to the end.

What "alike" means is a parameter.  All that is needed of it is that answers which are alike switch
the same rules off.

Main definitions:

- `ActiveRule.graded`: a rule at another severity.
- `Check.AnswersAlike`: a check that takes the same course in two walks.
- `HookCall.Agrees`: calls that differ at most in the answer.
- `WalkState.Parallel`: walks that have come to the same place with calls that agree.

Main results:

- Theorem `runWalk_parallel`: walks stay side by side up to the end.
- Theorem `calls_agree`: call by call, they are answered alike.
- Theorem `calls_eq`: if alike means equal, the calls of both walks are the same.
-/

namespace SdkLint

/-! ## Severities -/

section Grading

variable (grade : ActiveRule → Severity)

/-- A rule at another severity. -/
def ActiveRule.graded (r : ActiveRule) : ActiveRule :=
  { r with severity := grade r }

/-- Rules at their own severities are as they were. -/
theorem ActiveRule.map_graded_severity (rules : List ActiveRule) :
    rules.map (graded severity) = rules :=
  List.map_id rules

/-- A rule at work, at another severity. -/
def Running.graded (r : Running) : Running where
  active := r.active.graded grade
  state := r.state

/-- Severities do not decide which rules are called. -/
theorem dispatch_graded (rules : List ActiveRule) :
    dispatch (rules.map (ActiveRule.graded grade)) = dispatch rules := by
  simp [dispatch, Function.comp_def, ActiveRule.graded]

theorem WalkState.start_graded (rules : List ActiveRule) :
    (start (rules.map (ActiveRule.graded grade))).rules =
      (start rules).rules.map (Running.graded grade) := by
  simp [start, Function.comp_def, ActiveRule.running, Running.graded, ActiveRule.graded]

end Grading

/-! ## Rules that answer alike -/

section Alike

variable (Agree : Verdict → Verdict → Prop) (grade : ActiveRule → Severity)
  (input other : WalkInput)

/-- A check that, called in the same state and shown the same scopes in two walks, goes on to the
same state and answers alike. -/
def Check.AnswersAlike (check : Check) : Prop :=
  ∀ (scopes : ScopeStack) (state : check.State) (hook : Hook),
    (check.respond (other.context scopes) state hook).1 =
        (check.respond (input.context scopes) state hook).1 ∧
      Agree (check.respond (input.context scopes) state hook).2
        (check.respond (other.context scopes) state hook).2

/-- A check that looks at every node by itself answers alike if its judgements are alike. -/
theorem Check.ofNodes_answersAlike {judge : Context → NodeId → Verdict} (pass : Agree .pass .pass)
    (h : ∀ scopes i, Agree (judge (input.context scopes) i) (judge (other.context scopes) i)) :
    (Check.ofNodes judge).AnswersAlike Agree input other := by
  intro scopes state hook
  cases hook with
  | enter i => exact ⟨rfl, h scopes i⟩
  | leave i => exact ⟨rfl, pass⟩
  | finish => exact ⟨rfl, pass⟩

/-- Calls of one rule on one occasion with the same scopes, answered alike. -/
structure HookCall.Agrees (call call' : HookCall) : Prop where
  rule : call'.rule = call.rule
  hook : call'.hook = call.hook
  scopes : call'.scopes = call.scopes
  verdict : Agree call.verdict call'.verdict

/-- Walks that have come to the same place, with the same scopes, the same states of the rules and
calls that agree.  The violations may differ. -/
structure WalkState.Parallel (s s' : WalkState) : Prop where
  scopes : s'.scopes = s.scopes
  rules : s'.rules = s.rules.map (Running.graded grade)
  calls : List.Forall₂ (HookCall.Agrees Agree) s.calls.toList s'.calls.toList
  alike : ∀ r ∈ s.rules, r.active.rule.check.AnswersAlike Agree input other

end Alike

namespace WalkState.Parallel

variable {Agree : Verdict → Verdict → Prop} {grade : ActiveRule → Severity}
  {input other : WalkInput} {s s' : WalkState}

/-- A rule is called in both walks or in none, and goes on to the same state. -/
theorem callRule (fatal : ∀ v w, Agree v w → w.isFatal = v.isFatal)
    (h : Parallel Agree grade input other s s') (hook : Hook) (place : Nat) :
    Parallel Agree grade input other (s.callRule input hook place)
      (s'.callRule other hook place) := by
  have hplace : s'.rules[place]? = s.rules[place]?.map (Running.graded grade) := by
    rw [h.rules, List.getElem?_map]
  rcases hget : s.rules[place]? with _ | ⟨r, _ | state⟩
  · rw [callRule_of_absent hget, callRule_of_absent (by rw [hplace, hget]; rfl)]
    exact h
  · have hget' : s'.rules[place]? = some ⟨r.graded grade, none⟩ := by rw [hplace, hget]; rfl
    rw [callRule_of_off hget, callRule_of_off hget']
    exact h
  · have hget' : s'.rules[place]? = some ⟨r.graded grade, some state⟩ := by
      rw [hplace, hget]; rfl
    have hr : r.rule.check.AnswersAlike Agree input other := h.alike _ (List.mem_of_getElem? hget)
    obtain ⟨hnext, hverdict⟩ := hr s.scopes state hook
    have hfatal := fatal _ _ hverdict
    rw [callRule_of_on hget, callRule_of_on hget', h.scopes]
    refine ⟨rfl, ?_, ?_, ?_⟩
    · simp only [h.rules, List.map_set]
      congr 1
      simp only [Running.graded]
      congr 1
      -- Both walks keep the same state, or switch the rule off.
      exact if_congr (by rw [← hfatal]; rfl) rfl (congrArg some hnext)
    · simp only [Array.toList_push]
      exact List.rel_append h.calls (.cons ⟨rfl, rfl, rfl, hverdict⟩ .nil)
    · intro r' hr'
      rcases List.mem_or_eq_of_mem_set hr' with hr' | rfl
      · exact h.alike r' hr'
      · exact hr

theorem callRules (fatal : ∀ v w, Agree v w → w.isFatal = v.isFatal)
    (h : Parallel Agree grade input other s s') (hook : Hook) (places : List Nat) :
    Parallel Agree grade input other (s.callRules input hook places)
      (s'.callRules other hook places) := by
  induction places generalizing s s' with
  | nil => exact h
  | cons place places ih =>
      rw [callRules_cons, callRules_cons]
      exact ih (h.callRule fatal hook place)

theorem visit (tree : other.tree = input.tree) (fatal : ∀ v w, Agree v w → w.isFatal = v.isFatal)
    (h : Parallel Agree grade input other s s') (d : Dispatch) (v : Visit) :
    Parallel Agree grade input other (s.visit input d v) (s'.visit other d v) := by
  cases v with
  | enter i =>
      simp only [WalkState.visit, tree]
      apply WalkState.Parallel.callRules fatal
      exact ⟨by rw [h.scopes], h.rules, h.calls, h.alike⟩
  | leave i =>
      have hcalls := h.callRules fatal (.leave i) (d.subscribers (input.tree.kind i))
      simp only [WalkState.visit, tree]
      exact ⟨by rw [hcalls.scopes], hcalls.rules, hcalls.calls, hcalls.alike⟩

theorem stops (tree : other.tree = input.tree) (fatal : ∀ v w, Agree v w → w.isFatal = v.isFatal)
    (h : Parallel Agree grade input other s s') (d : Dispatch) (stops : List Visit) :
    Parallel Agree grade input other (stops.foldl (WalkState.visit input d) s)
      (stops.foldl (WalkState.visit other d) s') := by
  induction stops generalizing s s' with
  | nil => exact h
  | cons v stops ih => exact ih (h.visit tree fatal d v)

end WalkState.Parallel

/-! ## Whole walks -/

section Walks

variable {Agree : Verdict → Verdict → Prop} {input other : WalkInput} {rules : List ActiveRule}
  (tree : other.tree = input.tree)

include tree

/-- Walks stay side by side up to the end. -/
theorem runWalk_parallel (fatal : ∀ v w, Agree v w → w.isFatal = v.isFatal)
    (alike : ∀ r ∈ rules, r.rule.check.AnswersAlike Agree input other)
    (grade : ActiveRule → Severity) :
    WalkState.Parallel Agree grade input other (runWalk rules input)
      (runWalk (rules.map (ActiveRule.graded grade)) other) := by
  have hstart : WalkState.Parallel Agree grade input other (.start rules)
      (.start (rules.map (ActiveRule.graded grade))) := by
    refine ⟨rfl, WalkState.start_graded grade rules, .nil, fun running hrunning => ?_⟩
    obtain ⟨r, hr, rfl⟩ := List.mem_map.1 hrunning
    exact alike r hr
  rw [runWalk_eq, runWalk_eq, tree, dispatch_graded, List.length_map]
  exact (hstart.stops tree fatal (dispatch rules) input.tree.tour).callRules fatal _ _

/-- Call by call, walks that go side by side are answered alike. -/
theorem calls_agree (fatal : ∀ v w, Agree v w → w.isFatal = v.isFatal)
    (alike : ∀ r ∈ rules, r.rule.check.AnswersAlike Agree input other)
    (grade : ActiveRule → Severity) :
    List.Forall₂ (HookCall.Agrees Agree) (walk rules input).calls
      (walk (rules.map (ActiveRule.graded grade)) other).calls :=
  (runWalk_parallel tree fatal alike grade).calls

/-- Walks in which all rules answer the same make the same calls. -/
theorem calls_eq (alike : ∀ r ∈ rules, r.rule.check.AnswersAlike Eq input other)
    (grade : ActiveRule → Severity) :
    (walk (rules.map (ActiveRule.graded grade)) other).calls = (walk rules input).calls := by
  have hcalls := calls_agree tree (fun v w h => congrArg Verdict.isFatal h.symm) alike grade
  symm
  refine List.forall₂_eq_eq_eq ▸ hcalls.imp fun call call' h => ?_
  obtain ⟨place, hook, scopes, verdict⟩ := call
  obtain ⟨rfl, rfl, rfl, rfl⟩ := h
  rfl

end Walks

end SdkLint
