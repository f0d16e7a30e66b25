import Mathlib.Data.List.Basic
import SdkLint.Rule.Walk

/-!
# The loop of a walk

What one call of a rule changes, what one stop changes, and how the loop over the agenda puts the
stops together.

Main definitions:

- `Passes`: the states that a walk passes through, each with the stops still to be made.

Main results:

- Theorem `callRule_of_on`: a call of a rule that is not switched off, in full.
- Theorem `callRule_induction`: a property holds after a call if it holds of the two things that a
  call can do.
- Theorem `walkOn_eq_foldl`: the loop makes the stops of the stretches of its agenda, in order.
- Theorem `runWalk_induction`: what holds at the start and is kept by calls and by moving on holds
  after the walk.
- Theorem `passes_end`: a walk passes through a state with nothing left to be done.
-/

namespace SdkLint

namespace WalkState

variable {input : WalkInput} {hook : Hook} {s : WalkState} {place : Nat}

/-! ## One call -/

/-- A rule that is switched off is not called. -/
theorem callRule_of_off {r : ActiveRule} (h : s.rules[place]? = some ⟨r, none⟩) :
    s.callRule input hook place = s := by
  simp [callRule, h, Running.call]

/-- There is nothing to call at a place beyond the list of rules. -/
theorem callRule_of_absent (h : s.rules[place]? = none) :
    s.callRule input hook place = s := by
  simp [callRule, h]

/-- A call hands the rule its state, keeps the new one unless the answer is fatal, and puts the
answer down. -/
theorem callRule_of_on {r : ActiveRule} {state : r.rule.check.State}
    (h : s.rules[place]? = some ⟨r, some state⟩) :
    s.callRule input hook place =
      let answer := r.rule.check.respond (input.context s.scopes) state hook
      { s with
        rules := s.rules.set place ⟨r, if answer.2.isFatal then none else some answer.1⟩
        violations :=
          s.violations ++ r.violationsOf input.file input.tree hook.node answer.2
        calls := s.calls.push
          { rule := place, hook, scopes := s.scopes, verdict := answer.2 } } := by
  simp [callRule, h, Running.call]

/-- A call does nothing, or it calls a rule that is not switched off. -/
theorem callRule_induction {motive : WalkState → Prop}
    (same : (∀ r state, s.rules[place]? ≠ some ⟨r, some state⟩) → motive s)
    (called : ∀ (r : ActiveRule) (state : r.rule.check.State),
      s.rules[place]? = some ⟨r, some state⟩ → motive (s.callRule input hook place)) :
    motive (s.callRule input hook place) := by
  rcases hget : s.rules[place]? with _ | ⟨r, _ | state⟩
  · rw [callRule_of_absent hget]
    exact same fun r state h => by cases hget.symm.trans h
  · rw [callRule_of_off hget]
    exact same fun r state h => by cases hget.symm.trans h
  · exact called r state hget

@[simp]
theorem callRule_scopes : (s.callRule input hook place).scopes = s.scopes := by
  refine callRule_induction (motive := fun s' => s'.scopes = s.scopes) (fun _ => rfl) ?_
  intro r state h
  rw [callRule_of_on h]

@[simp]
theorem callRule_entered : (s.callRule input hook place).entered = s.entered := by
  refine callRule_induction (motive := fun s' => s'.entered = s.entered) (fun _ => rfl) ?_
  intro r state h
  rw [callRule_of_on h]

@[simp]
theorem callRule_left : (s.callRule input hook place).left = s.left := by
  refine callRule_induction (motive := fun s' => s'.left = s.left) (fun _ => rfl) ?_
  intro r state h
  rw [callRule_of_on h]

/-- Calls change the states of rules, not the rules. -/
theorem callRule_active :
    (s.callRule input hook place).rules.map Running.active = s.rules.map Running.active := by
  refine callRule_induction
    (motive := fun s' => s'.rules.map Running.active = s.rules.map Running.active)
    (fun _ => rfl) ?_
  intro r state h
  have hget : (s.rules.map Running.active)[place]? = some r := by simp [h]
  have hset : (s.rules.map Running.active).set place r = s.rules.map Running.active := by
    obtain ⟨hlt, heq⟩ := List.getElem?_eq_some_iff.1 hget
    rw [← heq]
    exact List.set_getElem_self hlt
  rw [callRule_of_on h, List.map_set]
  exact hset

theorem start_active (rules : List ActiveRule) :
    (start rules).rules.map Running.active = rules := by
  simp [start, Function.comp_def, ActiveRule.running]

/-! ## The calls of one stop -/

variable {places : List Nat} {d : Dispatch}

@[simp]
theorem callRules_nil : s.callRules input hook [] = s :=
  rfl

theorem callRules_cons :
    s.callRules input hook (place :: places) =
      (s.callRule input hook place).callRules input hook places :=
  rfl

/-- What every single call keeps is kept by all of them. -/
theorem callRules_induction {motive : WalkState → Prop} (h : motive s)
    (call : ∀ s, motive s → ∀ place ∈ places, motive (s.callRule input hook place)) :
    motive (s.callRules input hook places) := by
  induction places generalizing s with
  | nil => exact h
  | cons place places ih =>
      rw [callRules_cons]
      refine ih (call s h place (by simp)) ?_
      intro s hs q hq
      exact call s hs q (by simp [hq])

@[simp]
theorem callRules_scopes : (s.callRules input hook places).scopes = s.scopes :=
  callRules_induction (motive := fun s' => s'.scopes = s.scopes) rfl
    fun _ h _ _ => callRule_scopes.trans h

@[simp]
theorem callRules_entered : (s.callRules input hook places).entered = s.entered :=
  callRules_induction (motive := fun s' => s'.entered = s.entered) rfl
    fun _ h _ _ => callRule_entered.trans h

@[simp]
theorem callRules_left : (s.callRules input hook places).left = s.left :=
  callRules_induction (motive := fun s' => s'.left = s.left) rfl
    fun _ h _ _ => callRule_left.trans h

/-- The calls of one stop are of its occasion and are shown its scopes. -/
theorem mem_calls_callRules {call : HookCall}
    (h : call ∈ (s.callRules input hook places).calls) :
    call ∈ s.calls ∨ call.hook = hook ∧ call.scopes = s.scopes := by
  revert h
  refine (callRules_induction (motive := fun s' => s'.scopes = s.scopes ∧
    (call ∈ s'.calls → call ∈ s.calls ∨ call.hook = hook ∧ call.scopes = s.scopes))
    ⟨rfl, Or.inl⟩ ?_).2
  rintro s' ⟨hscopes, hcalls⟩ place -
  refine ⟨callRule_scopes.trans hscopes, ?_⟩
  refine callRule_induction (motive := fun s'' => call ∈ s''.calls → _) (fun _ => hcalls) ?_
  intro r state hget hcall
  rw [callRule_of_on hget] at hcall
  rcases Array.mem_push.1 hcall with hcall | rfl
  · exact hcalls hcall
  · exact Or.inr ⟨rfl, hscopes⟩

@[simp]
theorem visit_scopes (v : Visit) :
    (s.visit input d v).scopes = s.scopes.visit input.tree v := by
  cases v <;> simp [visit, ScopeStack.visit]

/-- What calls keep, and what does not depend on the scopes and counts, is kept by a stop. -/
theorem visit_induction {motive : WalkState → Prop} (v : Visit)
    (moved : ∀ s scopes entered left, motive s → motive { s with scopes, entered, left })
    (call : ∀ s, motive s → ∀ place ∈ d.subscribers (input.tree.kind v.node),
      motive (s.callRule input v.hook place))
    (h : motive s) : motive (s.visit input d v) := by
  cases v with
  | enter i => exact callRules_induction (moved s _ _ _ h) call
  | leave i => exact moved _ _ _ _ (callRules_induction h call)

end WalkState

/-! ## The loop -/

variable {rules : List ActiveRule} {input : WalkInput}

/-- The loop makes the stops of the stretches of its agenda, in order. -/
theorem walkOn_eq_foldl (input : WalkInput) (d : Dispatch) (agenda : List Visit)
    (s : WalkState) :
    walkOn input d agenda s =
      (agenda.flatMap input.tree.stretch).foldl (WalkState.visit input d) s := by
  fun_induction walkOn input d agenda s with
  | case1 s => simp
  | case2 s v rest ih =>
      rw [ih, List.flatMap_append, List.flatMap_cons, input.tree.stretch_eq v, List.cons_append,
        List.foldl_cons]

/-- The walk up to the end makes the stops of the tour and then calls every rule once more. -/
theorem runWalk_eq (rules : List ActiveRule) (input : WalkInput) :
    runWalk rules input =
      (input.tree.tour.foldl (WalkState.visit input (dispatch rules))
        (.start rules)).callRules input .finish (List.range rules.length) := by
  rw [runWalk, walkOn_eq_foldl]
  simp [Tree.stretch, Tree.tour]

/-- The table of a walk gives the places of the rules that list a kind. -/
theorem dispatch_subscribers (rules : List ActiveRule) (kind : NodeKind) :
    (dispatch rules).subscribers kind =
      Dispatch.askers (rules.map fun r => r.rule.kinds) kind :=
  Dispatch.subscribers_ofKinds _ _

/-- A rule that is alone is called if it lists the kind. -/
theorem dispatch_singleton (r : ActiveRule) (kind : NodeKind) :
    (dispatch [r]).subscribers kind = if kind ∈ r.rule.kinds then [0] else [] := by
  rw [dispatch_subscribers]
  by_cases hkind : kind ∈ r.rule.kinds <;> simp [Dispatch.askers, hkind]

/-- Calling a rule that is alone, at a node whose kind it may or may not list, brings its state to
what its check makes of it, and adds no call but the one of this occasion. -/
theorem WalkState.callRules_alone {r : ActiveRule} {s : WalkState}
    {state next : r.rule.check.State} {verdict : Verdict} (hook : Hook) (kind : NodeKind)
    (hrules : s.rules = [⟨r, some state⟩])
    (hrespond : r.rule.check.respond (input.context s.scopes) state hook = (next, verdict))
    (hother : kind ∉ r.rule.kinds → next = state) (hfatal : verdict.isFatal = false) :
    let s' := s.callRules input hook ((dispatch [r]).subscribers kind)
    s'.rules = [⟨r, some next⟩] ∧
      ∀ call ∈ s'.calls, call ∈ s.calls ∨ call = ⟨0, hook, s.scopes, verdict⟩ := by
  rw [dispatch_singleton]
  split
  · have hget : s.rules[0]? = some ⟨r, some state⟩ := by simp [hrules]
    rw [callRules_cons, callRules_nil, callRule_of_on hget]
    simp only [hrespond, hfatal, hrules]
    exact ⟨rfl, fun call hcall => Array.mem_push.1 hcall⟩
  · -- The rule is not called, and would not have changed its state.
    rename_i hkind
    rw [hother hkind]
    exact ⟨hrules, fun call hcall => Or.inl hcall⟩

theorem lt_length_of_mem_subscribers {kind : NodeKind} {place : Nat}
    (h : place ∈ (dispatch rules).subscribers kind) : place < rules.length := by
  rw [dispatch_subscribers, Dispatch.mem_askers] at h
  obtain ⟨kinds, hget, -⟩ := h
  simpa using (List.getElem?_eq_some_iff.1 hget).1

/-- What holds at the start and is kept by calls and by moving on holds after the walk. -/
theorem runWalk_induction {motive : WalkState → Prop} (rules : List ActiveRule)
    (input : WalkInput) (start : motive (.start rules))
    (moved : ∀ s scopes entered left, motive s → motive { s with scopes, entered, left })
    (call : ∀ s, motive s → ∀ hook, ∀ place < rules.length,
      motive (s.callRule input hook place)) :
    motive (runWalk rules input) := by
  rw [runWalk_eq]
  refine WalkState.callRules_induction ?_ fun s hs place hplace =>
    call s hs .finish place (List.mem_range.1 hplace)
  generalize input.tree.tour = stops
  generalize hs : WalkState.start rules = s at start
  clear hs
  induction stops generalizing s with
  | nil => exact start
  | cons v stops ih =>
      refine ih _ (WalkState.visit_induction v moved ?_ start)
      intro s hs place hplace
      exact call s hs v.hook place (lt_length_of_mem_subscribers hplace)

/-! ## The states that a walk passes through -/

/-- `Passes rules input agenda s`: the walk comes to the state `s` when the stops of `agenda` are
still to be made. -/
inductive Passes (rules : List ActiveRule) (input : WalkInput) : List Visit → WalkState → Prop
  | start : Passes rules input [.enter Tree.root] (.start rules)
  | stop {v : Visit} {agenda : List Visit} {s : WalkState} :
      Passes rules input (v :: agenda) s →
      Passes rules input (input.tree.following v ++ agenda) (s.visit input (dispatch rules) v)

/-- From a state that it passes through, a walk goes on until nothing is left to be done. -/
theorem Passes.walkOn {agenda : List Visit} {s : WalkState} (h : Passes rules input agenda s) :
    Passes rules input [] (walkOn input (dispatch rules) agenda s) := by
  fun_induction SdkLint.walkOn input (dispatch rules) agenda s with
  | case1 s => exact h
  | case2 s v rest ih => exact ih h.stop

/-- A walk comes to an end with nothing left to be done. -/
theorem passes_end (rules : List ActiveRule) (input : WalkInput) :
    Passes rules input [] (walkOn input (dispatch rules) [.enter Tree.root] (.start rules)) :=
  Passes.start.walkOn

end SdkLint
