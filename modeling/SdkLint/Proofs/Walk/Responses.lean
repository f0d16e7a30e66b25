import SdkLint.Proofs.Walk.Loop

/-!
# What the rules of a walk answer

A check starts afresh for every file, and every call hands it the state in which the call before has
left it.  So the log of a walk determines what is logged of a rule: going through its calls from its
start, its check answers exactly the verdicts that are put down.

Main definitions:

- `Check.after`: the state in which calls leave a check.
- `Check.responses`: what a check answers to calls that are made one after the other.
- `Check.Logged`: calls are put down as the check answers them.
- `callsOf`: the calls of one rule.

Main results:

- Theorem `responses_concat`: the last of some calls is answered in the state after the others.
- Theorem `walk_responds`: the verdicts of a rule are what its check answers from its start.
- Theorem `walk_answers`: every call is answered by its rule in some state.
-/

namespace SdkLint

/-! ## Checks that are called -/

namespace Check

variable (check : Check) (input : WalkInput)

/-- The state in which calls leave a check that are made one after the other. -/
def after (state : check.State) (calls : List HookCall) : check.State :=
  calls.foldl (fun state call => (check.respond (input.context call.scopes) state call.hook).1)
    state

/-- What a check answers to calls that are made one after the other, each in the state in which the
one before has left it. -/
def responses (state : check.State) : List HookCall → List Verdict
  | [] => []
  | call :: calls =>
    let answer := check.respond (input.context call.scopes) state call.hook
    answer.2 :: responses answer.1 calls

@[simp]
theorem after_concat (state : check.State) (calls : List HookCall) (call : HookCall) :
    check.after input state (calls ++ [call]) =
      (check.respond (input.context call.scopes) (check.after input state calls) call.hook).1 := by
  simp [after]

theorem length_responses (state : check.State) (calls : List HookCall) :
    (check.responses input state calls).length = calls.length := by
  induction calls generalizing state with
  | nil => rfl
  | cons call calls ih => simp [responses, ih]

/-- Calls are answered in the state in which the calls before them leave the check. -/
theorem responses_append (state : check.State) (calls more : List HookCall) :
    check.responses input state (calls ++ more) =
      check.responses input state calls ++
        check.responses input (check.after input state calls) more := by
  induction calls generalizing state with
  | nil => rfl
  | cons call calls ih => simp [responses, after, ih]

/-- The last of some calls is answered in the state after the others. -/
theorem responses_concat (state : check.State) (calls : List HookCall) (call : HookCall) :
    check.responses input state (calls ++ [call]) =
      check.responses input state calls ++
        [(check.respond (input.context call.scopes) (check.after input state calls)
          call.hook).2] := by
  rw [responses_append]
  rfl

/-- Calls are put down with the verdicts that the check answers from its start, and what is kept of
the check, if anything, is the state in which they leave it. -/
structure Logged (state : Option check.State) (calls : List HookCall) : Prop where
  verdicts : calls.map HookCall.verdict = check.responses input check.start calls
  kept : ∀ last, state = some last → last = check.after input check.start calls

variable {check input}

theorem Logged.start : check.Logged input (some check.start) [] where
  verdicts := rfl
  kept := fun _ h => (Option.some.inj h).symm

/-- One more call is put down with what the check answers in the state that is kept. -/
theorem Logged.concat {state : check.State} {calls : List HookCall}
    (h : check.Logged input (some state) calls) {call : HookCall}
    (hverdict : call.verdict = (check.respond (input.context call.scopes) state call.hook).2)
    {next : Option check.State}
    (hnext : ∀ last, next = some last →
      last = (check.respond (input.context call.scopes) state call.hook).1) :
    check.Logged input next (calls ++ [call]) where
  verdicts := by
    rw [List.map_append, responses_concat, h.verdicts, ← h.kept state rfl, ← hverdict]
    rfl
  kept := by
    intro last hlast
    rw [after_concat, ← h.kept state rfl]
    exact hnext last hlast

end Check

/-! ## The log of a walk -/

/-- The calls of the rule at a place. -/
def callsOf (place : Nat) (calls : List HookCall) : List HookCall :=
  calls.filter fun call => call.rule == place

theorem callsOf_concat_self {place : Nat} (calls : List HookCall) {call : HookCall}
    (h : call.rule = place) : callsOf place (calls ++ [call]) = callsOf place calls ++ [call] := by
  simp [callsOf, h]

theorem callsOf_concat_other {place : Nat} (calls : List HookCall) {call : HookCall}
    (h : call.rule ≠ place) : callsOf place (calls ++ [call]) = callsOf place calls := by
  simp [callsOf, h]

namespace WalkState

variable {rules : List ActiveRule} {input : WalkInput} {s : WalkState}

/-- The calls so far are put down as the checks of their rules answer them. -/
structure Responding (rules : List ActiveRule) (input : WalkInput) (s : WalkState) : Prop where
  active_eq : s.rules.map Running.active = rules
  placed : ∀ call ∈ s.calls, call.rule < rules.length
  logged : ∀ (place : Nat) (r : ActiveRule) (state : Option r.rule.check.State),
    s.rules[place]? = some ⟨r, state⟩ →
    r.rule.check.Logged input state (callsOf place s.calls.toList)

theorem start_responding (rules : List ActiveRule) (input : WalkInput) :
    (start rules).Responding rules input where
  active_eq := start_active rules
  placed := by simp [start]
  logged := by
    intro place r state hget
    rw [start, List.getElem?_map, Option.map_eq_some_iff] at hget
    obtain ⟨r', -, hrunning⟩ := hget
    cases hrunning
    exact .start

/-- A call is put down as the check of its rule answers it, and leaves the other rules alone. -/
theorem Responding.callRule (h : s.Responding rules input) (hook : Hook) (place : Nat) :
    (s.callRule input hook place).Responding rules input := by
  apply callRule_induction
  · exact fun _ => h
  · intro r state hget
    have hrule : rules[place]? = some r := by simp [← h.active_eq, hget]
    refine ⟨callRule_active.trans h.active_eq, ?_, ?_⟩
    · intro call hcall
      rw [callRule_of_on hget] at hcall
      rcases Array.mem_push.1 hcall with hcall | rfl
      · exact h.placed call hcall
      · exact (List.getElem?_eq_some_iff.1 hrule).1
    · intro other r' state' hget'
      rw [callRule_of_on hget] at hget' ⊢
      simp only [Array.toList_push]
      by_cases hother : other = place
      · subst hother
        rw [List.getElem?_set_self (List.getElem?_eq_some_iff.1 hget).1] at hget'
        cases hget'
        rw [callsOf_concat_self]
        · apply (h.logged other r (some state) hget).concat rfl
          intro last hlast
          split at hlast
          · cases hlast
          · exact (Option.some.inj hlast).symm
        · rfl
      · rw [List.getElem?_set_ne (Ne.symm hother)] at hget'
        rw [callsOf_concat_other _ (Ne.symm hother)]
        exact h.logged other r' state' hget'

end WalkState

theorem runWalk_responding (rules : List ActiveRule) (input : WalkInput) :
    (runWalk rules input).Responding rules input := by
  apply runWalk_induction rules input
  · exact WalkState.start_responding rules input
  · exact fun s _ _ _ h => ⟨h.active_eq, h.placed, h.logged⟩
  · exact fun s h hook place _ => h.callRule hook place

/-- The verdicts that are logged of a rule are what its check answers to the logged calls, made one
after the other from its start. -/
theorem walk_responds (rules : List ActiveRule) (input : WalkInput) {place : Nat} {r : ActiveRule}
    (hget : rules[place]? = some r) :
    (callsOf place (walk rules input).calls).map HookCall.verdict =
      r.rule.check.responses input r.rule.check.start (callsOf place (walk rules input).calls) := by
  have hend := runWalk_responding rules input
  rw [← hend.active_eq, List.getElem?_map, Option.map_eq_some_iff] at hget
  obtain ⟨⟨r, state⟩, hrunning, rfl⟩ := hget
  exact (hend.logged place r state hrunning).verdicts

/-- A call that its rule has answered. -/
def HookCall.Answered (rules : List ActiveRule) (input : WalkInput) (call : HookCall) : Prop :=
  ∃ r state, rules[call.rule]? = some r ∧
    call.verdict = (r.rule.check.respond (input.context call.scopes) state call.hook).2

/-- All calls of a walk are answered by their rules. -/
theorem walk_answers (rules : List ActiveRule) (input : WalkInput) :
    ∀ call ∈ (walk rules input).calls, call.Answered rules input := by
  intro call hcall
  have hplace : call.rule < rules.length :=
    (runWalk_responding rules input).placed call (Array.mem_toList_iff.1 hcall)
  have hget : rules[call.rule]? = some rules[call.rule] := List.getElem?_eq_getElem hplace
  have hown : call ∈ callsOf call.rule (walk rules input).calls :=
    List.mem_filter.2 ⟨hcall, beq_self_eq_true _⟩
  obtain ⟨before, later, hsplit⟩ := List.append_of_mem hown
  have hverdicts := walk_responds rules input hget
  rw [hsplit, Check.responses_append, List.map_append] at hverdicts
  have hrest := (List.append_inj hverdicts (by simp [Check.length_responses])).2
  exact ⟨_, _, hget, (List.cons.inj hrest).1⟩

end SdkLint
