import SdkLint.Proofs.Scope.Surroundings
import SdkLint.Proofs.Walk.Loop

/-!
# The scopes that rules are shown

The stack of scopes keeps step with the agenda of the walk: before every stop that is still to be
made, the scopes will be those that the tree has there.

Main definitions:

- `InStep`: scopes that fit the stops still to be made.
- `Hook.Fits`: the scopes that a rule should be shown on an occasion.

Main results:

- Theorem `Passes.inStep`: scopes and agenda keep step all along a walk.
- Theorem `walk_keeps_scopes`: rules are shown the surroundings of their node, no scope is closed by
  another node, and no scope is open at the end.
-/

namespace SdkLint

variable {t : Tree} {rules : List ActiveRule} {input : WalkInput}

/-! ## Scopes and agenda -/

/-- The scopes that the tree has before a stop: those above the node on the way in, with its own on
the way out. -/
def Tree.framesBefore (t : Tree) : Visit → List Frame
  | .enter i => t.framesAlong (t.ancestors i)
  | .leave i => t.framesAlong (t.lineage i)

/-- `InStep t agenda frames`: the scopes are those that the tree has before the first stop of the
agenda, and so it goes on once this stop and all that it brings about are made. -/
inductive InStep (t : Tree) : List Visit → List Frame → Prop
  | done : InStep t [] []
  | next {agenda : List Visit} (v : Visit) :
      InStep t agenda (t.framesAlong (t.ancestors v.node)) →
      InStep t (v :: agenda) (t.framesBefore v)

/-- Having entered a node, the scopes are in step with its children and with leaving it. -/
theorem InStep.inside {i : Nat} {agenda : List Visit}
    (h : InStep t agenda (t.framesAlong (t.ancestors i))) {cs : List Nat}
    (hcs : ∀ c ∈ cs, c ∈ t.children i) :
    InStep t (cs.map Visit.enter ++ .leave i :: agenda) (t.framesAlong (t.lineage i)) := by
  induction cs with
  | nil => exact .next (.leave i) h
  | cons c cs ih =>
      have habove : t.ancestors c = t.lineage i :=
        Tree.ancestors_of_parent (t.mem_children.1 (hcs c (by simp)))
      have hrest := ih fun d hd => hcs d (by simp [hd])
      rw [← habove] at hrest ⊢
      exact .next (.enter c) hrest

/-- Making a stop keeps scopes and agenda in step. -/
theorem InStep.stop {v : Visit} {agenda : List Visit} {scopes : ScopeStack}
    (h : InStep t (v :: agenda) scopes.frames) :
    InStep t (t.following v ++ agenda) (scopes.visit t v).frames := by
  generalize hframes : scopes.frames = frames at h
  cases h with
  | next v hrest =>
      cases v with
      | enter i =>
          have hentered : (scopes.enter t i).frames = t.framesAlong (t.lineage i) := by
            rw [ScopeStack.frames_enter, hframes, Tree.lineage, Tree.framesAlong_cons]
            rfl
          rw [ScopeStack.visit, hentered, Tree.following, List.append_assoc]
          exact hrest.inside fun c hc => hc
      | leave i =>
          rw [ScopeStack.visit, ScopeStack.frames_leave hframes]
          exact hrest

theorem InStep.frames_eq {v : Visit} {agenda : List Visit} {frames : List Frame}
    (h : InStep t (v :: agenda) frames) : frames = t.framesBefore v := by
  cases h
  rfl

/-- Scopes and agenda keep step all along a walk. -/
theorem Passes.inStep {agenda : List Visit} {s : WalkState} (h : Passes rules input agenda s) :
    InStep input.tree agenda s.scopes.frames := by
  induction h with
  | start =>
      have habove : input.tree.ancestors Tree.root = [] :=
        Tree.ancestors_of_no_parent input.tree.ordered.root
      have hframes : (WalkState.start rules).scopes.frames =
          input.tree.framesBefore (.enter Tree.root) := by
        rw [Tree.framesBefore, habove]
        rfl
      rw [hframes]
      exact .next _ (by rw [Visit.node, habove]; exact .done)
  | stop _ ih =>
      rw [WalkState.visit_scopes]
      exact ih.stop

/-! ## Calls -/

/-- Whether some scopes are those that a rule should be shown on an occasion: those of the node on
entering and on leaving it, none at the end. -/
def Hook.Fits (t : Tree) (frames : List Frame) : Hook → Prop
  | .enter i | .leave i => frames = t.framesAlong (t.lineage i)
  | .finish => frames = []

/-- All calls so far have been shown the scopes that fit. -/
def WalkState.Shown (t : Tree) (s : WalkState) : Prop :=
  ∀ call ∈ s.calls, call.hook.Fits t call.scopes.frames

theorem WalkState.Shown.callRules {s : WalkState} (h : s.Shown t) (hook : Hook)
    (hfits : hook.Fits t s.scopes.frames) (input : WalkInput) (places : List Nat) :
    (s.callRules input hook places).Shown t := by
  intro call hcall
  rcases mem_calls_callRules hcall with hcall | ⟨hhook, hscopes⟩
  · exact h call hcall
  · rwa [hhook, hscopes]

/-- All calls up to any point of a walk have been shown the scopes of their node. -/
theorem Passes.shown {agenda : List Visit} {s : WalkState} (h : Passes rules input agenda s) :
    s.Shown input.tree := by
  induction h with
  | start => exact fun call hcall => by simp [WalkState.start] at hcall
  | @stop v agenda s hpasses ih =>
      have hbefore := hpasses.inStep.frames_eq
      cases v with
      | enter i =>
          have hmoved : WalkState.Shown input.tree
              { s with scopes := s.scopes.enter input.tree i, entered := s.entered + 1 } := ih
          refine hmoved.callRules (.enter i) ?_ input _
          have hentered := ScopeStack.frames_enter (t := input.tree) (s := s.scopes) i
          rwa [hbefore, Tree.framesBefore, ← Tree.framesAlong_cons] at hentered
      | leave i => exact WalkState.Shown.callRules ih (.leave i) hbefore input _

/-- No scope is open when all stops are made. -/
theorem Passes.frames_end {s : WalkState} (h : Passes rules input [] s) : s.scopes.frames = [] := by
  have hstep := h.inStep
  generalize s.scopes.frames = frames at hstep
  cases hstep
  rfl

/-- Every call of a walk has been shown the scopes that fit. -/
theorem walk_shown (rules : List ActiveRule) (input : WalkInput) :
    ∀ call ∈ (walk rules input).calls, call.hook.Fits input.tree call.scopes.frames := by
  have hend := passes_end rules input
  have hshown := hend.shown.callRules .finish hend.frames_end input
    (List.range rules.length)
  intro call hcall
  exact hshown call (Array.mem_toList_iff.1 hcall)

/-- What it means that the scopes of a walk keep step with it. -/
structure KeepsScopes (rules : List ActiveRule) (input : WalkInput) : Prop where
  /-- On entering and on leaving a node, rules are shown the surroundings of the node. -/
  around : ∀ call ∈ (walk rules input).calls, ∀ i,
    call.hook = .enter i ∨ call.hook = .leave i → call.scopes.Around input.tree i
  /-- At the end no scope is open. -/
  atEnd : ∀ call ∈ (walk rules input).calls, call.hook = .finish → call.depth = 0
  /-- A node that opened a scope finds it on top when it is left. -/
  ownScope : ∀ i agenda s, Passes rules input (.leave i :: agenda) s →
    (input.tree.kind i).opensScope = true → s.scopes.scopes.head?.map Scope.node = some i

/-- The scopes keep step with every walk. -/
theorem walk_keeps_scopes (rules : List ActiveRule) (input : WalkInput) :
    KeepsScopes rules input where
  around := by
    intro call hcall i hhook
    have hfits := walk_shown rules input call hcall
    refine ScopeStack.around_of_frames ?_
    rcases hhook with hhook | hhook
    · rwa [hhook] at hfits
    · rwa [hhook] at hfits
  atEnd := by
    intro call hcall hhook
    have hfits := walk_shown rules input call hcall
    rw [hhook] at hfits
    have hnone : call.scopes.scopes = [] := List.map_eq_nil_iff.1 hfits
    rw [HookCall.depth, ScopeStack.depth, hnone, List.length_nil]
  ownScope := by
    intro i agenda s hpasses hopens
    have hnodes : s.scopes.scopes.map Scope.node =
        (input.tree.lineage i).filter fun j => (input.tree.kind j).opensScope :=
      (ScopeStack.around_of_frames hpasses.inStep.frames_eq).nodes
    rw [Tree.lineage, List.filter_cons, if_pos hopens] at hnodes
    rw [← List.head?_map, hnodes]
    rfl

end SdkLint
