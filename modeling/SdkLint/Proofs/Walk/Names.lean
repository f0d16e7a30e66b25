import SdkLint.Proofs.Scope.Resolution
import SdkLint.Proofs.Tree.Building
import SdkLint.Proofs.Tree.Journey
import SdkLint.Proofs.Walk.Scopes

/-!
# Looking up names during a walk

The walk enters nodes in the order of their numbers, so that its stack of scopes holds, on entering a
node, what the node and those before it have attached.  Names are looked up accordingly, whatever the
rules are.

All variables of a local declaration are attached when the walk comes to the declaration.  A variable
is therefore found from the initializers of those before it, where it is not declared yet
(`not_resolvesNames_singly`).

Main definition:

- `ResolvesNames`: what it means that names are looked up by the declarations of the tree.

Main results:

- Theorem `Passes.entered_agenda`: the nodes that are still to be entered are those that follow on
  the ones entered so far.
- Theorem `Passes.holds`: the tables are complete all along a walk.
- Theorem `exists_passes_enter`: a walk comes to every node.
- Theorem `walk_resolvesNames`: on entering a node, every name is looked up by the declarations
  attached so far.
-/

namespace SdkLint

variable {rules : List ActiveRule} {input : WalkInput}

/-! ## Nodes entered so far -/

/-- The nodes that are still to be entered follow in number on those entered so far. -/
theorem Passes.entered_agenda {agenda : List Visit} {s : WalkState}
    (h : Passes rules input agenda s) :
    ∃ n, (agenda.flatMap input.tree.stretch).filterMap Visit.entered? =
      List.range' s.entered n := by
  induction h with
  | start =>
    refine ⟨input.tree.size, ?_⟩
    rw [List.flatMap_singleton, Tree.stretch, ← Tree.tour, Tree.entered_tour, List.range_eq_range']
    rfl
  | @stop v agenda s _ ih =>
    obtain ⟨n, hn⟩ := ih
    rw [List.flatMap_cons, Tree.stretch_eq, List.cons_append, ← List.flatMap_append] at hn
    cases v with
    | enter i =>
      rw [List.filterMap_cons] at hn
      dsimp only [Visit.entered?] at hn
      cases n with
      | zero => cases hn
      | succ n =>
        rw [List.range'_succ, List.cons.injEq] at hn
        refine ⟨n, ?_⟩
        rw [WalkState.visit, WalkState.callRules_entered]
        exact hn.2
    | leave i =>
      rw [List.filterMap_cons] at hn
      refine ⟨n, ?_⟩
      rw [WalkState.visit, WalkState.callRules_entered]
      exact hn

/-- A node is entered when as many nodes have been entered as there are before it. -/
theorem Passes.entered_eq {i : Nat} {agenda : List Visit} {s : WalkState}
    (h : Passes rules input (.enter i :: agenda) s) : s.entered = i := by
  obtain ⟨n, hn⟩ := h.entered_agenda
  rw [List.flatMap_cons, Tree.stretch_eq, List.cons_append, List.filterMap_cons] at hn
  dsimp only [Visit.entered?] at hn
  cases n with
  | zero => cases hn
  | succ n =>
    rw [List.range'_succ, List.cons.injEq] at hn
    exact hn.1.symm

/-! ## Tables -/

/-- All along a walk the tables hold what the nodes entered so far have attached. -/
theorem Passes.holds {agenda : List Visit} {s : WalkState} (h : Passes rules input agenda s) :
    s.scopes.Holds input.tree s.entered := by
  induction h with
  | start =>
    intro scope hscope
    cases hscope
  | @stop v agenda s hpasses ih =>
    rw [WalkState.visit_scopes]
    cases v with
    | enter i =>
      have hframes := hpasses.inStep.frames_eq
      rw [hpasses.entered_eq] at ih
      rw [WalkState.visit, WalkState.callRules_entered, hpasses.entered_eq]
      exact ih.enter hframes
    | leave i =>
      rw [WalkState.visit, WalkState.callRules_entered]
      exact ih.leave

/-- Having entered a node, a walk looks up names by the declarations attached so far. -/
theorem Passes.lookup_eq {n : Nat} {agenda : List Visit} {s : WalkState}
    (h : Passes rules input (.enter n :: agenda) s) (name : String) :
    (s.scopes.enter input.tree n).lookup name =
      input.tree.resolve input.tree.broughtSymbols n name := by
  have hholds := h.holds
  rw [h.entered_eq] at hholds
  have hframes : (s.scopes.enter input.tree n).frames =
      input.tree.framesAlong (input.tree.lineage n) := by
    rw [ScopeStack.frames_enter, h.inStep.frames_eq, Tree.lineage, Tree.framesAlong_cons]
    rfl
  rw [(hholds.enter h.inStep.frames_eq).lookup_eq, ScopeStack.map_node_of_frames hframes]
  rfl

/-! ## Nodes that a walk comes to -/

/-- Where the tour has made some stops, a walk has passed through the state that they lead to. -/
theorem passes_of_along {made agenda : List Visit} (h : input.tree.Along made agenda) :
    Passes rules input agenda
      (made.foldl (WalkState.visit input (dispatch rules)) (.start rules)) := by
  induction h with
  | start => exact .start
  | stop _ ih =>
    rw [List.foldl_append]
    exact ih.stop

/-- A walk comes to every node of the tree. -/
theorem exists_passes_enter (rules : List ActiveRule) (input : WalkInput) {n : Nat}
    (hn : n < input.tree.size) : ∃ agenda s, Passes rules input (.enter n :: agenda) s := by
  obtain ⟨made, rest, hsplit⟩ := Tree.exists_tour_eq hn
  obtain ⟨agenda, halong, hrest⟩ := Tree.exists_along hsplit
  cases agenda with
  | nil => cases hrest
  | cons v agenda =>
    rw [List.flatMap_cons, Tree.stretch_eq, List.cons_append, List.cons.injEq] at hrest
    exact ⟨agenda, _, hrest.1 ▸ passes_of_along halong⟩

/-! ## Calls -/

/-- Every call on entering a node, up to any point of a walk, has been shown scopes in which names are
looked up by the declarations attached so far. -/
theorem Passes.calls_lookup_eq {agenda : List Visit} {s : WalkState}
    (h : Passes rules input agenda s) :
    ∀ call ∈ s.calls, ∀ n, call.hook = .enter n → ∀ name, call.scopes.lookup name =
      input.tree.resolve input.tree.broughtSymbols n name := by
  induction h with
  | start =>
    intro call hcall
    simp [WalkState.start] at hcall
  | @stop v agenda s hpasses ih =>
    intro call hcall n hhook name
    cases v with
    | enter i =>
      rcases WalkState.mem_calls_callRules hcall with hcall | ⟨hat, hscopes⟩
      · exact ih call hcall n hhook name
      · rw [hat] at hhook
        cases hhook
        rw [hscopes]
        exact hpasses.lookup_eq name
    | leave i =>
      rcases WalkState.mem_calls_callRules hcall with hcall | ⟨hat, -⟩
      · exact ih call hcall n hhook name
      · rw [hat] at hhook
        cases hhook

/-! ## All names -/

/-- What it means that a walk looks up names by the declarations of its tree, where nodes bring
declarations into the scopes around them as `brought` says. -/
structure ResolvesNames (brought : Tree → NodeId → List (String × Symbol))
    (rules : List ActiveRule) (input : WalkInput) : Prop where
  /-- The walk comes to every node. -/
  reached : ∀ n < input.tree.size, ∃ agenda s, Passes rules input (.enter n :: agenda) s
  /-- Having entered a node, it has scopes in which every name stands for what it should. -/
  entered : ∀ n agenda s, Passes rules input (.enter n :: agenda) s → ∀ name,
    (s.visit input (dispatch rules) (.enter n)).scopes.lookup name =
      input.tree.resolve (brought input.tree) n name
  /-- So have the scopes that rules are shown. -/
  shown : ∀ call ∈ (walk rules input).calls, ∀ n, call.hook = .enter n → ∀ name,
    call.scopes.lookup name = input.tree.resolve (brought input.tree) n name

/-- On entering a node, a walk looks up every name by the declarations attached so far: the last one
in the innermost scope that has one.  A local declaration brings all its variables at once. -/
theorem walk_resolvesNames (rules : List ActiveRule) (input : WalkInput) :
    ResolvesNames Tree.broughtSymbols rules input where
  reached := by
    intro n hn
    exact exists_passes_enter rules input hn
  entered := by
    intro n agenda s hpasses name
    rw [WalkState.visit_scopes]
    exact hpasses.lookup_eq name
  shown := by
    intro call hcall n hhook name
    rcases WalkState.mem_calls_callRules (Array.mem_toList_iff.1 hcall) with hcall | ⟨hat, -⟩
    · exact (passes_end rules input).calls_lookup_eq call hcall n hhook name
    · rw [hat] at hhook
      cases hhook

/-- What a node brings into the scope around it if every variable of a local declaration is brought
by its own declarator. -/
def Tree.broughtSingly (t : Tree) (i : NodeId) : List (String × Symbol) :=
  match t.kind i with
  | .varDeclarator =>
    if (t.parent i).map t.kind = some .localVarDecl then t.namedSymbols .localVar [i] else []
  | .localVarDecl => []
  | _ => t.broughtSymbols i

/-- The tree of `class A { int b; void m() { int a = b, b = 1; } }`. -/
def earlyUseInput : WalkInput where
  file := .ofPath "A.java" "" ""
  tree :=
    let declarator (name : String) (value : List Outline) : Outline :=
      .sketch .varDeclarator none (.sketchName name :: value)
    let type (name : String) : Outline := .sketch .typeName (some name) []
    (Outline.sketch .compilationUnit none
      [.sketch .classDef none
        [.sketchName "A",
          .sketch .classBody none
            [.sketch .fieldDef none [type "int", declarator "b" []],
              .sketch .methodDef none
                [type "void", .sketchName "m", .sketch .parameters none [],
                  .sketch .block none
                    [.sketch .localVarDecl none
                      [type "int", declarator "a" [.sketchName "b"],
                        declarator "b" [.sketch .literal (some "1") []]]]]]]]).toTree ""
  resolver := fun _ => none

/-- Variables are not brought one by one: in the initializer of `a`, the name `b` stands for the
variable that is declared behind it and not for the field. -/
theorem not_resolvesNames_singly :
    ¬ ∀ rules input, ResolvesNames Tree.broughtSingly rules input := by
  intro hsingly
  have hinput := hsingly [] earlyUseInput
  obtain ⟨agenda, s, hpasses⟩ := hinput.reached 17 (by decide +kernel)
  have hfound := hpasses.lookup_eq "b"
  have hexpected := hinput.entered 17 agenda s hpasses "b"
  rw [WalkState.visit_scopes] at hexpected
  have hvariable : earlyUseInput.tree.resolve earlyUseInput.tree.broughtSymbols 17 "b" =
      some { kind := .localVar, decl := 18 } := by decide +kernel
  have hfield : earlyUseInput.tree.resolve earlyUseInput.tree.broughtSingly 17 "b" =
      some { kind := .field, decl := 6 } := by decide +kernel
  have hsame := (hvariable.symm.trans hfound.symm).trans (hexpected.trans hfield)
  cases hsame

end SdkLint
