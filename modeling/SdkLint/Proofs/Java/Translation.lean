import SdkLint.Java.Parse
import SdkLint.Proofs.Tree.Building

/-!
# Conversion follows the structure of concrete trees

What a concrete tree contributes to the syntax tree is a structural translation: a construct that is
dropped contributes nothing, and nothing from below it; a leaf contributes one childless node; every
other construct contributes one node over all that its children contribute.  The loop that takes a
concrete tree apart drives the builder through exactly the steps of this translation, so that it
builds the translation and cannot fail in any other way than for want of a node.

Main definitions:

- `Concrete.outline`: the translation of a concrete tree.
- `Task.steps`: the building steps that a task stands for.

Main results:

- Theorem `buildOn_eq_foldl`: the loop drives the builder through the steps of its tasks.
- Theorem `convert_eq_build`: conversion builds the steps of the translation.
- Theorem `convert_translates`: conversion yields the translation, and fails for dropped roots only.
-/

namespace SdkLint.Java

/-! ## The translation -/

/-- What a concrete tree contributes to the syntax tree, given the grammar's name of its parent. -/
def Concrete.outline (source : String) (parentKind : Option String) : Concrete → List Outline
  | .node info children =>
    match shapeOf parentKind (.node info children) source with
    | .skip => []
    | .leaf kind token => [.node kind info.span info.position (some token) []]
    | .interior kind token =>
      [.node kind info.span info.position token
        (children.attach.flatMap fun ⟨c, _⟩ => c.outline source (some info.kind))]

variable {source : String} {parentKind : Option String} {c : Concrete}

/-- What is dropped contributes nothing. -/
theorem Concrete.outline_of_skip (h : shapeOf parentKind c source = .skip) :
    c.outline source parentKind = [] := by
  obtain ⟨info, children⟩ := c
  rw [Concrete.outline, h]

/-- A leaf contributes one childless node. -/
theorem Concrete.outline_of_leaf {kind : NodeKind} {token : String}
    (h : shapeOf parentKind c source = .leaf kind token) :
    c.outline source parentKind =
      [.node kind c.info.span c.info.position (some token) []] := by
  obtain ⟨info, children⟩ := c
  rw [Concrete.outline, h]
  rfl

/-- An interior construct contributes one node over all that its children contribute, with its own
name as that of their parent. -/
theorem Concrete.outline_of_interior {kind : NodeKind} {token : Option String}
    (h : shapeOf parentKind c source = .interior kind token) :
    c.outline source parentKind =
      [.node kind c.info.span c.info.position token
        (c.children.flatMap (Concrete.outline source (some c.info.kind)))] := by
  obtain ⟨info, children⟩ := c
  rw [Concrete.outline, h]
  simp [List.flatMap_subtype, Concrete.info, Concrete.children]

/-! ## The loop -/

/-- The building steps that a task stands for. -/
def Task.steps (source : String) : Task → List BuildStep
  | .build parentKind c => (c.outline source parentKind).flatMap Outline.steps
  | .close => [.finish]

/-- Opening a node for a construct is opening it and giving it its token. -/
theorem openNode_eq_foldl (c : Concrete) (kind : NodeKind) (token : Option String) (b : Builder) :
    c.openNode kind token b =
      (.start kind c.info.span c.info.position :: token.toList.map BuildStep.token).foldl
        Builder.step b := by
  cases token <;> rfl

/-- The loop drives the builder through the steps of its tasks, in order. -/
theorem buildOn_eq_foldl (source : String) (agenda : List Task) (b : Builder) :
    buildOn source agenda b = (agenda.flatMap (Task.steps source)).foldl Builder.step b := by
  fun_induction buildOn source agenda b with
  | case1 b => rfl
  | case2 b rest ih =>
      rw [ih, List.flatMap_cons, List.foldl_append]
      rfl
  | case3 b parentKind c rest hshape ih =>
      rw [ih, List.flatMap_cons, Task.steps, Concrete.outline_of_skip hshape]
      rfl
  | case4 b parentKind c rest kind token hshape ih =>
      rw [ih, Builder.leaf_eq_foldl, List.flatMap_cons, List.foldl_append, Task.steps,
        Concrete.outline_of_leaf hshape, List.flatMap_singleton, Outline.steps_node]
      rfl
  | case5 b parentKind c rest kind token hshape ih =>
      -- The tasks to build the children and to close the node stand for the steps of the node
      -- that follow its opening.
      have hchildren : (c.children.map (Task.build (some c.info.kind))).flatMap
          (Task.steps source) =
            (c.children.flatMap (Concrete.outline source (some c.info.kind))).flatMap
              Outline.steps := by
        rw [List.flatMap_map, List.flatMap_assoc]
        rfl
      rw [ih, openNode_eq_foldl, ← List.foldl_append, List.flatMap_append, hchildren,
        List.flatMap_cons, List.flatMap_cons, Task.steps, Task.steps,
        Concrete.outline_of_interior hshape, List.flatMap_singleton, Outline.steps_node]
      simp only [List.cons_append, List.append_assoc, List.nil_append]

/-- Conversion builds the steps of the translation. -/
theorem convert_eq_build (root : Concrete) (source : String) :
    convert root source =
      Tree.build source ((root.outline source none).flatMap Outline.steps) := by
  rw [convert, buildOn_eq_foldl, Tree.build, List.flatMap_singleton, Task.steps]

/-! ## Conversion -/

/-- What it means that a concrete tree is converted to its translation. -/
structure Translates (root : Concrete) (source : String) : Prop where
  /-- For want of a node the conversion fails exactly if the root is dropped. -/
  empty : convert root source = .error .empty ↔ shapeOf none root source = .skip
  /-- There is no other way to fail. -/
  failure : ∀ error, convert root source = .error error → error = .empty
  /-- A tree that is yielded has the text of the source, and the outline at its root is what the
  concrete tree contributes. -/
  tree : ∀ t, convert root source = .ok t → t.source = source ∧
    root.outline source none = [t.outline Tree.root]
  /-- Its nodes are numbered in pre-order. -/
  numbered : ∀ t, convert root source = .ok t → t.nodes.toList =
    (t.outline Tree.root).table none Tree.root

/-- A concrete tree contributes nothing if it is dropped and one outline otherwise. -/
theorem outline_eq_singleton (c : Concrete) (source : String) (parentKind : Option String) :
    shapeOf parentKind c source = .skip ∨
      shapeOf parentKind c source ≠ .skip ∧ ∃ o, c.outline source parentKind = [o] := by
  rcases hshape : shapeOf parentKind c source with _ | ⟨kind, token⟩ | ⟨kind, token⟩
  · exact Or.inl rfl
  · exact Or.inr ⟨nofun, _, Concrete.outline_of_leaf hshape⟩
  · exact Or.inr ⟨nofun, _, Concrete.outline_of_interior hshape⟩

/-- Every concrete tree is converted to its translation. -/
theorem convert_translates (root : Concrete) (source : String) : Translates root source := by
  rcases outline_eq_singleton root source none with hskip | ⟨hkept, o, ho⟩
  · have hconvert : convert root source = .error .empty := by
      rw [convert_eq_build, Concrete.outline_of_skip hskip]
      rfl
    exact
      { empty := by simp [hconvert, hskip]
        failure := by simp [hconvert]
        tree := by simp [hconvert]
        numbered := by simp [hconvert] }
  · obtain ⟨t, hbuild, hsource, houtline⟩ := build_steps source o
    have hconvert : convert root source = .ok t := by
      rw [convert_eq_build, ho, List.flatMap_singleton, hbuild]
    exact
      { empty := by simp [hconvert, hkept]
        failure := by simp [hconvert]
        tree := by simp [hconvert, hsource, ho, houtline]
        numbered := fun t' _ => t'.table_outline_root.symm }

end SdkLint.Java
