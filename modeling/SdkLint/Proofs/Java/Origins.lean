import SdkLint.Proofs.Java.Faults
import SdkLint.Proofs.Java.Translation

/-!
# Where the nodes of a syntax tree come from

Every node of the tree that conversion yields is made from one construct of the concrete tree: it has
the range and the place of the construct, and the kind and the token of its shape.  So what a grammar
guarantees about constructs of a sort holds of the nodes that are made from them.

Main definitions:

- `Shape.Yields`: the kind and the token of a shape.
- `Concrete.Makes`: a construct that a node is made from.

Main results:

- Theorem `convert_cases`: what conversion yields.
- Theorem `exists_makes_of_convert`: every node is made from a construct.
- Theorem `Concrete.Makes.text_of_ident`, `Concrete.Makes.fieldText_of_fieldAccess`: where the tokens
  of names come from.
-/

namespace SdkLint

/-- A node of tables side by side belongs to one of the outlines. -/
theorem Outline.exists_of_mem_tables {parent next : NodeId} {outlines : List Outline} {node : Node}
    (h : node ∈ tables parent next outlines) :
    ∃ o ∈ outlines, ∃ first, node ∈ o.table (some parent) first := by
  induction outlines generalizing next with
  | nil => cases h
  | cons o rest ih =>
    rw [tables, List.mem_append] at h
    rcases h with h | h
    · exact ⟨o, List.mem_cons_self, next, h⟩
    · obtain ⟨o', ho', hnode⟩ := ih h
      exact ⟨o', List.mem_cons_of_mem o ho', hnode⟩

namespace Java

/-! ## Shapes and nodes -/

/-- The kind and the token of the node that a shape contributes. -/
inductive Shape.Yields : Shape → NodeKind → Option String → Prop
  | leaf (kind : NodeKind) (token : String) : Yields (.leaf kind token) kind (some token)
  | interior (kind : NodeKind) (token : Option String) : Yields (.interior kind token) kind token

/-- A construct makes a node: the node has its range, its place and what its shape contributes. -/
structure Concrete.Makes (source : String) (c : Concrete) (node : Node) : Prop where
  shape : ∃ parentKind, (shapeOf parentKind c source).Yields node.kind node.token
  span_eq : node.span = c.info.span
  position_eq : node.position = c.info.position

/-! ## From constructs to nodes -/

/-- Induction on concrete trees, from children to parents. -/
theorem Concrete.induction {P : Concrete → Prop}
    (step : ∀ c : Concrete, (∀ child ∈ c.children, P child) → P c) : ∀ c, P c
  | .node info children =>
    step (.node info children) fun child (hchild : child ∈ children) =>
      have hsize : sizeOf child < sizeOf (Concrete.node info children) :=
        Nat.lt_of_lt_of_le (List.sizeOf_lt_of_mem hchild) (by simp)
      Concrete.induction step child
termination_by c => sizeOf c
decreasing_by exact hsize

variable {source : String}

/-- Every node of what a concrete tree contributes is made from a construct of it. -/
theorem Concrete.exists_makes (c : Concrete) :
    ∀ parentKind, ∀ o ∈ c.outline source parentKind, ∀ parent first,
      ∀ node ∈ o.table parent first, ∃ d ∈ c.subtrees, d.Makes source node := by
  induction c using Concrete.induction with
  | step c ih =>
    intro parentKind o ho parent first node hnode
    rcases hshape : shapeOf parentKind c source with _ | ⟨kind, token⟩ | ⟨kind, token⟩
    · rw [outline_of_skip hshape] at ho
      cases ho
    · rw [outline_of_leaf hshape, List.mem_singleton] at ho
      subst ho
      obtain rfl := List.mem_singleton.1 hnode
      exact ⟨c, c.mem_subtrees_self, ⟨parentKind, hshape ▸ .leaf kind token⟩, rfl, rfl⟩
    · rw [outline_of_interior hshape, List.mem_singleton] at ho
      subst ho
      rcases List.mem_cons.1 hnode with rfl | hnode
      · exact ⟨c, c.mem_subtrees_self, ⟨parentKind, hshape ▸ .interior kind token⟩, rfl, rfl⟩
      · obtain ⟨o, ho, first', hnode⟩ := Outline.exists_of_mem_tables hnode
        obtain ⟨child, hchild, ho⟩ := List.mem_flatMap.1 ho
        obtain ⟨d, hd, hmakes⟩ := ih child hchild _ o ho _ first' node hnode
        exact ⟨d, mem_subtrees_of_mem_children hchild hd, hmakes⟩

/-- Conversion yields the tree that the concrete tree contributes, or nothing for a root that is
dropped. -/
theorem convert_cases (root : Concrete) (source : String) :
    (convert root source = .error .empty ∧ shapeOf none root source = .skip) ∨
      ∃ t, convert root source = .ok t ∧ root.outline source none = [t.outline Tree.root] := by
  rcases outline_eq_singleton root source none with hskip | ⟨-, o, ho⟩
  · refine .inl ⟨?_, hskip⟩
    rw [convert_eq_build, Concrete.outline_of_skip hskip]
    rfl
  · obtain ⟨t, hbuild, -, houtline⟩ := build_steps source o
    refine .inr ⟨t, ?_, houtline ▸ ho⟩
    rw [convert_eq_build, ho, List.flatMap_singleton, hbuild]

/-- Every node of the tree that conversion yields is made from a construct. -/
theorem exists_makes_of_convert {root : Concrete} {t : Tree} (h : convert root source = .ok t)
    {i : Nat} (hi : i < t.size) : ∃ c ∈ root.subtrees, c.Makes source (t.node i) := by
  rcases convert_cases root source with ⟨hempty, -⟩ | ⟨t', hconvert, houtline⟩
  · rw [hempty] at h
    cases h
  · obtain rfl : t' = t := Except.ok.inj (hconvert.symm.trans h)
    have hmem : t'.node i ∈ (t'.outline Tree.root).table none Tree.root := by
      have hlength : i < t'.nodes.size := hi
      simp [t'.table_outline_root, Tree.node, hlength]
    exact root.exists_makes none _ (houtline ▸ List.mem_singleton_self _) none Tree.root _ hmem

/-- A text that parses has the tree that conversion yields. -/
theorem convert_of_parse {root : Concrete} {t : Tree} (h : parse root source = .ok t) :
    convert root source = .ok t := by
  unfold parse at h
  split at h
  · cases h
  · split at h
    · rename_i hconvert
      obtain rfl := Except.ok.inj h
      exact hconvert
    · cases h

/-! ## Kinds and tokens -/

/-- The kinds of nodes whose token, if there is one, is no name that they declare or read. -/
def furtherKinds : List NodeKind :=
  [.importDecl, .annotationUse, .assign, .update, .methodCall, .modifier, .other]

/-- What a construct contributes is one of the leaves with the text of the construct, one of the
constructs without a token, a field access with the name of the field, or of a further kind. -/
theorem yields_cases {parentKind : Option String} {c : Concrete} {kind : NodeKind}
    {token : Option String} (h : (shapeOf parentKind c source).Yields kind token) :
    ((c.info.kind, kind) ∈ leafKinds ∧ token = some (c.info.text source)) ∨
      ((c.info.kind, kind) ∈ plainKinds ∧ token = none) ∨
      (c.info.kind = "field_access" ∧ kind = .fieldAccess ∧ token = c.fieldText "field" source) ∨
      kind ∈ furtherKinds := by
  have hlookup {kinds : List (String × NodeKind)} {kind : NodeKind}
      (h : kinds.lookup c.info.kind = some kind) : (c.info.kind, kind) ∈ kinds := by
    obtain ⟨earlier, later, hkinds, -⟩ := List.lookup_eq_some_iff.1 h
    simp [hkinds]
  unfold shapeOf anonymousShape at h
  split at h
  · -- A construct.
    unfold namedShape at h
    split at h
    case h_7 hkind =>
      cases h
      exact .inr (.inr (.inl ⟨hkind, rfl, rfl⟩))
    case h_8 =>
      split at h
      · rename_i hplain
        cases h
        exact .inr (.inl ⟨hlookup hplain, rfl⟩)
      · rename_i hleaf
        cases h
        exact .inl ⟨hlookup hleaf, rfl⟩
      · cases h
        exact .inr (.inr (.inr (by decide)))
    all_goals
      cases h
      exact .inr (.inr (.inr (by decide)))
  · -- A keyword.
    split at h
    · cases h
      exact .inr (.inr (.inr (by decide)))
    · cases h

/-- The constructs that are a name have it as their text. -/
theorem leafKinds_name : ∀ entry ∈ leafKinds,
    (entry.2 = .ident → entry.1 = "identifier") ∧ entry.2 ≠ .fieldAccess := by
  decide

theorem plainKinds_ne : ∀ entry ∈ plainKinds,
    entry.2 ≠ .ident ∧ entry.2 ≠ .fieldAccess ∧ entry.2 ≠ .comment := by
  decide

namespace Concrete.Makes

variable {c : Concrete} {node : Node}

/-- What becomes an identifier is one, and its text is the token. -/
theorem text_of_ident (h : c.Makes source node) (hkind : node.kind = .ident) :
    c.info.kind = "identifier" ∧ node.token = some (c.info.text source) := by
  obtain ⟨parentKind, hyields⟩ := h.shape
  rw [hkind] at hyields
  rcases yields_cases hyields with ⟨hleaf, htoken⟩ | ⟨hplain, -⟩ | ⟨-, hne, -⟩ | hfurther
  · exact ⟨(leafKinds_name _ hleaf).1 rfl, htoken⟩
  · exact absurd rfl (plainKinds_ne _ hplain).1
  · cases hne
  · exact absurd hfurther (by decide)

/-- What becomes a field access is one, and the token is the name of its field. -/
theorem fieldText_of_fieldAccess (h : c.Makes source node) (hkind : node.kind = .fieldAccess) :
    c.info.kind = "field_access" ∧ node.token = c.fieldText "field" source := by
  obtain ⟨parentKind, hyields⟩ := h.shape
  rw [hkind] at hyields
  rcases yields_cases hyields with ⟨hleaf, -⟩ | ⟨hplain, -⟩ | ⟨haccess, -, htoken⟩ | hfurther
  · exact absurd rfl (leafKinds_name _ hleaf).2
  · exact absurd rfl (plainKinds_ne _ hplain).2.1
  · exact ⟨haccess, htoken⟩
  · exact absurd hfurther (by decide)

/-- A comment has its text as token. -/
theorem text_of_comment (h : c.Makes source node) (hkind : node.kind = .comment) :
    node.token = some (c.info.text source) := by
  obtain ⟨parentKind, hyields⟩ := h.shape
  rw [hkind] at hyields
  rcases yields_cases hyields with ⟨-, htoken⟩ | ⟨hplain, -⟩ | ⟨-, hne, -⟩ | hfurther
  · exact htoken
  · exact absurd rfl (plainKinds_ne _ hplain).2.2
  · cases hne
  · exact absurd hfurther (by decide)

end Concrete.Makes

end Java

end SdkLint
