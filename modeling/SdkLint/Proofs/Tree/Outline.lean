import SdkLint.Proofs.Tree.Order
import SdkLint.Tree.Builder

/-!
# Outlines of trees

An outline is a syntax tree written down as a tree: a node with the outlines of its children.  It
has no numbers; the table of an outline numbers its nodes in pre-order and names their parents.  An
outline can be read off from every node of a syntax tree, and it says all about the part of the tree
that hangs from the node.

Main definitions:

- `Outline`: a node with the outlines of its children.
- `Outline.table`: the nodes of an outline in pre-order, each with the number of its parent.
- `Tree.outline`: the outline of the part of a tree that hangs from a node.

Main results:

- Theorem `Tree.table_outline`: the table of the outline of a tree is the table of the tree.
- Theorem `Outline.table_injective`: outlines with one table are equal.
- Theorem `Tree.outline_eq_of_table`: a tree with the table of an outline has this outline.
-/

namespace SdkLint

/-- A syntax tree written down as a tree. -/
inductive Outline where
  | node (kind : NodeKind) (span : Span) (position : Position) (token : Option String)
      (below : List Outline)

namespace Outline

/-- A node of which only the kind, the text and the nodes below matter. -/
def sketch (kind : NodeKind) (token : Option String) (below : List Outline) : Outline :=
  .node kind ⟨0, 0⟩ ⟨1, 1⟩ token below

/-- An identifier. -/
def sketchName (text : String) : Outline :=
  sketch .ident (some text) []

/-! ## Tables -/

mutual

/-- The nodes of an outline in pre-order, numbered from `first` on, the topmost with a given
parent. -/
def table (parent : Option NodeId) (first : NodeId) : Outline → List Node
  | .node kind span position token below =>
    ⟨kind, position, span, token, parent⟩ :: tables first (first + 1) below

/-- The nodes of outlines that stand side by side below a parent, numbered from `next` on. -/
def tables (parent next : NodeId) : List Outline → List Node
  | [] => []
  | o :: rest =>
    o.table (some parent) next ++
      tables parent (next + (o.table (some parent) next).length) rest

end

/-- Whether some nodes, if there are any, begin with one that hangs from a node before `first`. -/
def Outside (first : NodeId) (nodes : List Node) : Prop :=
  ∀ node ∈ nodes.head?, ∀ p, node.parent = some p → p < first

/-- What follows on an outline begins with a node that hangs from the same parent or from one
before it. -/
theorem outside_tables_append {parent next first : NodeId} {outlines : List Outline}
    {rest : List Node} (hparent : parent < first) (hrest : Outside parent rest) :
    Outside first (tables parent next outlines ++ rest) := by
  cases outlines with
  | nil =>
      intro node hnode p hp
      rw [tables, List.nil_append] at hnode
      exact Nat.lt_trans (hrest node hnode p hp) hparent
  | cons o outlines =>
      obtain ⟨kind, span, position, token, below⟩ := o
      intro node hnode p hp
      obtain rfl : _ = node := by simpa [tables, table] using hnode
      obtain rfl : parent = p := by simpa using hp
      exact hparent

mutual

/-- A table can be read in one way only, even if something else follows it. -/
theorem table_append_inj (parent : Option NodeId) (first : NodeId) :
    ∀ (o o' : Outline) (rest rest' : List Node), Outside first rest → Outside first rest' →
      o.table parent first ++ rest = o'.table parent first ++ rest' → o = o' ∧ rest = rest'
  | .node kind span position token below, .node kind' span' position' token' below',
      rest, rest', hrest, hrest', h => by
    simp only [table, List.cons_append, List.cons.injEq, Node.mk.injEq] at h
    obtain ⟨⟨rfl, rfl, rfl, rfl, -⟩, h⟩ := h
    obtain ⟨rfl, rfl⟩ := tables_append_inj first (first + 1) (Nat.lt_succ_self _) below below'
      rest rest' hrest hrest' h
    exact ⟨rfl, rfl⟩

/-- Tables side by side can be read in one way only. -/
theorem tables_append_inj (parent next : NodeId) (hnext : parent < next) :
    ∀ (os os' : List Outline) (rest rest' : List Node), Outside parent rest →
      Outside parent rest' → tables parent next os ++ rest = tables parent next os' ++ rest' →
      os = os' ∧ rest = rest'
  | [], [], rest, rest', _, _, h => ⟨rfl, h⟩
  | [], .node kind span position token below :: os', rest, rest', hrest, _, h => by
    -- The next node would hang from the parent and not from it.
    rw [tables, List.nil_append] at h
    exact absurd (hrest _ (by rw [h]; rfl) parent rfl) (Nat.lt_irrefl _)
  | .node kind span position token below :: os, [], rest, rest', _, hrest', h => by
    rw [tables, List.nil_append] at h
    exact absurd (hrest' _ (by rw [← h]; rfl) parent rfl) (Nat.lt_irrefl _)
  | o :: os, o' :: os', rest, rest', hrest, hrest', h => by
    rw [tables, tables, List.append_assoc, List.append_assoc] at h
    obtain ⟨rfl, h⟩ := table_append_inj (some parent) next o o' _ _
      (outside_tables_append hnext hrest) (outside_tables_append hnext hrest') h
    have hlength : next < next + (o.table (some parent) next).length := by
      cases o
      simp [table]
    obtain ⟨rfl, rfl⟩ := tables_append_inj parent _ (Nat.lt_trans hnext hlength) os os' rest rest'
      hrest hrest' h
    exact ⟨rfl, rfl⟩

end

/-- Outlines with one table are equal. -/
theorem table_injective {parent : Option NodeId} {first : NodeId} {o o' : Outline}
    (h : o.table parent first = o'.table parent first) : o = o' := by
  refine (table_append_inj parent first o o' [] [] ?_ ?_ (by simpa using h)).1
  · simp [Outside]
  · simp [Outside]

end Outline

namespace Tree

variable {t : Tree}

/-! ## Reading outlines off -/

/-- The outline of the part of a tree that hangs from a node. -/
def outline (t : Tree) (i : NodeId) : Outline :=
  .node (t.kind i) (t.span i) (t.position i) (t.token i)
    ((t.children i).attach.map fun ⟨c, _h⟩ => t.outline c)
termination_by t.size - i
decreasing_by
  have := t.lt_of_mem_children _h
  have := t.lt_size_of_mem_children _h
  omega

theorem outline_eq (t : Tree) (i : Nat) :
    t.outline i =
      .node (t.kind i) (t.span i) (t.position i) (t.token i) ((t.children i).map t.outline) := by
  rw [outline]
  simp

/-- The record of a node names its parent. -/
theorem node_eq {i : Nat} (hi : i < t.size) :
    t.node i = ⟨t.kind i, t.position i, t.span i, t.token i, t.parent i⟩ := by
  have hparent : (t.node i).parent = t.parent i := by
    have hget : t.nodes[i]? = some t.nodes[i] := Array.getElem?_eq_getElem hi
    rw [node, Array.getD_eq_getD_getElem?, parent, parentIn, hget]
    rfl
  rw [← hparent]
  rfl

/-- The table of the outline of a node lists its subtree. -/
theorem table_outline {i : Nat} (hi : i < t.size) :
    (t.outline i).table (t.parent i) i = (t.subtree i).map t.node := by
  induction i using t.childInduction with
  | node i ih =>
      -- The children are listed one after the other, each from its own number on.
      have hchildren : ∀ (cs : List Nat) (next : Nat), (∀ c ∈ cs, c ∈ t.children i) →
          cs.flatMap t.subtree = List.range' next (cs.flatMap t.subtree).length →
          Outline.tables i next (cs.map t.outline) = (cs.flatMap t.subtree).map t.node := by
        intro cs
        induction cs with
        | nil => exact fun _ _ _ => rfl
        | cons c cs ihcs =>
            intro next hcs hrange
            have hc : c ∈ t.children i := hcs c (by simp)
            rw [List.flatMap_cons, List.length_append, ← List.range'_append_1] at hrange
            obtain ⟨hfirst, hrest⟩ := List.append_inj hrange (by simp)
            have hnext : next = c := by
              rw [t.subtree_eq c, List.length_cons, List.range'_succ] at hfirst
              exact (List.cons.inj hfirst).1.symm
            have htable : (t.outline c).table (some i) next = (t.subtree c).map t.node := by
              rw [hnext, ← t.mem_children.1 hc]
              exact ih c hc (t.lt_size_of_mem_children hc)
            rw [List.map_cons, Outline.tables, htable, List.flatMap_cons, List.map_append,
              List.length_map]
            exact congrArg _ (ihcs _ (fun d hd => hcs d (by simp [hd])) hrest)
      rw [outline_eq, Outline.table, ← node_eq hi, hchildren _ _ fun c hc => hc]
      · rw [← List.map_cons, ← subtree_eq]
      · have hrange := t.subtree_eq_range' i
        rw [t.subtree_eq i, List.length_cons, List.range'_succ] at hrange
        exact (List.cons.inj hrange).2

/-- The table of the outline of a whole tree is the table of the tree. -/
theorem table_outline_root (t : Tree) : (t.outline root).table none root = t.nodes.toList := by
  have htable := table_outline (t := t) (i := root) t.ordered.size_pos
  rw [show t.parent root = none from t.ordered.root, subtree_root] at htable
  rw [htable]
  refine List.ext_getElem (by simp [size]) fun i hi hi' => ?_
  have hlt : i < t.nodes.size := by simpa using hi'
  simp [node, hlt]

/-- A tree with the table of an outline has this outline. -/
theorem outline_eq_of_table {o : Outline} (h : t.nodes.toList = o.table none root) :
    t.outline root = o :=
  Outline.table_injective (t.table_outline_root.trans h)

end Tree

end SdkLint
