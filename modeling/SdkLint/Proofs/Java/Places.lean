import SdkLint.Proofs.Java.Origins
import SdkLint.Proofs.Text.Stretches

/-!
# Nodes stand where their text does

A concrete tree whose ranges lie inside the text and whose points are those of the starts is
converted to a tree of which the same holds: the line and column of every node lead to the start of
its range.  The text of a comment is what stands in its range.

Main definitions:

- `Concrete.PlacedIn`: a concrete tree whose constructs are where they say.
- `Node.PlacedIn`: a node that is where it says.

Main results:

- Theorem `placedIn_of_ofRows?`: trees made of rows are where they say.
- Theorem `convert_eq_toTree`: conversion yields the tree of the translation.
- Theorem `parse_of_treeOf?`: the tree of a text can be computed in proofs.
- Theorem `placedIn_of_parse`: the nodes of a syntax tree are where they say.
- Theorem `Node.PlacedIn.offset_eq`: the line and column of a node lead to the start of its range.
-/

namespace SdkLint

/-- The line and column of a point, counted from one. -/
def Text.Point.position (p : Text.Point) : Position :=
  ⟨p.row + 1, p.column + 1⟩

/-- A node is where it says: its range lies inside the text, it has the line and column of its
start, and if it is a comment then its token is the text in its range. -/
structure Node.PlacedIn (source : String) (node : Node) : Prop where
  start_le : node.span.start ≤ source.utf8ByteSize
  stop_le : node.span.stop ≤ source.utf8ByteSize
  position_eq : node.position =
    ((Text.LineIndex.ofText source.toList).locate node.span.start).position
  comment : node.kind = .comment →
    node.token = some (Text.slice source node.span.start node.span.stop)

/-- All nodes of a tree are where they say. -/
def Tree.PlacedIn (source : String) (t : Tree) : Prop :=
  ∀ i < t.size, (t.node i).PlacedIn source

/-- A number that names no node stands for a node at the beginning. -/
theorem Tree.node_of_le {t : Tree} {i : Nat} (hi : t.size ≤ i) :
    t.node i = ⟨.other, ⟨0, 0⟩, ⟨0, 0⟩, none, none⟩ := by
  have hi : ¬ i < t.nodes.size := Nat.not_lt_of_le hi
  simp [node, hi]

/-- Trees with one text and one table are equal. -/
theorem Tree.eq_of_nodes_eq {t t' : Tree} (hsource : t.source = t'.source)
    (hnodes : t.nodes = t'.nodes) : t = t' := by
  obtain ⟨source, nodes, ordered, childTable, rfl⟩ := t
  obtain ⟨source', nodes', ordered', childTable', rfl⟩ := t'
  obtain rfl : source = source' := hsource
  obtain rfl : nodes = nodes' := hnodes
  rfl

/-- The line and column of a node lead to the start of its range. -/
theorem Node.PlacedIn.offset_eq {source : String} {node : Node} (h : node.PlacedIn source) :
    Text.offsetOf source.toList node.position.line node.position.column = node.span.start := by
  rw [h.position_eq]
  exact Text.offsetOf_locate (Text.byteSize_toList source ▸ h.start_le)

namespace Java

/-! ## Concrete trees -/

/-- A construct is where it says: its range lies inside the text, and its point is that of its
start. -/
structure Info.PlacedIn (source : String) (info : Info) : Prop where
  start_le : info.span.start ≤ source.utf8ByteSize
  stop_le : info.span.stop ≤ source.utf8ByteSize
  point_eq : info.point = (Text.LineIndex.ofText source.toList).locate info.span.start

/-- All constructs of a concrete tree are where they say. -/
inductive Concrete.PlacedIn (source : String) : Concrete → Prop
  | node {info : Info} {children : List Concrete} (here : info.PlacedIn source)
      (below : ∀ c ∈ children, c.PlacedIn source) : PlacedIn source (.node info children)

theorem Concrete.PlacedIn.addRow {source : String} {row : Row} {later : List (Nat × Concrete)}
    (hstart : row.start ≤ source.utf8ByteSize) (hstop : row.stop ≤ source.utf8ByteSize)
    (hlater : ∀ entry ∈ later, entry.2.PlacedIn source) :
    ∀ entry ∈ addRow (.ofText source.toList) row later, entry.2.PlacedIn source := by
  rw [Concrete.addRow, List.forall_mem_cons]
  refine ⟨.node ⟨hstart, hstop, rfl⟩ fun c hc => ?_, fun entry hentry => ?_⟩
  · obtain ⟨entry, hentry, rfl⟩ := List.mem_map.1 hc
    exact hlater entry ((List.takeWhile_sublist _).subset hentry)
  · exact hlater entry ((List.dropWhile_sublist _).subset hentry)

/-- A tree made of rows with ranges inside the text is placed. -/
theorem placedIn_of_ofRows? {source : String} {rows : List Concrete.Row} {hasError : Bool}
    {c : Concrete}
    (hrows : ∀ row ∈ rows, row.start ≤ source.utf8ByteSize ∧ row.stop ≤ source.utf8ByteSize)
    (h : Concrete.ofRows? source rows hasError = some c) : c.PlacedIn source := by
  have hall : ∀ entry ∈ rows.foldr (Concrete.addRow (.ofText source.toList)) [],
      entry.2.PlacedIn source := by
    clear h
    induction rows with
    | nil => exact List.forall_mem_nil _
    | cons row rows ih =>
      obtain ⟨⟨hstart, hstop⟩, hrows⟩ := List.forall_mem_cons.1 hrows
      exact .addRow hstart hstop (ih hrows)
  dsimp only [Concrete.ofRows?] at h
  split at h
  · cases h
  · rename_i depth info children rest hfold
    obtain rfl := Option.some.inj h
    have hroot := hall _ (hfold ▸ List.mem_cons_self)
    cases hroot with
    | node here below => exact .node ⟨here.start_le, here.stop_le, here.point_eq⟩ below

/-! ## Conversion -/

/-- A concrete tree that contributes an outline is converted to the tree that has it. -/
theorem convert_eq_toTree {root : Concrete} {source : String} {o : Outline}
    (h : root.outline source none = [o]) : convert root source = .ok (o.toTree source) := by
  obtain ⟨t, hbuild, hsource, houtline⟩ := build_steps source o
  rw [convert_eq_build, h, List.flatMap_singleton, hbuild]
  have hnodes : t.nodes = (o.table none Tree.root).toArray := by
    rw [← houtline, t.table_outline_root]
  exact congrArg Except.ok (Tree.eq_of_nodes_eq hsource hnodes)

mutual

/-- The outlines that a concrete tree contributes, by recursion on its parts, which can be computed
in proofs. -/
def Concrete.outlineOf (source : String) (parentKind : Option String) : Concrete → List Outline
  | .node info children =>
    match shapeOf parentKind (.node info children) source with
    | .skip => []
    | .leaf kind token => [.node kind info.span info.position (some token) []]
    | .interior kind token =>
      [.node kind info.span info.position token
        (Concrete.outlinesOf source (some info.kind) children)]

/-- The outlines that concrete trees side by side contribute. -/
def Concrete.outlinesOf (source : String) (parentKind : Option String) :
    List Concrete → List Outline
  | [] => []
  | c :: rest => c.outlineOf source parentKind ++ Concrete.outlinesOf source parentKind rest

end

mutual

theorem Concrete.outlineOf_eq (source : String) (parentKind : Option String) :
    ∀ c : Concrete, c.outlineOf source parentKind = c.outline source parentKind
  | .node info children => by
    rw [outlineOf]
    cases hshape : shapeOf parentKind (.node info children) source with
    | skip => exact (outline_of_skip hshape).symm
    | leaf kind token => exact (outline_of_leaf hshape).symm
    | interior kind token =>
        rw [outline_of_interior hshape]
        simp only [outlinesOf_eq source (some info.kind) children]
        rfl

theorem Concrete.outlinesOf_eq (source : String) (parentKind : Option String) :
    ∀ cs : List Concrete,
      Concrete.outlinesOf source parentKind cs = cs.flatMap (Concrete.outline source parentKind)
  | [] => rfl
  | c :: rest => by
    rw [outlinesOf, outlineOf_eq source parentKind c, outlinesOf_eq source parentKind rest,
      List.flatMap_cons]

end

/-- The syntax tree of a source text, if there is one, by way of its outline. -/
def treeOf? (root : Concrete) (source : String) : Option Tree :=
  if root.info.hasError then none
  else match root.outlineOf source none with
    | [o] => some (o.toTree source)
    | _ => none

/-- The tree by way of the outline is the one that parsing yields. -/
theorem parse_of_treeOf? {root : Concrete} {source : String} {t : Tree}
    (h : treeOf? root source = some t) : parse root source = .ok t := by
  unfold treeOf? at h
  split at h
  · cases h
  · rename_i hclean
    split at h
    · rename_i o ho
      rw [Concrete.outlineOf_eq] at ho
      rw [parse, if_neg hclean, convert_eq_toTree ho]
      exact congrArg Except.ok (Option.some.inj h)
    · cases h

variable {source : String}

/-- The constructs of a placed tree are placed, at any depth. -/
theorem Concrete.PlacedIn.info {c : Concrete} (h : c.PlacedIn source) :
    ∀ d ∈ c.subtrees, d.info.PlacedIn source := by
  induction h with
  | @node info children here below ih =>
    rw [Concrete.subtrees_eq, List.forall_mem_cons]
    refine ⟨here, fun d hd => ?_⟩
    obtain ⟨child, hchild, hd⟩ := List.mem_flatMap.1 hd
    exact ih child hchild d hd

/-- The nodes of the syntax tree of a placed concrete tree are where they say. -/
theorem placedIn_of_parse {root : Concrete} {t : Tree} (hparse : parse root source = .ok t)
    (hroot : root.PlacedIn source) : t.PlacedIn source := by
  intro i hi
  obtain ⟨c, hc, hmakes⟩ := exists_makes_of_convert (convert_of_parse hparse) hi
  have here := hroot.info c hc
  constructor
  case start_le => exact hmakes.span_eq ▸ here.start_le
  case stop_le => exact hmakes.span_eq ▸ here.stop_le
  case position_eq =>
    rw [hmakes.position_eq, hmakes.span_eq, ← here.point_eq]
    rfl
  case comment =>
    intro hkind
    rw [hmakes.text_of_comment hkind, hmakes.span_eq]
    rfl

end Java

end SdkLint
