import SdkLint.Tree.Basic

/-!
# Building trees

A tree is built by a sequence of steps that open nodes, give the innermost open node its token and
close it.  Nodes are numbered as they are opened, and every node becomes the last child of the
innermost open one, so that the table is in pre-order whatever the steps are (`OpenTable.push`).
Steps that need an open node and find none do nothing.  A node that is opened when nothing is open
is the root if it is the first one; otherwise the steps describe no tree, but they are followed to
the end.

Main definitions:

- `BuildStep`: the steps.
- `Builder`: the nodes so far, their children and the open ones, together with the facts that keep
  the table in pre-order.
- `Builder.finish`: the tree, unless there is no node, a node is still open or a second root was
  opened.
- `Tree.build`: the tree that a sequence of steps describes.
-/

namespace SdkLint

/-- Why a sequence of steps describes no tree. -/
inductive BuildError where
  /-- No node was ever opened. -/
  | empty
  /-- Some nodes were never closed. -/
  | unbalanced (openNodes : Nat)
  /-- A node was opened after the root had been closed. -/
  | multipleRoots
deriving DecidableEq, Repr

/-- What a build error says to the user. -/
def BuildError.message : BuildError → String
  | .empty => "syntax tree has no root node"
  | .unbalanced n => toString n ++ " node(s) were never finished"
  | .multipleRoots => "syntax tree can only have a single root"

/-- One step of building a tree. -/
inductive BuildStep where
  /-- Opens a node below the innermost open one. -/
  | start (kind : NodeKind) (span : Span) (position : Position)
  /-- Sets the token of the innermost open node. -/
  | token (text : String)
  /-- Closes the innermost open node. -/
  | finish
deriving DecidableEq, Repr

/-- The steps that add a childless node with a token. -/
def BuildStep.leaf (kind : NodeKind) (text : String) (span : Span) (position : Position) :
    List BuildStep :=
  [.start kind span position, .token text, .finish]

/-- A table with the nodes that are still open, innermost first: each of them is an ancestor of those
before it, and of the last node of the table.  Parents come before their children.  With a single
root the table is in pre-order unless it is empty. -/
structure OpenTable (nodes : Array Node) (opened : List NodeId) (secondRoot : Bool) : Prop where
  ordered : secondRoot = false → nodes.size ≠ 0 → PreOrdered nodes
  parent_lt : ∀ i p, parentIn nodes i = some p → p < i
  opened_lt : ∀ p ∈ opened, p < nodes.size
  chain : ((nodes.size - 1) :: opened).Pairwise (Reaches (parentIn nodes))

/-! ## Tables that grow -/

theorem parentIn_push_of_lt {nodes : Array Node} {node : Node} {i : Nat}
    (hi : i < nodes.size) : parentIn (nodes.push node) i = parentIn nodes i := by
  simp [parentIn, Array.getElem?_push, Nat.ne_of_lt hi]

theorem parentIn_push_size {nodes : Array Node} {node : Node} :
    parentIn (nodes.push node) nodes.size = node.parent := by
  simp [parentIn]

theorem Reaches.push {nodes : Array Node} (node : Node) {i a : Nat}
    (h : Reaches (parentIn nodes) i a) : Reaches (parentIn (nodes.push node)) i a := by
  induction h with
  | refl i => exact .refl i
  | step hp _ ih =>
    exact .step ((parentIn_push_of_lt (lt_size_of_parentIn hp)).trans hp) ih

theorem parentIn_modify_token {nodes : Array Node} {k : Nat} {text : String} :
    parentIn (nodes.modify k fun n => { n with token := some text }) = parentIn nodes := by
  funext i
  simp only [parentIn, Array.getElem?_modify]
  split
  · cases nodes[i]? <;> rfl
  · rfl

theorem PreOrdered.push_child {nodes : Array Node} (ordered : PreOrdered nodes) {node : Node}
    {p : Nat} (hp : node.parent = some p) (hr : Reaches (parentIn nodes) (nodes.size - 1) p) :
    PreOrdered (nodes.push node) := by
  have hpos := ordered.size_pos
  refine ⟨by simp, ?_, ?_⟩
  · rw [parentIn_push_of_lt hpos, ordered.root]
  · intro i hi
    simp only [Array.size_push] at hi
    by_cases hlast : i + 1 = nodes.size
    · refine ⟨p, ?_, ?_⟩
      · rw [hlast, parentIn_push_size, hp]
      · have : i = nodes.size - 1 := by omega
        exact this ▸ hr.push node
    · obtain ⟨q, hq, hreach⟩ := ordered.next i (by omega)
      exact ⟨q, by rw [parentIn_push_of_lt (by omega), hq], hreach.push node⟩

theorem PreOrdered.push_root {nodes : Array Node} (hsize : nodes.size = 0) {node : Node}
    (hp : node.parent = none) : PreOrdered (nodes.push node) := by
  have hroot : parentIn (nodes.push node) nodes.size = none := parentIn_push_size.trans hp
  refine ⟨by simp, by simpa [hsize] using hroot, ?_⟩
  intro i hi
  simp [hsize] at hi

/-- A table of children grows with the table of nodes: a new node has no children and becomes the
last child of its parent. -/
theorem childLists_push {nodes : Array Node} {node : Node}
    (hbefore : ∀ i p, parentIn nodes i = some p → p < i)
    (hparent : ∀ p, node.parent = some p → p < nodes.size) :
    childLists (nodes.push node) =
      (match node.parent with
        | some p => (childLists nodes).modify p (· ++ [nodes.size])
        | none => childLists nodes).push [] := by
  have hold : ∀ q, ((List.range nodes.size).filter fun i =>
      parentIn (nodes.push node) i == some q) =
        (List.range nodes.size).filter fun i => parentIn nodes i == some q := by
    intro q
    refine List.filter_congr fun i hi => ?_
    rw [parentIn_push_of_lt (List.mem_range.1 hi)]
  have hsize : (match node.parent with
      | some p => (childLists nodes).modify p (· ++ [nodes.size])
      | none => childLists nodes).size = nodes.size := by
    split <;> simp
  refine Array.ext_getElem? fun q => ?_
  rw [Array.getElem?_push, hsize]
  rcases Nat.lt_trichotomy q nodes.size with hq | rfl | hq
  · rw [getElem?_childLists (by simpa using Nat.lt_succ_of_lt hq), if_neg (Nat.ne_of_lt hq),
      Array.size_push, List.range_succ, List.filter_append, hold]
    cases hp : node.parent with
    | none =>
      rw [getElem?_childLists hq]
      simp [parentIn_push_size, hp]
    | some p =>
      rw [Array.getElem?_modify, getElem?_childLists hq]
      by_cases hpq : p = q
      · simp [parentIn_push_size, hp, hpq]
      · simp [parentIn_push_size, hp, hpq]
  · -- No node names the new one as its parent.
    rw [getElem?_childLists (by simp), if_pos rfl, Array.size_push, List.range_succ,
      List.filter_append, hold]
    have hnone : ((List.range nodes.size).filter fun i =>
        parentIn nodes i == some nodes.size) = [] := by
      refine List.filter_eq_nil_iff.2 fun i hi heq => ?_
      have hlt : nodes.size < i := hbefore i nodes.size (by simpa using heq)
      exact Nat.lt_asymm hlt (List.mem_range.1 hi)
    have hself : node.parent ≠ some nodes.size := fun h => Nat.lt_irrefl _ (hparent _ h)
    simp [hnone, parentIn_push_size, hself]
  · rw [if_neg (Nat.ne_of_gt hq),
      Array.getElem?_eq_none (by simpa using Nat.succ_le_of_lt hq),
      Array.getElem?_eq_none (by rw [hsize]; exact Nat.le_of_lt hq)]

/-- Tables of one size that name the same parents have the same children. -/
theorem childLists_congr {nodes nodes' : Array Node} (hsize : nodes.size = nodes'.size)
    (hparents : parentIn nodes = parentIn nodes') : childLists nodes = childLists nodes' := by
  rw [childLists, childLists, hsize, hparents]

namespace OpenTable

variable {nodes : Array Node} {opened : List NodeId} {secondRoot : Bool}

/-- A new node becomes a child of the innermost open one.  With nothing open it is the root, or else
a second one. -/
theorem push (valid : OpenTable nodes opened secondRoot) {node : Node}
    (hp : node.parent = opened.head?) :
    OpenTable (nodes.push node) (nodes.size :: opened)
      (secondRoot || opened.isEmpty && nodes.size != 0) := by
  obtain ⟨hlast, hchain⟩ := List.pairwise_cons.1 valid.chain
  -- Going up from the new node one comes through the innermost open one to all of them.
  have hself : ∀ q ∈ opened, Reaches (parentIn (nodes.push node)) nodes.size q := by
    intro q hq
    cases opened with
    | nil => cases hq
    | cons p rest =>
      refine .step (parentIn_push_size.trans hp) ?_
      rcases List.mem_cons.1 hq with rfl | hq
      · exact .refl _
      · exact ((List.pairwise_cons.1 hchain).1 q hq).push node
  refine ⟨?_, ?_, ?_, ?_⟩
  · intro hsecond _
    rw [Bool.or_eq_false_iff] at hsecond
    cases opened with
    | nil => exact .push_root (by simpa using hsecond.2) hp
    | cons p rest =>
      have hpos : nodes.size ≠ 0 := Nat.ne_zero_of_lt (valid.opened_lt p (by simp))
      exact (valid.ordered hsecond.1 hpos).push_child hp (hlast p (by simp))
  · intro i p hparent
    have hi := lt_size_of_parentIn hparent
    rw [Array.size_push] at hi
    by_cases hnew : i = nodes.size
    · rw [hnew, parentIn_push_size, hp] at hparent
      exact hnew ▸ valid.opened_lt p (List.mem_of_mem_head? hparent)
    · have hold : i < nodes.size := Nat.lt_of_le_of_ne (Nat.le_of_lt_succ hi) hnew
      rw [parentIn_push_of_lt hold] at hparent
      exact valid.parent_lt i p hparent
  · intro p hmem
    rw [Array.size_push]
    rcases List.mem_cons.1 hmem with rfl | hmem
    · exact Nat.lt_succ_self _
    · exact Nat.lt_succ_of_lt (valid.opened_lt p hmem)
  · rw [Array.size_push, Nat.add_sub_cancel]
    refine List.pairwise_cons.2 ⟨?_, List.pairwise_cons.2 ⟨hself, hchain.imp fun h => h.push node⟩⟩
    intro q hq
    rcases List.mem_cons.1 hq with rfl | hq
    · exact .refl _
    · exact hself q hq

theorem set_token (valid : OpenTable nodes opened secondRoot) (k : Nat) (text : String) :
    OpenTable (nodes.modify k fun n => { n with token := some text }) opened secondRoot := by
  refine ⟨fun hsecond hsize => ?_, ?_, ?_, ?_⟩
  · have ordered := valid.ordered hsecond (by simpa using hsize)
    refine ⟨by simpa using ordered.size_pos, ?_, ?_⟩
    · rw [parentIn_modify_token, ordered.root]
    · intro i hi
      rw [parentIn_modify_token]
      exact ordered.next i (by simpa using hi)
  · rw [parentIn_modify_token]
    exact valid.parent_lt
  · simpa using valid.opened_lt
  · rw [parentIn_modify_token]
    simpa using valid.chain

theorem close (valid : OpenTable nodes opened secondRoot) :
    OpenTable nodes opened.tail secondRoot :=
  ⟨valid.ordered, valid.parent_lt, fun p hp => valid.opened_lt p (List.mem_of_mem_tail hp),
    valid.chain.sublist (.cons_cons _ opened.tail_sublist)⟩

end OpenTable

/-! ## The builder -/

/-- The nodes built so far and the open ones. -/
structure Builder where
  nodes : Array Node := #[]
  /-- The children of every node so far, the last one first. -/
  childTable : Array (List NodeId) := #[]
  /-- The open nodes, innermost first. -/
  opened : List NodeId := []
  /-- Whether a node was opened with nothing open after the first one. -/
  secondRoot : Bool := false
  valid : OpenTable nodes opened secondRoot := by
    exact ⟨by simp, by simp [parentIn], by simp, by simp⟩
  childTable_eq : childTable.map List.reverse = childLists nodes := by
    exact Array.ext (by simp) (by simp)

namespace Builder

/-- A builder with no nodes. -/
def new : Builder :=
  {}

/-- The table of children with a new node as the last child of a node. -/
def withChild (b : Builder) : Option NodeId → Array (List NodeId)
  | some p => (b.childTable.modify p (b.nodes.size :: ·)).push []
  | none => b.childTable.push []

theorem withChild_eq (b : Builder) {node : Node} (hp : node.parent = b.opened.head?) :
    (b.withChild b.opened.head?).map List.reverse = childLists (b.nodes.push node) := by
  rw [childLists_push b.valid.parent_lt fun p h =>
    b.valid.opened_lt p (List.mem_of_mem_head? (hp ▸ h)), hp, ← b.childTable_eq]
  cases b.opened.head? with
  | none => simp [withChild]
  | some p =>
    refine Array.ext_getElem? fun q => ?_
    simp only [withChild, Array.map_push, List.reverse_nil, Array.getElem?_push, Array.size_map,
      Array.size_modify, Array.getElem?_map, Array.getElem?_modify]
    split
    · rfl
    · split <;> cases b.childTable[q]? <;> simp

/-- Opens a node as the last child of the innermost open one. -/
def start (b : Builder) (kind : NodeKind) (span : Span) (position : Position) : Builder where
  nodes := b.nodes.push ⟨kind, position, span, none, b.opened.head?⟩
  childTable := b.withChild b.opened.head?
  opened := b.nodes.size :: b.opened
  secondRoot := b.secondRoot || b.opened.isEmpty && b.nodes.size != 0
  valid := b.valid.push rfl
  childTable_eq := b.withChild_eq rfl

@[simp]
theorem start_nodes (b : Builder) (kind : NodeKind) (span : Span) (position : Position) :
    (b.start kind span position).nodes =
      b.nodes.push ⟨kind, position, span, none, b.opened.head?⟩ :=
  rfl

@[simp]
theorem start_opened (b : Builder) (kind : NodeKind) (span : Span) (position : Position) :
    (b.start kind span position).opened = b.nodes.size :: b.opened :=
  rfl

@[simp]
theorem start_secondRoot (b : Builder) (kind : NodeKind) (span : Span) (position : Position) :
    (b.start kind span position).secondRoot =
      (b.secondRoot || b.opened.isEmpty && b.nodes.size != 0) :=
  rfl

/-- Sets the token of the innermost open node. -/
def token (b : Builder) (text : String) : Builder :=
  match b.opened with
  | [] => b
  | k :: _ =>
    { b with
      nodes := b.nodes.modify k fun n => { n with token := some text }
      valid := b.valid.set_token k text
      childTable_eq := b.childTable_eq.trans
        (childLists_congr Array.size_modify.symm parentIn_modify_token.symm) }

theorem token_nodes {b : Builder} {k : NodeId} {rest : List NodeId} (h : b.opened = k :: rest)
    (text : String) :
    (b.token text).nodes = b.nodes.modify k fun n => { n with token := some text } := by
  simp [token, h]

theorem token_of_none {b : Builder} (h : b.opened = []) (text : String) : b.token text = b := by
  simp [token, h]

@[simp]
theorem token_opened (b : Builder) (text : String) : (b.token text).opened = b.opened := by
  unfold token
  split <;> simp_all

@[simp]
theorem token_secondRoot (b : Builder) (text : String) :
    (b.token text).secondRoot = b.secondRoot := by
  unfold token
  split <;> rfl

/-- Closes the innermost open node. -/
def close (b : Builder) : Builder :=
  { b with opened := b.opened.tail, valid := b.valid.close }

@[simp]
theorem close_nodes (b : Builder) : b.close.nodes = b.nodes :=
  rfl

@[simp]
theorem close_opened (b : Builder) : b.close.opened = b.opened.tail :=
  rfl

@[simp]
theorem close_secondRoot (b : Builder) : b.close.secondRoot = b.secondRoot :=
  rfl

/-- Adds a childless node with a token. -/
def leaf (b : Builder) (kind : NodeKind) (text : String) (span : Span) (position : Position) :
    Builder :=
  ((b.start kind span position).token text).close

/-- Follows one step. -/
def step (b : Builder) : BuildStep → Builder
  | .start kind span position => b.start kind span position
  | .token text => b.token text
  | .finish => b.close

/-- Adding a childless node is following the steps that add it. -/
theorem leaf_eq_foldl (b : Builder) (kind : NodeKind) (text : String) (span : Span)
    (position : Position) :
    b.leaf kind text span position = (BuildStep.leaf kind text span position).foldl step b :=
  rfl

/-- The tree over `source` that has been built. -/
def finish (b : Builder) (source : String) : Except BuildError Tree :=
  if hsecond : b.secondRoot then .error .multipleRoots
  else if hsize : b.nodes.size = 0 then .error .empty
  else if b.opened.isEmpty then
    .ok
      { source
        nodes := b.nodes
        ordered := b.valid.ordered (Bool.eq_false_iff.2 hsecond) hsize
        childTable := b.childTable.map List.reverse
        childTable_eq := b.childTable_eq }
  else .error (.unbalanced b.opened.length)

end Builder

/-- The tree over `source` that a sequence of steps describes. -/
def Tree.build (source : String) (steps : List BuildStep) : Except BuildError Tree :=
  (steps.foldl Builder.step .new).finish source

end SdkLint
