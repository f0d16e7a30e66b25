import SdkLint.Text.Slice
import SdkLint.Tree.Kind

/-!
# Syntax trees

A syntax tree is the text of a file and a table of nodes, numbered in pre-order: node 0 is the root,
and every other node is a child of the node before it or of one of that node's ancestors
(`PreOrdered`).  A node records its parent; the children of a node are all nodes that name it as
their parent, in increasing order (`mem_children`), kept in a table so that they are found at once.

Main definitions:

- `Node`: kind, place, token and parent of one node.
- `Reaches`: going up along parents from one node to another, in zero or more steps.
- `Tree`: a pre-ordered table over a source text.
- `Tree.parent`, `Tree.children`, `Tree.text`: the basic views of a tree.

Main statements: a parent comes before its children (`Tree.parent_lt`), and all children of a node
lie in the table (`Tree.lt_of_mem_children`, `Tree.lt_size_of_mem_children`).
-/

namespace SdkLint

/-! ## Places -/

/-- A place in a file: line and byte column, both counted from one. -/
structure Position where
  line : Nat
  column : Nat
deriving DecidableEq, Repr, Inhabited

/-- A byte range of the source: `start` is inside, `stop` is not. -/
structure Span where
  start : Nat
  stop : Nat
deriving DecidableEq, Repr, Inhabited

/-- Number of bytes of a range; a reversed range has none. -/
def Span.length (span : Span) : Nat :=
  span.stop - span.start

/-! ## Tables of nodes -/

/-- Nodes are named by their number in pre-order. -/
abbrev NodeId := Nat

/-- One node of a tree. -/
structure Node where
  kind : NodeKind
  position : Position
  span : Span
  /-- Identifier, keyword, operator or literal text, for the kinds that have one. -/
  token : Option String
  parent : Option NodeId
deriving DecidableEq, Repr, Inhabited

/-- The parent that a table names for a node. -/
def parentIn (nodes : Array Node) (i : NodeId) : Option NodeId :=
  nodes[i]?.bind Node.parent

/-- `Reaches up i a`: going up from `i` along `up`, in zero or more steps, one arrives at `a`. -/
inductive Reaches (up : NodeId → Option NodeId) : NodeId → NodeId → Prop
  | refl (i : NodeId) : Reaches up i i
  | step {i p a : NodeId} : up i = some p → Reaches up p a → Reaches up i a

/-- A table in pre-order: it has a root, node 0, and the parent of every later node is the node just
before it or an ancestor of that one. -/
structure PreOrdered (nodes : Array Node) : Prop where
  size_pos : 0 < nodes.size
  root : parentIn nodes 0 = none
  next : ∀ i, i + 1 < nodes.size → ∃ p, parentIn nodes (i + 1) = some p ∧
    Reaches (parentIn nodes) i p

theorem lt_size_of_parentIn {nodes : Array Node} {i p : Nat}
    (h : parentIn nodes i = some p) : i < nodes.size := by
  by_cases hi : i < nodes.size
  · exact hi
  · simp [parentIn, Array.getElem?_eq_none (Nat.le_of_not_lt hi)] at h

theorem Reaches.le {up : NodeId → Option NodeId} {i a : Nat}
    (hup : ∀ j, j ≤ i → ∀ p, up j = some p → p < j) (h : Reaches up i a) : a ≤ i := by
  induction h with
  | refl i => exact Nat.le_refl i
  | step hp _ ih =>
    have hlt := hup _ (Nat.le_refl _) _ hp
    exact Nat.le_trans (ih fun j hj => hup j (Nat.le_trans hj (Nat.le_of_lt hlt)))
      (Nat.le_of_lt hlt)

/-- In a pre-ordered table a parent comes before its children. -/
theorem PreOrdered.parent_lt {nodes : Array Node} (ordered : PreOrdered nodes) :
    ∀ {i p : Nat}, parentIn nodes i = some p → p < i := by
  intro i
  induction i using Nat.strongRecOn with
  | ind i ih =>
    intro p hp
    cases i with
    | zero => simp [ordered.root] at hp
    | succ i =>
      obtain ⟨q, hq, hreach⟩ := ordered.next i (lt_size_of_parentIn hp)
      have : p = q := Option.some.inj (hp.symm.trans hq)
      subst this
      have hle := hreach.le fun j hj q hq => ih j (Nat.lt_succ_of_le hj) hq
      exact Nat.lt_succ_of_le hle

/-! ## Children -/

/-- For every node of a table, the nodes that name it as their parent, in increasing order. -/
def childLists (nodes : Array Node) : Array (List NodeId) :=
  (List.range nodes.size).foldr
    (fun i lists =>
      match parentIn nodes i with
      | some p => lists.modify p (i :: ·)
      | none => lists)
    (Array.replicate nodes.size [])

theorem getElem?_foldr_modify (up : NodeId → Option NodeId) (lists : Array (List NodeId))
    (ids : List NodeId) (p : Nat) (hp : p < lists.size) :
    (ids.foldr
      (fun i lists =>
        match up i with
        | some p => lists.modify p (i :: ·)
        | none => lists) lists)[p]? =
      some (ids.filter (fun i => up i == some p) ++ lists[p]) := by
  induction ids with
  | nil => simp [hp]
  | cons i ids ih =>
    simp only [List.foldr_cons]
    cases hi : up i with
    | none => simp [ih, hi]
    | some q =>
      rw [Array.getElem?_modify]
      by_cases hqp : q = p
      · subst hqp
        simp [ih, hi]
      · simp [ih, hi, hqp]

theorem size_foldr_modify (up : NodeId → Option NodeId) (ids : List NodeId)
    (lists : Array (List NodeId)) :
    (ids.foldr
      (fun i lists =>
        match up i with
        | some p => lists.modify p (i :: ·)
        | none => lists) lists).size = lists.size := by
  induction ids with
  | nil => rfl
  | cons i ids ih => simp only [List.foldr_cons]; split <;> simp [ih]

@[simp]
theorem size_childLists (nodes : Array Node) : (childLists nodes).size = nodes.size := by
  rw [childLists, size_foldr_modify, Array.size_replicate]

/-- The table gives for every node of it the nodes that name it as their parent, in increasing
order. -/
theorem getElem?_childLists {nodes : Array Node} {p : Nat} (hp : p < nodes.size) :
    (childLists nodes)[p]? =
      some ((List.range nodes.size).filter fun i => parentIn nodes i == some p) := by
  rw [childLists, getElem?_foldr_modify _ _ _ _ (by simpa using hp)]
  simp

/-! ## Trees -/

/-- The syntax tree of one file. -/
structure Tree where
  /-- The text that the tree was made from. -/
  source : String
  nodes : Array Node
  ordered : PreOrdered nodes
  childTable : Array (List NodeId) := childLists nodes
  childTable_eq : childTable = childLists nodes := by rfl

namespace Tree

/-- Number of nodes. -/
def size (t : Tree) : Nat :=
  t.nodes.size

/-- The node that all others lie below. -/
def root : NodeId :=
  0

/-- The record of a node; a number that names no node stands for an empty `other` node. -/
def node (t : Tree) (i : NodeId) : Node :=
  t.nodes.getD i ⟨.other, ⟨0, 0⟩, ⟨0, 0⟩, none, none⟩

def kind (t : Tree) (i : NodeId) : NodeKind :=
  (t.node i).kind

def position (t : Tree) (i : NodeId) : Position :=
  (t.node i).position

def span (t : Tree) (i : NodeId) : Span :=
  (t.node i).span

def token (t : Tree) (i : NodeId) : Option String :=
  (t.node i).token

/-- The parent of a node, `none` for the root. -/
def parent (t : Tree) (i : NodeId) : Option NodeId :=
  parentIn t.nodes i

/-- The children of a node, from left to right. -/
def children (t : Tree) (i : NodeId) : List NodeId :=
  t.childTable.getD i []

/-- The source text that a node covers. -/
def text (t : Tree) (i : NodeId) : String :=
  Text.slice t.source (t.span i).start (t.span i).stop

theorem children_eq_filter (t : Tree) {i : Nat} (hi : i < t.size) :
    t.children i = (List.range t.size).filter fun c => t.parent c == some i := by
  rw [children, Array.getD_eq_getD_getElem?, t.childTable_eq, getElem?_childLists hi]
  rfl

theorem children_eq_nil (t : Tree) {i : Nat} (hi : t.size ≤ i) : t.children i = [] := by
  rw [children, Array.getD_eq_getD_getElem?, t.childTable_eq, Array.getElem?_eq_none]
  · rfl
  · rwa [size_childLists]

theorem parent_lt (t : Tree) {i p : Nat} (h : t.parent i = some p) : p < i :=
  t.ordered.parent_lt h

theorem lt_size_of_parent (t : Tree) {i p : Nat} (h : t.parent i = some p) : i < t.size :=
  lt_size_of_parentIn h

/-- A node is a child of the node that it names as its parent, and of no other. -/
theorem mem_children (t : Tree) {i c : Nat} : c ∈ t.children i ↔ t.parent c = some i := by
  by_cases hi : i < t.size
  · rw [children_eq_filter t hi]
    simp only [List.mem_filter, List.mem_range, beq_iff_eq, and_iff_right_iff_imp]
    exact t.lt_size_of_parent
  · simp only [children_eq_nil t (Nat.le_of_not_lt hi), List.not_mem_nil, false_iff]
    intro h
    exact hi (Nat.lt_trans (t.parent_lt h) (t.lt_size_of_parent h))

theorem lt_of_mem_children (t : Tree) {i c : Nat} (h : c ∈ t.children i) : i < c :=
  t.parent_lt (t.mem_children.1 h)

theorem lt_size_of_mem_children (t : Tree) {i c : Nat} (h : c ∈ t.children i) : c < t.size :=
  t.lt_size_of_parent (t.mem_children.1 h)

end Tree

end SdkLint
