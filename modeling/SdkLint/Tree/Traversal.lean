import SdkLint.Tree.Basic

/-!
# Ways through a tree

The walk around a tree visits every node twice: on the way in, before its children, and on the way
out, after them (`Tree.tour`).  The ancestors of a node are met going up from it, nearest first; its
descendants are the nodes below it in pre-order.  All of them end because parents come before their
children.

What goes down a tree is a loop over an agenda of nodes (`Tree.foldOn`).  A node that is taken from
the agenda leaves its children there in its place, so that the agenda stands for one node less
(`Tree.agendaSize_children`).

A walk that keeps a list of the stops still to be made replaces every stop by those that it brings
about (`Tree.following`).  The part of the tour that a stop begins is `Tree.stretch`.

Main statements:

- `Tree.foldOn_eq_foldl`: the loop over an agenda comes to what is visible from its nodes, in order.
- `Tree.descendants_eq`: the descendants of a node are its children, each followed by its own
  descendants.
- `Tree.stretch_eq`: a stretch is its first stop followed by the stretches of those that it brings
  about.
- `Tree.length_stretches_following`: replacing a stop by those that it brings about leaves one stop
  less to be made.
-/

namespace SdkLint

/-- One stop of the walk around a tree. -/
inductive Visit where
  /-- On the way in, before the children. -/
  | enter (node : NodeId)
  /-- On the way out, after the children. -/
  | leave (node : NodeId)
deriving DecidableEq, Repr

/-- The node of a stop. -/
def Visit.node : Visit → NodeId
  | enter i => i
  | leave i => i

namespace Tree

/-! ## Agendas of nodes -/

/-- The number of nodes that hang from a node, itself included. -/
def subtreeSize (t : Tree) (i : NodeId) : Nat :=
  (t.children i).attach.foldr (fun ⟨c, _h⟩ n => t.subtreeSize c + n) 1
termination_by t.size - i
decreasing_by
  have := t.lt_of_mem_children _h
  have := t.lt_size_of_mem_children _h
  omega

/-- The number of nodes that an agenda stands for. -/
def agendaSize (t : Tree) (agenda : List NodeId) : Nat :=
  agenda.foldr (fun i n => t.subtreeSize i + n) 0

theorem subtreeSize_eq (t : Tree) (i : NodeId) :
    t.subtreeSize i = (t.children i).foldr (fun c n => t.subtreeSize c + n) 1 := by
  rw [subtreeSize]
  simp

theorem subtreeSize_pos (t : Tree) (i : NodeId) : 0 < t.subtreeSize i := by
  rw [subtreeSize_eq]
  induction t.children i with
  | nil => exact Nat.zero_lt_one
  | cons c children ih =>
    rw [List.foldr_cons]
    omega

theorem agendaSize_cons (t : Tree) (i : NodeId) (rest : List NodeId) :
    t.agendaSize (i :: rest) = t.subtreeSize i + t.agendaSize rest :=
  rfl

/-- A node whose children take its place on an agenda is the only one that the agenda loses. -/
theorem agendaSize_children (t : Tree) (i : NodeId) (rest : List NodeId) :
    t.agendaSize (t.children i ++ rest) + 1 = t.agendaSize (i :: rest) := by
  rw [agendaSize_cons, subtreeSize_eq]
  induction t.children i with
  | nil =>
    rw [List.nil_append, List.foldr_nil]
    omega
  | cons c children ih =>
    rw [List.cons_append, agendaSize_cons, List.foldr_cons]
    omega

/-- Goes through the nodes of an agenda and what hangs from them, each node before those below it.
Where a node is hidden, it is passed over with all that hangs from it. -/
def foldOn {σ : Type} (t : Tree) (hidden : NodeId → Bool) (f : σ → NodeId → σ)
    (agenda : List NodeId) (s : σ) : σ :=
  match agenda with
  | [] => s
  | i :: rest =>
    if hidden i then t.foldOn hidden f rest s
    else t.foldOn hidden f (t.children i ++ rest) (f s i)
termination_by t.agendaSize agenda
decreasing_by
  · have := t.subtreeSize_pos i
    rw [t.agendaSize_cons]
    omega
  · have := t.agendaSize_children i rest
    omega

/-- The nodes of a subtree in pre-order, without the hidden ones and what hangs from them. -/
def visibleFrom (t : Tree) (hidden : NodeId → Bool) (i : NodeId) : List NodeId :=
  if hidden i then []
  else i :: (t.children i).attach.flatMap fun ⟨c, _h⟩ => t.visibleFrom hidden c
termination_by t.size - i
decreasing_by
  have := t.lt_of_mem_children _h
  have := t.lt_size_of_mem_children _h
  omega

theorem visibleFrom_eq (t : Tree) (hidden : NodeId → Bool) (i : NodeId) :
    t.visibleFrom hidden i =
      if hidden i then [] else i :: (t.children i).flatMap (t.visibleFrom hidden) := by
  rw [visibleFrom]
  simp [List.flatMap_subtype]

/-- The loop over an agenda comes to what is visible from its nodes, in that order. -/
theorem foldOn_eq_foldl {σ : Type} (t : Tree) (hidden : NodeId → Bool) (f : σ → NodeId → σ)
    (agenda : List NodeId) (s : σ) :
    t.foldOn hidden f agenda s = (agenda.flatMap (t.visibleFrom hidden)).foldl f s := by
  fun_induction t.foldOn hidden f agenda s with
  | case1 s => rfl
  | case2 s i rest hhidden ih =>
    rw [ih, List.flatMap_cons, visibleFrom_eq, if_pos hhidden, List.nil_append]
  | case3 s i rest hhidden ih =>
    rw [ih, List.flatMap_append, List.flatMap_cons, visibleFrom_eq t hidden i, if_neg hhidden,
      List.cons_append, List.foldl_cons]

/-! ## Descendants -/

/-- The nodes below a node, in pre-order. -/
def descendants (t : Tree) (i : NodeId) : List NodeId :=
  (t.foldOn (fun _ => false) Array.push (t.children i) #[]).toList

/-- A node followed by the nodes below it, in pre-order. -/
def subtree (t : Tree) (i : NodeId) : List NodeId :=
  i :: t.descendants i

/-- The descendants of a node are its children, each followed by its own descendants. -/
theorem descendants_eq (t : Tree) (i : Nat) :
    t.descendants i = (t.children i).flatMap t.subtree := by
  have hlisted : ∀ j, t.descendants j =
      (t.children j).flatMap (t.visibleFrom fun _ => false) := by
    intro j
    rw [descendants, foldOn_eq_foldl, List.foldl_push_eq_append, List.map_id']
    simp
  have hsubtree : t.visibleFrom (fun _ => false) = t.subtree := by
    funext j
    rw [visibleFrom_eq, subtree, hlisted]
    rfl
  rw [hlisted, hsubtree]

/-! ## Ancestors -/

/-- The nodes above a node, nearest first. -/
def ancestors (t : Tree) (i : NodeId) : List NodeId :=
  match _h : t.parent i with
  | none => []
  | some p => p :: t.ancestors p
termination_by i
decreasing_by exact t.parent_lt _h

/-- A node followed by the nodes above it, nearest first. -/
def lineage (t : Tree) (i : NodeId) : List NodeId :=
  i :: t.ancestors i

/-- Whether a node lies strictly below another. -/
def isBelow (t : Tree) (i j : NodeId) : Bool :=
  (t.ancestors i).contains j

/-! ## The tour -/

/-- The walk around the part of a tree that hangs from a node. -/
def tourFrom (t : Tree) (i : NodeId) : List Visit :=
  .enter i :: (t.children i).attach.flatMap (fun ⟨c, _h⟩ => t.tourFrom c) ++ [.leave i]
termination_by t.size - i
decreasing_by
  have := t.lt_of_mem_children _h
  have := t.lt_size_of_mem_children _h
  omega

/-- The walk around the whole tree. -/
def tour (t : Tree) : List Visit :=
  t.tourFrom root

/-- The stops that a stop brings about: having entered a node, the walk has to enter its children,
from left to right, and to leave it. -/
def following (t : Tree) : Visit → List Visit
  | .enter i => (t.children i).map .enter ++ [.leave i]
  | .leave _ => []

/-- The stretch of the walk that a stop begins. -/
def stretch (t : Tree) : Visit → List Visit
  | .enter i => t.tourFrom i
  | .leave i => [.leave i]

/-! ## Equations -/

theorem ancestors_eq (t : Tree) (i : Nat) :
    t.ancestors i = match t.parent i with
      | none => []
      | some p => p :: t.ancestors p := by
  rw [ancestors]
  split <;> simp_all

theorem tourFrom_eq (t : Tree) (i : Nat) :
    t.tourFrom i = .enter i :: (t.children i).flatMap t.tourFrom ++ [.leave i] := by
  rw [tourFrom]
  simp [List.flatMap_subtype]

/-- A stretch is its first stop followed by the stretches of the stops that it brings about. -/
theorem stretch_eq (t : Tree) (v : Visit) :
    t.stretch v = v :: (t.following v).flatMap t.stretch := by
  cases v with
  | enter i => simp [stretch, following, tourFrom_eq t i, List.flatMap_map]
  | leave i => simp [stretch, following]

/-- Replacing a stop by those that it brings about leaves one stop less to be made. -/
theorem length_stretches_following (t : Tree) (v : Visit) (agenda : List Visit) :
    ((t.following v ++ agenda).flatMap t.stretch).length + 1 =
      ((v :: agenda).flatMap t.stretch).length := by
  rw [List.flatMap_append, List.flatMap_cons, t.stretch_eq v]
  simp only [List.length_append, List.length_cons]
  omega

end Tree

end SdkLint
