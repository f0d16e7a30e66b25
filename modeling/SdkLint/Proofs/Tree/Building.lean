import Mathlib.Data.List.Induction
import SdkLint.Proofs.Tree.Outline

/-!
# What sequences of steps build

Which sequences of steps describe a tree can be told from the steps alone: it takes a node that is
opened, none that is left open and no second one that is opened when nothing is open.  A tree that
is built has the opened nodes in order, numbered in pre-order.  The steps of an outline build the
tree with this outline.

Main definitions:

- `openNodes`: the number of nodes that are open after a sequence of steps.
- `OpensSecondRoot`: whether a sequence of steps opens a second root.
- `Tree.Numbered`: what it means that the nodes of a tree are numbered in pre-order.
- `Outline.steps`: the steps that build an outline.

Main results:

- Theorem `Tree.numbered`: the nodes of every tree are numbered in pre-order.
- Theorem `follows_foldl`: a builder keeps account of all the steps that it has followed.
- Theorem `build_outcome`: the outcome of building, read off from the steps.
- Theorem `Builder.grown_steps`: the steps of an outline add its table to a builder.
- Theorem `build_steps`: the steps of an outline build the tree with this outline.
-/

namespace SdkLint

/-! ## What can be told from the steps -/

/-- What a step says about the node that it opens, if it opens one. -/
def BuildStep.opening? : BuildStep → Option (NodeKind × Span × Position)
  | .start kind span position => some (kind, span, position)
  | _ => none

/-- The number of open nodes after one more step.  Closing does nothing if none is open. -/
def BuildStep.openAfter (openBefore : Nat) : BuildStep → Nat
  | .start .. => openBefore + 1
  | .token _ => openBefore
  | .finish => openBefore - 1

/-- The number of nodes that are open after a sequence of steps. -/
def openNodes (steps : List BuildStep) : Nat :=
  steps.foldl BuildStep.openAfter 0

/-- Whether a sequence of steps opens a node. -/
def OpensNode (steps : List BuildStep) : Prop :=
  ∃ step ∈ steps, step.opening?.isSome

/-- Whether a sequence of steps opens a node when nothing is open after it has opened another. -/
def OpensSecondRoot (steps : List BuildStep) : Prop :=
  ∃ before step after, steps = before ++ step :: after ∧ step.opening?.isSome ∧
    openNodes before = 0 ∧ OpensNode before

theorem openNodes_append_singleton (steps : List BuildStep) (step : BuildStep) :
    openNodes (steps ++ [step]) = step.openAfter (openNodes steps) := by
  rw [openNodes, List.foldl_append]
  rfl

/-- A second root is opened before the last step or by it. -/
theorem opensSecondRoot_append_singleton {steps : List BuildStep} {step : BuildStep} :
    OpensSecondRoot (steps ++ [step]) ↔
      OpensSecondRoot steps ∨
        step.opening?.isSome ∧ openNodes steps = 0 ∧ OpensNode steps := by
  constructor
  · rintro ⟨before, second, after, heq, hsecond⟩
    rcases List.eq_nil_or_concat after with rfl | ⟨after, last, rfl⟩
    · obtain ⟨rfl, hlast⟩ := List.append_inj' heq rfl
      obtain rfl : step = second := by simpa using hlast
      exact Or.inr hsecond
    · rw [List.concat_eq_append, ← List.cons_append, ← List.append_assoc] at heq
      exact Or.inl ⟨before, second, after, (List.append_inj' heq rfl).1, hsecond⟩
  · rintro (⟨before, second, after, rfl, hsecond⟩ | hlast)
    · exact ⟨before, second, after ++ [step], by simp, hsecond⟩
    · exact ⟨steps, step, [], rfl, hlast⟩

/-! ## Builders keep account -/

/-- What a node was opened with. -/
def Node.opening (node : Node) : NodeKind × Span × Position :=
  (node.kind, node.span, node.position)

/-- A builder that has followed some steps: its nodes are those that were opened, as many of them
are open as can be told from the steps, and it knows whether there was a second root. -/
structure Builder.Follows (steps : List BuildStep) (b : Builder) : Prop where
  nodes : b.nodes.toList.map Node.opening = steps.filterMap BuildStep.opening?
  opened : b.opened.length = openNodes steps
  secondRoot : b.secondRoot = true ↔ OpensSecondRoot steps

namespace Builder.Follows

variable {steps : List BuildStep} {b : Builder}

/-- There are no nodes as long as none is opened. -/
theorem size_eq_zero_iff (h : b.Follows steps) : b.nodes.size = 0 ↔ ¬ OpensNode steps := by
  have hlength : b.nodes.size = (steps.filterMap BuildStep.opening?).length := by
    rw [← h.nodes, List.length_map, Array.length_toList]
  rw [hlength, List.length_eq_zero_iff, List.filterMap_eq_nil_iff, OpensNode]
  simp

/-- A step keeps the account. -/
theorem step (h : b.Follows steps) (s : BuildStep) : (b.step s).Follows (steps ++ [s]) := by
  cases s with
  | start kind span position =>
      refine ⟨?_, ?_, ?_⟩
      · simp [Builder.step, BuildStep.opening?, Node.opening, ← h.nodes]
      · rw [openNodes_append_singleton, ← h.opened]
        rfl
      · have hnone : b.opened.isEmpty = true ↔ openNodes steps = 0 := by
          rw [← h.opened, List.length_eq_zero_iff, List.isEmpty_iff]
        have hsome : (b.nodes.size != 0) = true ↔ OpensNode steps := by
          rw [bne_iff_ne, ne_eq, h.size_eq_zero_iff, not_not]
        rw [opensSecondRoot_append_singleton, ← h.secondRoot, ← hnone, ← hsome]
        simp [Builder.step, BuildStep.opening?]
  | token text =>
      refine ⟨?_, ?_, ?_⟩
      · -- Setting a token changes nothing that a node was opened with.
        rw [List.filterMap_append, ← h.nodes, Builder.step]
        rcases hopened : b.opened with _ | ⟨k, rest⟩
        · simp [Builder.token_of_none hopened, BuildStep.opening?]
        · rw [Builder.token_nodes hopened]
          refine List.ext_getElem? fun i => ?_
          simp only [List.getElem?_map, Array.getElem?_toList, Array.getElem?_modify,
            BuildStep.opening?, List.filterMap_cons, List.filterMap_nil, List.append_nil]
          split
          · cases b.nodes[i]? <;> rfl
          · rfl
      · rw [openNodes_append_singleton, BuildStep.openAfter, ← h.opened, Builder.step,
          Builder.token_opened]
      · rw [opensSecondRoot_append_singleton, ← h.secondRoot]
        simp [Builder.step, BuildStep.opening?]
  | finish =>
      refine ⟨?_, ?_, ?_⟩
      · simp [Builder.step, BuildStep.opening?, h.nodes]
      · rw [openNodes_append_singleton, BuildStep.openAfter, ← h.opened]
        exact List.length_tail
      · rw [opensSecondRoot_append_singleton, ← h.secondRoot]
        simp [Builder.step, BuildStep.opening?]

end Builder.Follows

/-- A builder keeps account of all the steps that it has followed. -/
theorem follows_foldl (steps : List BuildStep) :
    (steps.foldl Builder.step .new).Follows steps := by
  induction steps using List.reverseRecOn with
  | nil =>
      refine ⟨rfl, rfl, ?_⟩
      simp [Builder.new, OpensSecondRoot]
  | append_singleton steps s ih =>
      rw [List.foldl_append]
      exact ih.step s

/-! ## The outcome of building -/

/-- What it means that the nodes of a tree are numbered in pre-order. -/
structure Tree.Numbered (t : Tree) : Prop where
  /-- Node 0 is the only one without a parent. -/
  root : ∀ i < t.size, t.parent i = none ↔ i = 0
  /-- A parent comes before its children. -/
  parent_lt : ∀ i p, t.parent i = some p → p < i
  /-- The children of a node are the nodes that name it as their parent, in increasing order. -/
  children : ∀ i < t.size,
    t.children i = (List.range t.size).filter fun c => t.parent c == some i
  /-- A subtree takes up a stretch of numbers that begins with its own node. -/
  subtree : ∀ i < t.size, t.subtree i = List.range' i (t.subtree i).length

/-- The nodes of every tree are numbered in pre-order. -/
theorem Tree.numbered (t : Tree) : t.Numbered where
  root := by
    intro i hi
    rw [Tree.parent_eq_none_iff]
    exact ⟨fun h => h.resolve_right (Nat.not_le_of_lt hi), Or.inl⟩
  parent_lt := fun _ _ => t.parent_lt
  children := fun _ => t.children_eq_filter
  subtree := fun i _ => t.subtree_eq_range' i

/-- The outcome of building, read off from the steps. -/
structure BuildOutcome (source : String) (steps : List BuildStep) : Prop where
  /-- A second root spoils everything. -/
  multipleRoots : Tree.build source steps = .error .multipleRoots ↔ OpensSecondRoot steps
  /-- Otherwise it takes a node that is opened. -/
  empty : Tree.build source steps = .error .empty ↔
    ¬ OpensSecondRoot steps ∧ ¬ OpensNode steps
  /-- Then the nodes that are left open are counted. -/
  unbalanced : ∀ n, Tree.build source steps = .error (.unbalanced n) ↔
    ¬ OpensSecondRoot steps ∧ OpensNode steps ∧ openNodes steps = n ∧ 0 < n
  /-- If there are none, the steps are accepted. -/
  accepted : (∃ t, Tree.build source steps = .ok t) ↔
    ¬ OpensSecondRoot steps ∧ OpensNode steps ∧ openNodes steps = 0
  /-- The tree has the opened nodes in order, over the given text. -/
  nodes : ∀ t, Tree.build source steps = .ok t → t.source = source ∧
    t.nodes.toList.map Node.opening = steps.filterMap BuildStep.opening?
  /-- Its nodes are numbered in pre-order. -/
  numbered : ∀ t, Tree.build source steps = .ok t → t.Numbered

/-- Every sequence of steps has the outcome that can be read off from it. -/
theorem build_outcome (source : String) (steps : List BuildStep) : BuildOutcome source steps := by
  have h := follows_foldl steps
  have hsize := h.size_eq_zero_iff
  have hopened := h.opened
  have hsecond := h.secondRoot
  have hnodes := h.nodes
  generalize hb : steps.foldl Builder.step .new = b at h hsize hopened hsecond hnodes
  have hbuild : Tree.build source steps = b.finish source := by rw [Tree.build, hb]
  have hempty : b.opened.isEmpty = true ↔ openNodes steps = 0 := by
    rw [← hopened, List.length_eq_zero_iff, List.isEmpty_iff]
  unfold Builder.finish at hbuild
  by_cases hroots : OpensSecondRoot steps
  · rw [dif_pos (hsecond.2 hroots)] at hbuild
    constructor <;> simp [hbuild, hroots]
  rw [dif_neg fun hsecond' => hroots (hsecond.1 hsecond')] at hbuild
  by_cases hnode : OpensNode steps
  · rw [dif_neg fun hsize' => hsize.1 hsize' hnode] at hbuild
    by_cases hopen : openNodes steps = 0
    · rw [if_pos (hempty.2 hopen)] at hbuild
      constructor
      case nodes => simp [hbuild, ← hnodes]
      case numbered => exact fun t _ => t.numbered
      all_goals simp [hbuild, hroots, hnode, hopen]
    · rw [if_neg fun hopen' => hopen (hempty.1 hopen'), hopened] at hbuild
      constructor <;> simp [hbuild, hroots, hnode, hopen]
      omega
  · rw [dif_pos (hsize.2 hnode)] at hbuild
    constructor <;> simp [hbuild, hroots, hnode]

/-! ## Building outlines -/

/-- The steps that build an outline. -/
def Outline.steps : Outline → List BuildStep
  | .node kind span position token below =>
    .start kind span position ::
      (token.toList.map .token ++ below.attach.flatMap (fun ⟨o, _⟩ => o.steps) ++ [.finish])

theorem Outline.steps_node (kind : NodeKind) (span : Span) (position : Position)
    (token : Option String) (below : List Outline) :
    (Outline.node kind span position token below).steps =
      .start kind span position ::
        (token.toList.map .token ++ below.flatMap Outline.steps ++ [.finish]) := by
  rw [Outline.steps]
  simp [List.flatMap_subtype]

namespace Builder

/-- From one builder to another some nodes have been added, and what is open is the same. -/
structure Grown (b b' : Builder) (added : List Node) : Prop where
  nodes : b'.nodes.toList = b.nodes.toList ++ added
  opened : b'.opened = b.opened
  secondRoot : b'.secondRoot = b.secondRoot

variable {b : Builder}

/-- A node that is opened and given its token is the last one, and the innermost open one. -/
theorem grown_opening (kind : NodeKind) (span : Span) (position : Position)
    (token : Option String) (hroot : b.opened = [] → b.nodes.size = 0) :
    ∃ b', (token.toList.map BuildStep.token).foldl step (b.start kind span position) = b' ∧
      b'.nodes = b.nodes.push ⟨kind, position, span, token, b.opened.head?⟩ ∧
      b'.opened = b.nodes.size :: b.opened ∧ b'.secondRoot = b.secondRoot := by
  have hsecond : (b.start kind span position).secondRoot = b.secondRoot := by
    rcases hopened : b.opened with _ | ⟨p, rest⟩
    · simp [hroot hopened]
    · simp [hopened]
  refine ⟨_, rfl, ?_⟩
  cases token with
  | none => exact ⟨rfl, rfl, hsecond⟩
  | some text =>
      simp only [Option.toList_some, List.map_cons, List.map_nil, List.foldl_cons, List.foldl_nil,
        step]
      refine ⟨?_, token_opened _ _, (token_secondRoot _ _).trans hsecond⟩
      rw [token_nodes (start_opened b kind span position)]
      refine Array.ext_getElem? fun i => ?_
      simp only [start_nodes, Array.getElem?_modify, Array.getElem?_push]
      by_cases hi : b.nodes.size = i
      · simp [hi]
      · simp [hi, Ne.symm hi]

mutual

/-- The steps of an outline add its table. -/
theorem grown_steps : ∀ (o : Outline) (b : Builder), (b.opened = [] → b.nodes.size = 0) →
    b.Grown (o.steps.foldl step b) (o.table b.opened.head? b.nodes.size)
  | .node kind span position token below, b, hroot => by
    obtain ⟨b', hb', hnodes, hopened, hsecond⟩ := grown_opening kind span position token hroot
    have hsize : b'.nodes.size = b.nodes.size + 1 := by rw [hnodes, Array.size_push]
    have hbelow := grown_flatMap_steps below b' b.nodes.size (by rw [hopened]; rfl)
    rw [hsize] at hbelow
    rw [Outline.steps_node, List.foldl_cons, List.append_assoc, List.foldl_append,
      List.foldl_append]
    simp only [step, List.foldl_cons, List.foldl_nil, hb']
    -- Closing the node undoes its opening and keeps what has been added.
    refine ⟨?_, ?_, hbelow.secondRoot.trans hsecond⟩
    · rw [close_nodes, hbelow.nodes, hnodes]
      simp [Outline.table]
    · rw [close_opened, hbelow.opened, hopened, List.tail_cons]

/-- The steps of outlines side by side add their tables. -/
theorem grown_flatMap_steps : ∀ (os : List Outline) (b : Builder) (p : NodeId),
    b.opened.head? = some p →
    b.Grown ((os.flatMap Outline.steps).foldl step b) (Outline.tables p b.nodes.size os)
  | [], b, p, _ => ⟨by simp [Outline.tables], rfl, rfl⟩
  | o :: os, b, p, hp => by
    have hopen : b.opened ≠ [] := fun h => by simp [h] at hp
    have hfirst := grown_steps o b fun h => absurd h hopen
    rw [hp] at hfirst
    have hsize : (o.steps.foldl step b).nodes.size =
        b.nodes.size + (o.table (some p) b.nodes.size).length := by
      rw [← Array.length_toList, hfirst.nodes, List.length_append, Array.length_toList]
    have hrest := grown_flatMap_steps os (o.steps.foldl step b) p (by rw [hfirst.opened, hp])
    rw [hsize] at hrest
    rw [List.flatMap_cons, List.foldl_append, Outline.tables]
    refine ⟨?_, hrest.opened.trans hfirst.opened, hrest.secondRoot.trans hfirst.secondRoot⟩
    rw [hrest.nodes, hfirst.nodes, List.append_assoc]

end

end Builder

/-- The steps of an outline build the tree with this outline. -/
theorem build_steps (source : String) (o : Outline) :
    ∃ t, Tree.build source o.steps = .ok t ∧ t.source = source ∧ t.outline Tree.root = o := by
  have hgrown := Builder.grown_steps o .new fun _ => rfl
  have hnodes : (o.steps.foldl Builder.step .new).nodes.toList = o.table none Tree.root :=
    hgrown.nodes
  have hsize : (o.steps.foldl Builder.step .new).nodes.size ≠ 0 := by
    rw [← Array.length_toList, hnodes]
    cases o
    simp [Outline.table]
  have hsecond : ¬ (o.steps.foldl Builder.step .new).secondRoot = true := by
    rw [hgrown.secondRoot]
    decide
  have hopened : (o.steps.foldl Builder.step .new).opened.isEmpty = true := by
    rw [hgrown.opened]
    rfl
  rw [Tree.build, Builder.finish, dif_neg hsecond, dif_neg hsize, if_pos hopened]
  exact ⟨_, rfl, rfl, Tree.outline_eq_of_table hnodes⟩

/-- The table of an outline is in pre-order. -/
theorem Outline.preOrdered_table (o : Outline) : PreOrdered (o.table none Tree.root).toArray := by
  obtain ⟨t, -, -, houtline⟩ := build_steps "" o
  have hnodes : (o.table none Tree.root).toArray = t.nodes := by
    rw [← houtline, t.table_outline_root, Array.toArray_toList]
  rw [hnodes]
  exact t.ordered

/-- The tree over a text that has an outline. -/
def Outline.toTree (o : Outline) (source : String) : Tree where
  source := source
  nodes := (o.table none Tree.root).toArray
  ordered := o.preOrdered_table

end SdkLint
