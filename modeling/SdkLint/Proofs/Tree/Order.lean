import Mathlib.Data.List.Flatten
import Mathlib.Data.List.Sort
import SdkLint.Tree.Traversal

/-!
# Nodes above, nodes below and their order

A node lies in the subtree of another exactly if the other lies in its lineage.  Subtrees are listed
in increasing order, so that the subtree of the root is the list of all nodes.

Main results:

- Theorem `Tree.childInduction`: what holds of a node when it holds of its children holds of all
  nodes.
- Theorem `Tree.mem_subtree_iff`: looking down and looking up agree.
- Theorem `Tree.pairwise_subtree`: subtrees are listed in increasing order.
- Theorem `Tree.subtree_root`: the subtree of the root lists all nodes.
- Theorem `Tree.subtree_eq_range'`: every subtree takes up a stretch of numbers.
-/

namespace SdkLint.Tree

variable {t : Tree}

/-! ## Induction -/

/-- What holds of a node when it holds of all its children holds of every node. -/
theorem childInduction (t : Tree) {motive : Nat → Prop}
    (node : ∀ i, (∀ c ∈ t.children i, motive c) → motive i) (i : Nat) : motive i := by
  generalize hn : t.size - i = n
  induction n using Nat.strongRecOn generalizing i with
  | ind n ih =>
      refine node i fun c hc => ih (t.size - c) ?_ c rfl
      have := t.lt_of_mem_children hc
      have := t.lt_size_of_mem_children hc
      omega

/-- What holds of a node when it holds of its parent holds of every node. -/
theorem parentInduction (t : Tree) {motive : Nat → Prop}
    (root : ∀ i, t.parent i = none → motive i)
    (child : ∀ i p, t.parent i = some p → motive p → motive i) (i : Nat) : motive i := by
  induction i using Nat.strongRecOn with
  | ind i ih =>
      rcases hp : t.parent i with _ | p
      · exact root i hp
      · exact child i p hp (ih p (t.parent_lt hp))

/-! ## Lineages -/

theorem ancestors_of_parent {i p : Nat} (h : t.parent i = some p) :
    t.ancestors i = t.lineage p := by
  rw [ancestors_eq, h]
  rfl

theorem ancestors_of_no_parent {i : Nat} (h : t.parent i = none) : t.ancestors i = [] := by
  rw [ancestors_eq, h]

theorem lineage_of_parent {i p : Nat} (h : t.parent i = some p) :
    t.lineage i = i :: t.lineage p := by
  rw [lineage, ancestors_of_parent h]

theorem lineage_of_child {i c : Nat} (h : c ∈ t.children i) :
    t.lineage c = c :: t.lineage i :=
  lineage_of_parent (t.mem_children.1 h)

@[simp]
theorem mem_lineage_self (t : Tree) (i : Nat) : i ∈ t.lineage i :=
  List.mem_cons_self

theorem le_of_mem_lineage {i j : Nat} (h : i ∈ t.lineage j) : i ≤ j := by
  induction j using t.parentInduction with
  | root j hj =>
      rw [lineage, ancestors_of_no_parent hj, List.mem_singleton] at h
      exact Nat.le_of_eq h
  | child j p hp ih =>
      rw [lineage_of_parent hp, List.mem_cons] at h
      rcases h with rfl | h
      · exact Nat.le_refl _
      · exact Nat.le_trans (ih h) (Nat.le_of_lt (t.parent_lt hp))

theorem lt_of_mem_ancestors {i j : Nat} (h : i ∈ t.ancestors j) : i < j := by
  rcases hp : t.parent j with _ | p
  · rw [ancestors_of_no_parent hp] at h
    cases h
  · rw [ancestors_of_parent hp] at h
    exact Nat.lt_of_le_of_lt (le_of_mem_lineage h) (t.parent_lt hp)

/-- A node of smaller number in the lineage of another lies above it. -/
theorem mem_ancestors_of_lt {i j : Nat} (h : i ∈ t.lineage j) (hlt : i < j) :
    i ∈ t.ancestors j := by
  rcases List.mem_cons.1 h with heq | habove
  · exact absurd heq (Nat.ne_of_lt hlt)
  · exact habove

/-- Only nodes of the tree have nodes above them. -/
theorem lt_size_of_mem_ancestors {i j : Nat} (h : i ∈ t.ancestors j) : j < t.size := by
  rcases hp : t.parent j with _ | p
  · rw [ancestors_of_no_parent hp] at h
    cases h
  · exact t.lt_size_of_parent hp

theorem mem_lineage_trans {i j k : Nat} (hij : i ∈ t.lineage j) (hjk : j ∈ t.lineage k) :
    i ∈ t.lineage k := by
  induction k using t.parentInduction with
  | root k hk =>
      rw [lineage, ancestors_of_no_parent hk, List.mem_singleton] at hjk
      exact hjk ▸ hij
  | child k p hp ih =>
      rw [lineage_of_parent hp, List.mem_cons] at hjk ⊢
      rcases hjk with rfl | hjk
      · rwa [lineage_of_parent hp, List.mem_cons] at hij
      · exact Or.inr (ih hjk)

/-- Lineages have no repetitions. -/
theorem nodup_lineage (t : Tree) (i : Nat) : (t.lineage i).Nodup := by
  induction i using t.parentInduction with
  | root i hi => simp [lineage, ancestors_of_no_parent hi]
  | child i p hp ih =>
      rw [lineage_of_parent hp, List.nodup_cons]
      exact ⟨fun h => Nat.not_le_of_lt (t.parent_lt hp) (le_of_mem_lineage h), ih⟩

/-- What follows on a node of a lineage lies above that node. -/
theorem lineage_of_append {i j : Nat} {before above : List Nat}
    (h : t.lineage i = before ++ j :: above) : t.lineage j = j :: above := by
  induction i using t.parentInduction generalizing before with
  | root i hi =>
      rw [lineage, ancestors_of_no_parent hi] at h
      cases before with
      | nil =>
          obtain ⟨rfl, rfl⟩ := List.cons.inj h
          rw [lineage, ancestors_of_no_parent hi]
      | cons k before => simp at h
  | child i p hp ih =>
      cases before with
      | nil =>
          obtain ⟨rfl, -⟩ := List.cons.inj h
          exact h
      | cons k before =>
          rw [lineage_of_parent hp] at h
          exact ih (List.cons.inj h).2

theorem reaches_iff_mem_lineage {i a : Nat} :
    Reaches (parentIn t.nodes) i a ↔ a ∈ t.lineage i := by
  constructor
  · intro h
    induction h with
    | refl i => exact mem_lineage_self t i
    | step hp _ ih =>
        rw [lineage_of_parent (t := t) hp]
        exact List.mem_cons_of_mem _ ih
  · intro h
    induction i using t.parentInduction with
    | root i hi =>
        rw [lineage, ancestors_of_no_parent hi, List.mem_singleton] at h
        exact h ▸ .refl _
    | child i p hp ih =>
        rw [lineage_of_parent hp, List.mem_cons] at h
        rcases h with rfl | h
        · exact .refl _
        · exact .step hp (ih h)

/-- Every node but the root is a child of a node in the lineage of the node before it. -/
theorem exists_parent_succ {i : Nat} (h : i + 1 < t.size) :
    ∃ p, t.parent (i + 1) = some p ∧ p ∈ t.lineage i := by
  obtain ⟨p, hp, hreach⟩ := t.ordered.next i h
  exact ⟨p, hp, reaches_iff_mem_lineage.1 hreach⟩

theorem parent_eq_none_iff {i : Nat} : t.parent i = none ↔ i = root ∨ t.size ≤ i := by
  constructor
  · intro h
    rcases i with _ | i
    · exact Or.inl rfl
    · refine Or.inr (Nat.le_of_not_lt fun hi => ?_)
      obtain ⟨p, hp, -⟩ := exists_parent_succ hi
      simp [h] at hp
  · rintro (rfl | hi)
    · exact t.ordered.root
    · simp [parent, parentIn, Array.getElem?_eq_none (show t.nodes.size ≤ i from hi)]

/-- The root lies in the lineage of every node of the tree. -/
theorem root_mem_lineage {i : Nat} (hi : i < t.size) : root ∈ t.lineage i := by
  induction i using t.parentInduction with
  | root i hp =>
      rcases parent_eq_none_iff.1 hp with rfl | hle
      · exact mem_lineage_self t root
      · omega
  | child i p hp ih =>
      rw [lineage_of_parent hp]
      exact List.mem_cons_of_mem _ (ih (Nat.lt_trans (t.parent_lt hp) hi))

/-- What hangs from a node takes up a stretch of numbers: with a node it contains all nodes in
between. -/
theorem mem_lineage_of_le {i j k : Nat} (hk : i ∈ t.lineage k) (hij : i ≤ j) (hjk : j ≤ k) :
    i ∈ t.lineage j := by
  induction k with
  | zero =>
      have : j = 0 := Nat.le_zero.1 hjk
      exact this ▸ hk
  | succ k ih =>
      by_cases hlast : j = k + 1
      · exact hlast ▸ hk
      · refine ih ?_ (by omega)
        have hup : i ∈ t.ancestors (k + 1) := mem_ancestors_of_lt hk (by omega)
        obtain ⟨p, hp, hpk⟩ := exists_parent_succ (lt_size_of_mem_ancestors hup)
        rw [ancestors_of_parent hp] at hup
        exact mem_lineage_trans hup hpk

/-- Only nodes of the tree have a kind of their own. -/
theorem lt_size_of_kind {i : Nat} (h : t.kind i ≠ .other) : i < t.size := by
  refine Nat.lt_of_not_le fun hi => h ?_
  rw [kind, node, Array.getD_eq_getD_getElem?, Array.getElem?_eq_none hi]
  rfl

/-! ## Subtrees -/

theorem subtree_eq (t : Tree) (i : Nat) :
    t.subtree i = i :: (t.children i).flatMap t.subtree := by
  rw [subtree, descendants_eq]

/-- A node lies in the subtree of another exactly if the other lies in its lineage. -/
theorem mem_subtree_iff {i j : Nat} : j ∈ t.subtree i ↔ i ∈ t.lineage j := by
  constructor
  · intro h
    induction i using t.childInduction with
    | node i ih =>
        rw [subtree_eq, List.mem_cons, List.mem_flatMap] at h
        rcases h with rfl | ⟨c, hc, hj⟩
        · exact mem_lineage_self t j
        · refine mem_lineage_trans ?_ (ih c hc hj)
          rw [lineage_of_child hc]
          exact List.mem_cons_of_mem _ (mem_lineage_self t i)
  · intro h
    induction i using t.childInduction with
    | node i ih =>
        rw [subtree_eq, List.mem_cons, List.mem_flatMap]
        -- Going up from `j`, the walk reaches `i` at once or comes through a child of `i`.
        by_cases hji : j = i
        · exact Or.inl hji
        · right
          suffices ∃ c ∈ t.children i, c ∈ t.lineage j by
            obtain ⟨c, hc, hj⟩ := this
            exact ⟨c, hc, ih c hc hj⟩
          clear ih
          induction j using t.parentInduction with
          | root j hp =>
              rw [lineage, ancestors_of_no_parent hp, List.mem_singleton] at h
              exact absurd h.symm hji
          | child j p hp ih =>
              rw [lineage_of_parent hp, List.mem_cons] at h
              rcases h with rfl | h
              · exact absurd rfl hji
              · rw [lineage_of_parent hp]
                by_cases hpi : p = i
                · exact ⟨j, t.mem_children.2 (hpi ▸ hp), List.mem_cons_self⟩
                · obtain ⟨c, hc, hcp⟩ := ih h hpi
                  exact ⟨c, hc, List.mem_cons_of_mem _ hcp⟩

theorem mem_descendants_iff {i j : Nat} : j ∈ t.descendants i ↔ i ∈ t.ancestors j := by
  have hiff := mem_subtree_iff (t := t) (i := i) (j := j)
  rw [subtree, lineage, List.mem_cons, List.mem_cons] at hiff
  constructor
  · intro h
    rcases hiff.1 (Or.inr h) with rfl | h'
    · -- A node does not lie below itself, as its subtree hangs from children with larger numbers.
      rw [descendants_eq, List.mem_flatMap] at h
      obtain ⟨c, hc, hi⟩ := h
      have := le_of_mem_lineage (mem_subtree_iff.1 hi)
      have := t.lt_of_mem_children hc
      omega
    · exact h'
  · intro h
    rcases hiff.2 (Or.inr h) with rfl | h'
    · exact absurd (lt_of_mem_ancestors h) (Nat.lt_irrefl _)
    · exact h'

/-- What lies below a node is a node of the tree. -/
theorem lt_size_of_mem_descendants {i j : Nat} (h : j ∈ t.descendants i) : j < t.size :=
  lt_size_of_mem_ancestors (mem_descendants_iff.1 h)

theorem pairwise_children (t : Tree) (i : Nat) : (t.children i).Pairwise (· < ·) := by
  by_cases hi : i < t.size
  · rw [children_eq_filter t hi]
    exact List.pairwise_lt_range.filter _
  · rw [children_eq_nil t (Nat.le_of_not_lt hi)]
    exact List.Pairwise.nil

/-- No child is listed twice. -/
theorem nodup_children (t : Tree) (i : Nat) : (t.children i).Nodup :=
  (t.pairwise_children i).imp Nat.ne_of_lt

/-- Nodes below a node come before those below a later one with the same parent. -/
theorem lt_of_mem_subtree_siblings {i c d x y : Nat} (hc : c ∈ t.children i)
    (hd : d ∈ t.children i) (hcd : c < d) (hx : x ∈ t.subtree c) (hy : y ∈ t.subtree d) :
    x < y := by
  rw [mem_subtree_iff] at hx hy
  refine Nat.lt_of_lt_of_le (Nat.lt_of_not_le fun hdx => ?_) (le_of_mem_lineage hy)
  -- Otherwise `d` would hang from its elder sibling `c`.
  have hlin : c ∈ t.lineage d := mem_lineage_of_le hx (Nat.le_of_lt hcd) hdx
  rw [lineage_of_child hd, List.mem_cons] at hlin
  rcases hlin with rfl | hlin
  · exact Nat.lt_irrefl _ hcd
  · exact Nat.not_le_of_lt (t.lt_of_mem_children hc) (le_of_mem_lineage hlin)

/-- Subtrees are listed in increasing order. -/
theorem pairwise_subtree (t : Tree) (i : Nat) : (t.subtree i).Pairwise (· < ·) := by
  induction i using t.childInduction with
  | node i ih =>
      rw [subtree_eq, List.pairwise_cons, List.pairwise_flatMap]
      refine ⟨?_, ih, ?_⟩
      · intro x hx
        obtain ⟨c, hc, hx⟩ := List.mem_flatMap.1 hx
        exact Nat.lt_of_lt_of_le (t.lt_of_mem_children hc)
          (le_of_mem_lineage (mem_subtree_iff.1 hx))
      · refine (t.pairwise_children i).imp_of_mem ?_
        intro c d hc hd hcd x hx y hy
        exact lt_of_mem_subtree_siblings hc hd hcd hx hy

theorem nodup_subtree (t : Tree) (i : Nat) : (t.subtree i).Nodup :=
  (t.pairwise_subtree i).imp Nat.ne_of_lt

/-- What is visible from a node are nodes of its subtree, in the same order. -/
theorem visibleFrom_sublist (t : Tree) (hidden : Nat → Bool) (i : Nat) :
    (t.visibleFrom hidden i).Sublist (t.subtree i) := by
  induction i using t.childInduction with
  | node i ih =>
      rw [visibleFrom_eq, subtree_eq]
      split
      · exact List.nil_sublist _
      · exact (List.Sublist.flatMap_right _ ih).cons_cons i

/-- The subtree of the root lists all nodes of the tree. -/
theorem subtree_root (t : Tree) : t.subtree root = List.range t.size := by
  refine (t.pairwise_subtree root).eq_of_mem_iff List.pairwise_lt_range fun i => ?_
  rw [mem_subtree_iff, List.mem_range]
  refine ⟨fun h => Nat.lt_of_not_le fun hi => ?_, root_mem_lineage⟩
  rw [lineage, ancestors_of_no_parent (parent_eq_none_iff.2 (Or.inr hi)),
    List.mem_singleton] at h
  have hzero : i = 0 := h.symm
  exact Nat.not_le_of_lt t.ordered.size_pos (hzero ▸ hi)

/-- Numbers in increasing order that leave out none between the first and any other are a range. -/
theorem eq_range'_of_pairwise_lt {first : Nat} {rest : List Nat}
    (hpairwise : (first :: rest).Pairwise (· < ·))
    (hbetween : ∀ last ∈ rest, ∀ n, first ≤ n → n ≤ last → n ∈ first :: rest) :
    first :: rest = List.range' first (rest.length + 1) := by
  induction rest generalizing first with
  | nil => rfl
  | cons second rest ih =>
      obtain ⟨hfirst, hrest⟩ := List.pairwise_cons.1 hpairwise
      have hlt : first < second := hfirst second (by simp)
      have hafter : ∀ n ∈ second :: rest, second ≤ n := by
        intro n hn
        rcases List.mem_cons.1 hn with rfl | hn
        · exact Nat.le_refl _
        · exact Nat.le_of_lt ((List.pairwise_cons.1 hrest).1 n hn)
      have hnext : second = first + 1 := by
        have hmem := hbetween second (by simp) (first + 1) (Nat.le_succ _) hlt
        rcases List.mem_cons.1 hmem with h | h
        · omega
        · exact Nat.le_antisymm (hafter _ h) hlt
      rw [List.length_cons, List.range'_succ, ← hnext]
      refine congrArg (first :: ·) (ih hrest fun last hlast n hn hle => ?_)
      rcases List.mem_cons.1 (hbetween last (List.mem_cons_of_mem _ hlast) n (by omega) hle)
        with rfl | h
      · omega
      · exact h

/-- Every subtree takes up a stretch of numbers that begins with its own node. -/
theorem subtree_eq_range' (t : Tree) (i : Nat) :
    t.subtree i = List.range' i (t.subtree i).length := by
  have hpairwise := t.pairwise_subtree i
  rw [subtree] at hpairwise ⊢
  refine eq_range'_of_pairwise_lt hpairwise fun last hlast n hn hle => ?_
  have hup : i ∈ t.lineage last := mem_subtree_iff.1 (List.mem_cons_of_mem _ hlast)
  exact mem_subtree_iff.2 (mem_lineage_of_le hup hn hle)

end SdkLint.Tree
