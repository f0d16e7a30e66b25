import Mathlib.Data.List.TFAE
import Mathlib.Tactic.TFAE
import SdkLint.Proofs.Tree.Order

/-!
# Relations between nodes as comparisons of numbers

As nodes are numbered in pre-order, the nodes below a node are those whose numbers follow on its own,
as many as hang from it.  Looking down from a node, looking up from it and comparing numbers
therefore come to the same.

Main definition:

- `Tree.NumberedInPreOrder`: the relations between nodes, said of their numbers.

Main results:

- Theorem `Tree.length_subtree`: the listing of a subtree has as many nodes as hang from its root.
- Theorem `Tree.mem_descendants_iff_between`: to lie below a node is to lie in a stretch of numbers.
- Theorem `Tree.numbered_in_preOrder`: every tree is numbered in pre-order.
-/

namespace SdkLint.Tree

variable {t : Tree}

/-! ## Sizes of subtrees -/

/-- A subtree is listed with as many nodes as hang from its root. -/
theorem length_subtree (t : Tree) (i : Nat) : (t.subtree i).length = t.subtreeSize i := by
  induction i using t.childInduction with
  | node i ih =>
    rw [subtree_eq, subtreeSize_eq, List.length_cons]
    generalize t.children i = children at ih
    induction children with
    | nil => rfl
    | cons c children ihcs =>
      have hfirst := ih c (by simp)
      have hrest := ihcs fun d hd => ih d (by simp [hd])
      rw [List.flatMap_cons, List.length_append, List.foldr_cons]
      omega

/-! ## Looking down -/

/-- The nodes below a node are the numbers that follow on its own, as many as hang from it. -/
theorem descendants_eq_range' (t : Tree) (i : Nat) :
    t.descendants i = List.range' (i + 1) (t.subtreeSize i - 1) := by
  have hrange := t.subtree_eq_range' i
  obtain ⟨n, hn⟩ : ∃ n, t.subtreeSize i = n + 1 :=
    ⟨t.subtreeSize i - 1, by have := t.subtreeSize_pos i; omega⟩
  rw [length_subtree, hn, List.range'_succ, subtree, List.cons.injEq] at hrange
  rw [hrange.2, hn, Nat.add_sub_cancel]

/-- To lie below a node is to lie in the stretch of numbers that follows on it. -/
theorem mem_descendants_iff_between {i j : Nat} :
    i ∈ t.descendants j ↔ j < i ∧ i < j + t.subtreeSize j := by
  have hpos := t.subtreeSize_pos j
  rw [descendants_eq_range', List.mem_range'_1]
  omega

/-! ## Looking up -/

/-- Going up, numbers become smaller. -/
theorem pairwise_lineage (t : Tree) (i : Nat) : (t.lineage i).Pairwise (· > ·) := by
  induction i using t.parentInduction with
  | root i hi =>
    rw [lineage, ancestors_of_no_parent hi]
    exact List.pairwise_singleton _ _
  | child i p hp ih =>
    rw [lineage_of_parent hp, List.pairwise_cons]
    refine ⟨?_, ih⟩
    intro j hj
    exact Nat.lt_of_le_of_lt (le_of_mem_lineage hj) (t.parent_lt hp)

theorem ancestors_root (t : Tree) : t.ancestors root = [] :=
  ancestors_of_no_parent t.ordered.root

/-- Going up from any other node ends at the root. -/
theorem getLast?_ancestors {i : Nat} (hi : i < t.size) (hroot : i ≠ root) :
    (t.ancestors i).getLast? = some root := by
  have hmem : root ∈ t.ancestors i :=
    mem_ancestors_of_lt (root_mem_lineage hi) (Nat.pos_of_ne_zero hroot)
  obtain ⟨before, above, hsplit⟩ := List.append_of_mem hmem
  have hlineage : t.lineage i = (i :: before) ++ root :: above := by
    rw [lineage, hsplit, List.cons_append]
  -- Nothing lies above the root.
  have habove : above = [] := by
    have hup := lineage_of_append hlineage
    rw [lineage, ancestors_root] at hup
    exact (List.cons.inj hup).2.symm
  rw [hsplit, habove, List.getLast?_append]
  rfl

theorem isBelow_iff {i j : Nat} : t.isBelow i j = true ↔ j ∈ t.ancestors i := by
  rw [isBelow, List.contains_iff_mem]

/-! ## All relations -/

/-- What it means for a tree to be numbered in pre-order: the relations between its nodes are told by
their numbers, and it does not matter from which end they are looked at. -/
structure NumberedInPreOrder (t : Tree) : Prop where
  /-- The nodes below a node are the numbers that follow on its own, in increasing order. -/
  below : ∀ i, t.descendants i = List.range' (i + 1) (t.subtreeSize i - 1)
  /-- Going up from a node, numbers become smaller with every step. -/
  decreasing : ∀ i, (i :: t.ancestors i).Pairwise (· > ·)
  /-- Nothing lies above the root. -/
  top : t.ancestors root = []
  /-- Going up from any other node ends at the root. -/
  ending : ∀ i < t.size, i ≠ root → (t.ancestors i).getLast? = some root
  /-- The test, the way up, the way down and the comparison of numbers agree. -/
  agree : ∀ i j, List.TFAE
    [t.isBelow i j = true, j ∈ t.ancestors i, i ∈ t.descendants j,
      j < i ∧ i < j + t.subtreeSize j]

/-- Every tree is numbered in pre-order. -/
theorem numbered_in_preOrder (t : Tree) : t.NumberedInPreOrder where
  below := t.descendants_eq_range'
  decreasing := t.pairwise_lineage
  top := t.ancestors_root
  ending := by
    intro i hi hroot
    exact getLast?_ancestors hi hroot
  agree := by
    intro i j
    tfae_have 1 ↔ 2 := isBelow_iff
    tfae_have 2 ↔ 3 := mem_descendants_iff.symm
    tfae_have 3 ↔ 4 := mem_descendants_iff_between
    tfae_finish

end SdkLint.Tree
