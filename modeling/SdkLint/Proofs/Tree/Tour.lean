import Mathlib.Data.List.Perm.Basic
import SdkLint.Proofs.Tree.Order

/-!
# The tour around a tree

The tour enters every node once and leaves it once.  Nodes are entered in the order of their numbers
and left after everything below them.

Main results:

- Theorem `Tree.entered_tourFrom`: the nodes entered are the subtree, in order.
- Theorem `Tree.leaving_perm`: the nodes left are the subtree, in some order.
- Theorem `Tree.nodup_tourFrom`: no stop is made twice.
- Theorem `Tree.tour_induction`: what entering and leaving keep holds after every part of the tour.
-/

namespace SdkLint

/-- The node that a stop enters, if it enters one. -/
def Visit.entered? : Visit → Option NodeId
  | enter i => some i
  | leave _ => none

/-- The node that a stop leaves, if it leaves one. -/
def Visit.left? : Visit → Option NodeId
  | enter _ => none
  | leave i => some i

namespace Tree

variable {t : Tree}

/-- The nodes of a subtree in the order in which the tour leaves them. -/
def leaving (t : Tree) (i : Nat) : List NodeId :=
  (t.tourFrom i).filterMap Visit.left?

/-- The tour enters the nodes of a subtree in the order of their numbers. -/
theorem entered_tourFrom (t : Tree) (i : Nat) :
    (t.tourFrom i).filterMap Visit.entered? = t.subtree i := by
  induction i using t.childInduction with
  | node i ih =>
      rw [tourFrom_eq, subtree_eq]
      simp only [List.filterMap_append, List.filterMap_cons, Visit.entered?, List.filterMap_nil,
        List.append_nil, List.filterMap_flatMap]
      rw [List.flatMap_congr ih]

/-- The tour enters all nodes of the tree in the order of their numbers. -/
theorem entered_tour (t : Tree) : t.tour.filterMap Visit.entered? = List.range t.size := by
  rw [tour, entered_tourFrom, subtree_root]

/-- The tour comes to every node of the tree. -/
theorem exists_tour_eq {i : Nat} (hi : i < t.size) :
    ∃ made rest, t.tour = made ++ .enter i :: rest := by
  have hmem : i ∈ t.tour.filterMap Visit.entered? := by
    rw [entered_tour]
    exact List.mem_range.2 hi
  obtain ⟨v, hv, hentered⟩ := List.mem_filterMap.1 hmem
  cases v with
  | enter j => exact List.append_of_mem (Option.some.inj hentered ▸ hv)
  | leave j => cases hentered

theorem leaving_eq (t : Tree) (i : Nat) :
    t.leaving i = (t.children i).flatMap t.leaving ++ [i] := by
  unfold leaving
  rw [tourFrom_eq]
  simp only [List.filterMap_append, List.filterMap_cons, Visit.left?, List.filterMap_nil,
    List.filterMap_flatMap]

/-- The tour leaves every node of a subtree once. -/
theorem leaving_perm (t : Tree) (i : Nat) : (t.leaving i).Perm (t.subtree i) := by
  induction i using t.childInduction with
  | node i ih =>
      rw [leaving_eq, subtree_eq]
      refine List.perm_append_comm.trans (List.Perm.cons i ?_)
      exact List.Perm.flatMap_left _ ih

theorem mem_leaving_iff {i j : Nat} : j ∈ t.leaving i ↔ i ∈ t.lineage j :=
  (t.leaving_perm i).mem_iff.trans mem_subtree_iff

theorem nodup_leaving (t : Tree) (i : Nat) : (t.leaving i).Nodup :=
  (t.leaving_perm i).nodup_iff.2 (t.nodup_subtree i)

/-- The tour makes no stop twice. -/
theorem nodup_tourFrom (t : Tree) (i : Nat) : (t.tourFrom i).Nodup := by
  have henter := t.nodup_subtree i
  have hleave := t.nodup_leaving i
  rw [← entered_tourFrom] at henter
  unfold leaving at hleave
  rw [List.Nodup, List.pairwise_filterMap] at henter hleave
  refine (henter.and hleave).imp fun {v w} h => ?_
  rintro rfl
  cases v with
  | enter i => exact h.1 i rfl i rfl rfl
  | leave i => exact h.2 i rfl i rfl rfl

/-- What entering and leaving keep holds after every part of the tour.  It may speak of the nodes
above the current place, of those entered so far and of those left so far. -/
theorem tour_induction {σ : Type*} (f : σ → Visit → σ)
    {motive : List Nat → List Nat → List Nat → σ → Prop}
    (enter : ∀ i entered left s, (∀ w ∈ t.subtree i, w ∉ entered) →
      motive (t.ancestors i) entered left s →
      motive (t.lineage i) (entered ++ [i]) left (f s (.enter i)))
    (leave : ∀ i entered left s, (∀ w ∈ t.subtree i, w ∈ entered) →
      motive (t.lineage i) entered left s →
      motive (t.ancestors i) entered (left ++ [i]) (f s (.leave i)))
    (i : Nat) (entered left : List Nat) (s : σ) (hnew : ∀ w ∈ t.subtree i, w ∉ entered)
    (h : motive (t.ancestors i) entered left s) :
    motive (t.ancestors i) (entered ++ t.subtree i) (left ++ t.leaving i)
      ((t.tourFrom i).foldl f s) := by
  induction i using t.childInduction generalizing entered left s with
  | node i ih =>
      -- The children are visited in turn: what has been entered before one of them does not hang
      -- from it, as it hangs from an elder sibling at most.
      have hchildren : ∀ cs : List Nat, (∀ c ∈ cs, c ∈ t.children i) → cs.Pairwise (· < ·) →
          ∀ entered left s, (∀ c ∈ cs, ∀ w ∈ t.subtree c, w ∉ entered) →
          motive (t.lineage i) entered left s →
          motive (t.lineage i) (entered ++ cs.flatMap t.subtree) (left ++ cs.flatMap t.leaving)
            ((cs.flatMap t.tourFrom).foldl f s) := by
        intro cs hcs hpairwise
        induction cs with
        | nil =>
            intro entered left s _ hs
            simpa using hs
        | cons c cs ihcs =>
            intro entered left s hfresh hs
            obtain ⟨hlt, hrest⟩ := List.pairwise_cons.1 hpairwise
            have hc : c ∈ t.children i := hcs c (by simp)
            have habove : t.ancestors c = t.lineage i := ancestors_of_parent (t.mem_children.1 hc)
            have hfirst := ih c hc entered left s (hfresh c (by simp)) (habove ▸ hs)
            rw [habove] at hfirst
            rw [List.flatMap_cons, List.flatMap_cons, List.flatMap_cons, List.foldl_append,
              ← List.append_assoc, ← List.append_assoc]
            refine ihcs (fun d hd => hcs d (by simp [hd])) hrest _ _ _ ?_ hfirst
            intro d hd w hw
            rw [List.mem_append, not_or]
            refine ⟨hfresh d (by simp [hd]) w hw, fun hwc => ?_⟩
            exact Nat.lt_irrefl w
              (lt_of_mem_subtree_siblings hc (hcs d (by simp [hd])) (hlt d hd) hwc hw)
      have hbelow : ∀ c ∈ t.children i, ∀ w ∈ t.subtree c, w ∉ entered ++ [i] := by
        intro c hc w hw
        rw [List.mem_append, List.mem_singleton, not_or]
        have hle : c ≤ w := le_of_mem_lineage (mem_subtree_iff.1 hw)
        have hlt : i < c := t.lt_of_mem_children hc
        refine ⟨hnew w ?_, Nat.ne_of_gt (Nat.lt_of_lt_of_le hlt hle)⟩
        rw [subtree_eq]
        exact List.mem_cons_of_mem _ (List.mem_flatMap.2 ⟨c, hc, hw⟩)
      have hafter := hchildren (t.children i) (fun c hc => hc) (t.pairwise_children i) _ _ _ hbelow
        (enter i entered left s hnew h)
      have hseen : entered ++ t.subtree i =
          entered ++ [i] ++ (t.children i).flatMap t.subtree := by
        rw [subtree_eq, List.append_assoc]
        rfl
      rw [tourFrom_eq, leaving_eq, hseen, ← List.append_assoc, List.cons_append, List.foldl_cons,
        List.foldl_append]
      refine leave i _ _ _ ?_ hafter
      intro w hw
      rw [← hseen]
      exact List.mem_append_right _ hw

end Tree

end SdkLint
