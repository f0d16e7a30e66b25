import Mathlib.Data.List.Induction
import SdkLint.Proofs.Tree.Tour

/-!
# Part of the way around a tree

At any point of the tour some stops have been made and an agenda of stops is left, each of which
brings about others.  The nodes that are still to be left by the agenda are those that have been
entered and not left yet.

Main definitions:

- `Tree.Along`: the stops made and the agenda at some point of the tour.
- `Tree.openAfter`: the nodes that some stops enter and do not leave.

Main results:

- Theorem `Tree.exists_along`: every beginning of the tour has an agenda.
- Theorem `Tree.Along.left_agenda`: the agenda leaves the nodes that are open, the last one first.
-/

namespace SdkLint.Tree

variable {t : Tree}

/-- `t.Along made agenda`: the tour has made some stops, and those of the agenda are still to be
made, with all that they bring about. -/
inductive Along (t : Tree) : List Visit → List Visit → Prop where
  | start : Along t [] [.enter root]
  | stop {made agenda : List Visit} {v : Visit} :
      Along t made (v :: agenda) → Along t (made ++ [v]) (t.following v ++ agenda)

/-- The nodes that some stops enter and do not leave, the one entered last coming first. -/
def openAfter (made : List Visit) : List NodeId :=
  ((made.filterMap Visit.entered?).filter fun i => !made.contains (.leave i)).reverse

/-! ## Beginnings of the tour -/

/-- The stops made and those that the agenda stands for make up the tour. -/
theorem Along.append_eq {made agenda : List Visit} (h : t.Along made agenda) :
    made ++ agenda.flatMap t.stretch = t.tour := by
  induction h with
  | start => simp [stretch, tour]
  | stop h ih =>
    rw [← ih, List.flatMap_cons, t.stretch_eq, List.flatMap_append]
    simp

/-- Every beginning of the tour has an agenda that stands for the rest. -/
theorem exists_along {made rest : List Visit} (h : t.tour = made ++ rest) :
    ∃ agenda, t.Along made agenda ∧ agenda.flatMap t.stretch = rest := by
  induction made using List.reverseRecOn generalizing rest with
  | nil => exact ⟨[.enter root], .start, by simpa [stretch, tour] using h⟩
  | append_singleton made v ih =>
    rw [List.append_assoc] at h
    obtain ⟨agenda, halong, hrest⟩ := ih h
    cases agenda with
    | nil => cases hrest
    | cons w agenda =>
      rw [List.flatMap_cons, t.stretch_eq, List.cons_append, List.singleton_append,
        List.cons.injEq] at hrest
      obtain ⟨rfl, hrest⟩ := hrest
      exact ⟨_, halong.stop, by rw [List.flatMap_append, hrest]⟩

/-! ## Open nodes -/

theorem left_following_enter (t : Tree) (i : Nat) :
    (t.following (.enter i)).filterMap Visit.left? = [i] := by
  simp [following, List.filterMap_append, Visit.left?]

/-- Stops that are still to be made have not been made. -/
theorem Along.notMem {made agenda : List Visit} {v w : Visit} (h : t.Along made (v :: agenda))
    (hw : w ∈ t.stretch v) : w ∉ made := by
  have hnodup : (made ++ (v :: agenda).flatMap t.stretch).Nodup := by
    rw [h.append_eq]
    exact t.nodup_tourFrom root
  rw [List.nodup_append] at hnodup
  intro hmade
  exact hnodup.2.2 w hmade w (by simp [hw]) rfl

/-- Stops are made once. -/
theorem Along.nodup {made agenda : List Visit} (h : t.Along made agenda) : made.Nodup := by
  have hnodup := t.nodup_tourFrom root
  rw [← tour, ← h.append_eq] at hnodup
  exact (List.nodup_append.1 hnodup).1

/-- Entering a node opens it. -/
theorem openAfter_enter {made : List Visit} {i : Nat} (hleave : Visit.leave i ∉ made) :
    openAfter (made ++ [.enter i]) = i :: openAfter made := by
  simp [openAfter, List.filterMap_append, List.filter_append, Visit.entered?, hleave]

/-- Leaving a node closes it and no other. -/
theorem openAfter_leave (made : List Visit) (i : Nat) :
    openAfter (made ++ [.leave i]) = (openAfter made).filter (· ≠ i) := by
  simp [openAfter, List.filterMap_append, Visit.entered?, List.filter_reverse, List.filter_filter,
    Bool.and_comm]

/-- No node is open twice. -/
theorem nodup_openAfter {made : List Visit} (h : made.Nodup) : (openAfter made).Nodup := by
  refine List.nodup_reverse.2 ((h.filterMap fun v w i hv hw => ?_).filter _)
  cases v <;> cases w <;> simp_all [Visit.entered?]

/-- The agenda leaves the nodes that are open, the last one first. -/
theorem Along.left_agenda {made agenda : List Visit} (h : t.Along made agenda) :
    agenda.filterMap Visit.left? = openAfter made := by
  induction h with
  | start => rfl
  | @stop made agenda v h ih =>
    cases v with
    | enter i =>
      have hleave : Visit.leave i ∉ made := by
        refine h.notMem ?_
        rw [stretch, tourFrom_eq]
        simp
      rw [List.filterMap_append, left_following_enter, openAfter_enter hleave]
      exact congrArg (i :: ·) ih
    | leave i =>
      have hopen : openAfter made = i :: agenda.filterMap Visit.left? := ih.symm
      have hnodup := nodup_openAfter h.nodup
      rw [hopen, List.nodup_cons] at hnodup
      have hne : ∀ j ∈ agenda.filterMap Visit.left?, j ≠ i :=
        fun j hj heq => hnodup.1 (heq ▸ hj)
      rw [openAfter_leave, hopen, List.filter_cons_of_neg (by simp)]
      exact (List.filter_eq_self.2 fun j hj => decide_eq_true (hne j hj)).symm

end SdkLint.Tree
