import Mathlib.Data.List.Basic
import SdkLint.Finding.Basic

/-!
# Violations in the order of their places

Sorting puts violations in the order of line and column and leaves those at one place as they were.
This determines the result, so that sorting commutes with every selection of violations.

Main definitions:

- `Violation.StablySorted`: a list is another one in the order of places.

Main results:

- Theorem `Violation.stablySorted_sort`: sorting does what it should.
- Theorem `Violation.StablySorted.eq_sort`: there is only one way to do it.
- Theorem `Violation.filterMap_mergeSort`: replacing and dropping after sorting is sorting what is
  left, as long as places stay.
- Theorem `Violation.filter_sort`: selecting after sorting is sorting the selection.
- Theorem `Violation.sort_sublist`: sorting keeps parts of lists parts.
-/

namespace SdkLint.Violation

/-- Whether a violation lies at a line and column. -/
def isAt (line column : Nat) (v : Violation) : Bool :=
  v.location.line == line && v.location.column == column

/-- `StablySorted vs ws`: the violations of `ws` are those of `vs` in the order of their places,
with nothing lost or duplicated, and those at one place are in the order that they have in `vs`. -/
structure StablySorted (vs ws : List Violation) : Prop where
  ordered : ws.Pairwise fun v w => v.placedBefore w
  complete : ws.Perm vs
  stable : ∀ line column, ws.filter (isAt line column) = vs.filter (isAt line column)

/-! ## The order of places -/

theorem placedBefore_iff {v w : Violation} :
    v.placedBefore w ↔ v.location.line < w.location.line ∨
      v.location.line = w.location.line ∧ v.location.column ≤ w.location.column := by
  simp [placedBefore]

theorem placedBefore_trans (u v w : Violation) (huv : u.placedBefore v) (hvw : v.placedBefore w) :
    u.placedBefore w := by
  rw [placedBefore_iff] at *
  omega

theorem placedBefore_total (v w : Violation) : v.placedBefore w || w.placedBefore v := by
  rw [Bool.or_eq_true, placedBefore_iff, placedBefore_iff]
  omega

theorem isAt_self (v : Violation) : v.isAt v.location.line v.location.column := by
  simp [isAt]

/-- Violations that come before or with each other lie at one place. -/
theorem isAt_of_placedBefore {v w : Violation} (hvw : v.placedBefore w) (hwv : w.placedBefore v) :
    w.isAt v.location.line v.location.column := by
  rw [placedBefore_iff] at hvw hwv
  simp only [isAt, Bool.and_eq_true, beq_iff_eq]
  omega

/-! ## Sorting -/

section Keyed

variable {α : Type*} (key : α → Violation) (as : List α)

/-- Things sorted by the violations that they stand for are in the order of places. -/
theorem pairwise_mergeSort :
    (as.mergeSort fun a b => (key a).placedBefore (key b)).Pairwise
      fun a b => (key a).placedBefore (key b) :=
  List.pairwise_mergeSort (fun a b c => placedBefore_trans (key a) (key b) (key c))
    (fun a b => placedBefore_total (key a) (key b)) as

/-- Sorting keeps the order of the things at one place. -/
theorem filter_isAt_mergeSort (line column : Nat) :
    (as.mergeSort fun a b => (key a).placedBefore (key b)).filter
        (fun a => (key a).isAt line column) =
      as.filter fun a => (key a).isAt line column := by
  have hplace : (as.filter fun a => (key a).isAt line column).Pairwise
      fun a b => (key a).placedBefore (key b) := by
    refine List.pairwise_of_forall_mem_list fun a ha b hb => ?_
    have ha := (List.mem_filter.1 ha).2
    have hb := (List.mem_filter.1 hb).2
    simp only [isAt, Bool.and_eq_true, beq_iff_eq] at ha hb
    rw [placedBefore_iff]
    omega
  have hsub := List.sublist_mergeSort (fun a b c => placedBefore_trans (key a) (key b) (key c))
    (fun a b => placedBefore_total (key a) (key b)) hplace List.filter_sublist
  have hsub' := hsub.filter fun a => (key a).isAt line column
  rw [List.filter_filter, List.filter_congr (fun a _ => Bool.and_self _)] at hsub'
  exact (hsub'.eq_of_length ((List.mergeSort_perm as _).filter _).length_eq.symm).symm

end Keyed

theorem pairwise_sort (vs : List Violation) :
    (sort vs).Pairwise fun v w => v.placedBefore w :=
  pairwise_mergeSort id vs

theorem sort_perm (vs : List Violation) : (sort vs).Perm vs :=
  List.mergeSort_perm vs placedBefore

/-- Sorting keeps the order of the violations at one place. -/
theorem filter_isAt_sort (vs : List Violation) (line column : Nat) :
    (sort vs).filter (isAt line column) = vs.filter (isAt line column) :=
  filter_isAt_mergeSort id vs line column

/-- Sorting does what it should. -/
theorem stablySorted_sort (vs : List Violation) : StablySorted vs (sort vs) where
  ordered := pairwise_sort vs
  complete := sort_perm vs
  stable := filter_isAt_sort vs

/-- Lists in the order of places are equal if they are equal at every place. -/
theorem eq_of_filter_isAt {vs ws : List Violation}
    (hvs : vs.Pairwise fun v w => v.placedBefore w)
    (hws : ws.Pairwise fun v w => v.placedBefore w)
    (hplaces : ∀ line column, vs.filter (isAt line column) = ws.filter (isAt line column)) :
    vs = ws := by
  have hmem : ∀ {us us' : List Violation} {u : Violation},
      (∀ line column, us.filter (isAt line column) = us'.filter (isAt line column)) →
      u ∈ us → u ∈ us' := by
    intro us us' u h hu
    have hfilter := List.mem_filter.2 ⟨hu, isAt_self u⟩
    rw [h] at hfilter
    exact (List.mem_filter.1 hfilter).1
  induction vs generalizing ws with
  | nil =>
      cases ws with
      | nil => rfl
      | cons w ws => cases hmem (fun l c => (hplaces l c).symm) List.mem_cons_self
  | cons v vs ih =>
      cases ws with
      | nil => cases hmem hplaces List.mem_cons_self
      | cons w ws =>
          obtain ⟨hv, hvs'⟩ := List.pairwise_cons.1 hvs
          obtain ⟨hw, hws'⟩ := List.pairwise_cons.1 hws
          -- Each of the two heads comes before or with the other, so they lie at one place.
          have hvw : v = w := by
            rcases List.mem_cons.1 (hmem hplaces List.mem_cons_self) with rfl | hvmem
            · rfl
            rcases List.mem_cons.1 (hmem (fun l c => (hplaces l c).symm) List.mem_cons_self)
              with rfl | hwmem
            · rfl
            have hat : w.isAt v.location.line v.location.column :=
              isAt_of_placedBefore (hv w hwmem) (hw v hvmem)
            have heads := hplaces v.location.line v.location.column
            rw [List.filter_cons_of_pos (isAt_self v), List.filter_cons_of_pos hat] at heads
            exact (List.cons.inj heads).1
          subst hvw
          refine congrArg (List.cons v) (ih hvs' hws' fun l c => ?_)
          have htails := hplaces l c
          by_cases hat : v.isAt l c
          · rw [List.filter_cons_of_pos hat, List.filter_cons_of_pos hat] at htails
            exact (List.cons.inj htails).2
          · rwa [List.filter_cons_of_neg hat, List.filter_cons_of_neg hat] at htails

/-- There is only one way to put violations in the order of their places. -/
theorem StablySorted.eq_sort {vs ws : List Violation} (h : StablySorted vs ws) : ws = sort vs := by
  refine eq_of_filter_isAt h.ordered (pairwise_sort vs) fun line column => ?_
  rw [h.stable, filter_isAt_sort]

/-- Replacing and dropping after sorting is sorting what is left, as long as places stay. -/
theorem filterMap_mergeSort {α : Type*} (key : α → Violation) (f : α → Option Violation)
    (hf : ∀ a v, f a = some v → v.location = (key a).location) (as : List α) :
    (as.mergeSort fun a b => (key a).placedBefore (key b)).filterMap f =
      sort (as.filterMap f) := by
  have hplace : ∀ a v, f a = some v → ∀ w, v.placedBefore w = (key a).placedBefore w ∧
      w.placedBefore v = w.placedBefore (key a) := by
    intro a v h w
    simp [placedBefore, hf a v h]
  have hat : ∀ line column (as : List α), (as.filterMap f).filter (isAt line column) =
      (as.filter fun a => (key a).isAt line column).filterMap f := by
    intro line column as
    rw [List.filter_filterMap, List.filterMap_filter]
    refine List.filterMap_congr fun a _ => ?_
    rcases h : f a with _ | v
    · simp
    · simp [Option.filter, isAt, hf a v h]
  refine StablySorted.eq_sort ⟨?_, (List.mergeSort_perm as _).filterMap f, fun line column => ?_⟩
  · refine (pairwise_mergeSort key as).filterMap f fun a b hab v hv w hw => ?_
    rw [(hplace a v hv w).1, (hplace b w hw (key a)).2]
    exact hab
  · rw [hat, filter_isAt_mergeSort, hat]

/-- Selecting after sorting is sorting the selection. -/
theorem filter_sort (p : Violation → Bool) (vs : List Violation) :
    (sort vs).filter p = sort (vs.filter p) := by
  have hguard : ∀ v w, Option.guard p v = some w → w.location = v.location := by
    intro v w h
    rw [(Option.guard_eq_some_iff.1 h).1]
  simpa [List.filterMap_eq_filter, sort] using filterMap_mergeSort id (Option.guard p) hguard vs

/-! ## Parts of a list -/

/-- The part of a list that is left can be marked in it. -/
theorem exists_marked {vs ws : List Violation} (h : vs.Sublist ws) :
    ∃ marked : List (Violation × Bool), marked.map Prod.fst = ws ∧
      (marked.filter Prod.snd).map Prod.fst = vs := by
  induction h with
  | slnil => exact ⟨[], rfl, rfl⟩
  | cons w _ ih =>
      obtain ⟨marked, rfl, rfl⟩ := ih
      exact ⟨(w, false) :: marked, rfl, rfl⟩
  | cons_cons w _ ih =>
      obtain ⟨marked, rfl, rfl⟩ := ih
      exact ⟨(w, true) :: marked, rfl, rfl⟩

/-- What is left of a list is, sorted, what is left of the sorted list. -/
theorem sort_sublist {vs ws : List Violation} (h : vs.Sublist ws) :
    (sort vs).Sublist (sort ws) := by
  -- The marks are carried along, so that the parts are those of one list before and after.
  obtain ⟨marked, rfl, rfl⟩ := exists_marked h
  have hall : (marked.mergeSort fun a b => a.1.placedBefore b.1).map Prod.fst =
      sort (marked.map Prod.fst) :=
    List.map_mergeSort fun _ _ _ _ => rfl
  have hleft : ((marked.mergeSort fun a b => a.1.placedBefore b.1).filter Prod.snd).map Prod.fst =
      sort ((marked.filter Prod.snd).map Prod.fst) := by
    rw [← List.filterMap_eq_filter, List.map_filterMap, List.map_filterMap]
    refine filterMap_mergeSort Prod.fst _ (fun a v h => ?_) marked
    obtain ⟨b, hb, rfl⟩ := Option.map_eq_some_iff.1 h
    rw [(Option.guard_eq_some_iff.1 hb).1]
  rw [← hall, ← hleft]
  exact List.filter_sublist.map Prod.fst

end SdkLint.Violation
