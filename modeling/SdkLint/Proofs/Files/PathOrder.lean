import Mathlib.Data.Prod.Lex
import Mathlib.Data.String.Basic
import SdkLint.Files.Discovery

/-!
# The order of paths

Paths are ordered by their components.  The order is total, and two paths that come before each
other have the same components, so that files with different components have only one order.

Main definitions:

- `Path.Before`: a path comes strictly before another one.
- `FoundFile.sort`: files in the order of their paths.

Main results:

- Theorem `FoundFile.sort_ascending`: files with different components are put in strict order.
- Theorem `FoundFile.sort_eq_of_perm`: the order that they are given in plays no part.
-/

namespace SdkLint

namespace Path

/-! ## Components -/

theorem Component.rank_injective : Function.Injective Component.rank := by
  intro a b h
  cases a <;> cases b <;> simp_all [Component.rank]

/-- The sorts and names of components are compared one after the other. -/
theorem Component.le_iff {a b : Component} : a.le b ↔ toLex a.rank ≤ toLex b.rank := by
  simp [Component.le, Prod.Lex.toLex_le_toLex]

/-- Components other than the first are compared only where the first ones agree. -/
theorem componentsLe_cons {a b : Component} {as bs : List Component} :
    componentsLe (a :: as) (b :: bs) ↔
      toLex a.rank < toLex b.rank ∨ a = b ∧ componentsLe as bs := by
  by_cases hab : a = b
  · simp [componentsLe, hab]
  · have hne : toLex a.rank ≠ toLex b.rank := fun h => hab (Component.rank_injective h)
    simp [componentsLe, hab, Component.le_iff, le_iff_lt_or_eq, hne]

theorem componentsLe_trans {as bs cs : List Component} (hab : componentsLe as bs)
    (hbc : componentsLe bs cs) : componentsLe as cs := by
  induction as generalizing bs cs with
  | nil => rfl
  | cons a as ih =>
    cases bs with
    | nil => cases hab
    | cons b bs =>
      cases cs with
      | nil => cases hbc
      | cons c cs =>
        rw [componentsLe_cons] at *
        rcases hab with hab | ⟨rfl, hab⟩
        · rcases hbc with hbc | ⟨rfl, -⟩
          · exact .inl (hab.trans hbc)
          · exact .inl hab
        · exact hbc.imp id fun ⟨hac, hbc⟩ => ⟨hac, ih hab hbc⟩

theorem componentsLe_total (as bs : List Component) : componentsLe as bs ∨ componentsLe bs as := by
  induction as generalizing bs with
  | nil => exact .inl rfl
  | cons a as ih =>
    cases bs with
    | nil => exact .inr rfl
    | cons b bs =>
      rw [componentsLe_cons, componentsLe_cons]
      rcases lt_trichotomy (toLex a.rank) (toLex b.rank) with hlt | heq | hgt
      · exact .inl (.inl hlt)
      · have hab := Component.rank_injective heq
        exact (ih bs).imp (fun h => .inr ⟨hab, h⟩) fun h => .inr ⟨hab.symm, h⟩
      · exact .inr (.inl hgt)

theorem componentsLe_antisymm {as bs : List Component} (hab : componentsLe as bs)
    (hba : componentsLe bs as) : as = bs := by
  induction as generalizing bs with
  | nil =>
    cases bs with
    | nil => rfl
    | cons b bs => cases hba
  | cons a as ih =>
    cases bs with
    | nil => cases hab
    | cons b bs =>
      rw [componentsLe_cons] at hab hba
      rcases hab with hab | ⟨rfl, hab⟩
      · rcases hba with hba | ⟨rfl, -⟩
        · exact absurd hab hba.asymm
        · exact absurd hab (lt_irrefl _)
      · rcases hba with hba | ⟨-, hba⟩
        · exact absurd hba (lt_irrefl _)
        · rw [ih hab hba]

/-! ## Paths -/

theorem le_trans (a b c : String) (hab : le a b) (hbc : le b c) : le a c :=
  componentsLe_trans hab hbc

theorem le_total (a b : String) : le a b || le b a :=
  Bool.or_eq_true_iff.2 (componentsLe_total (components a) (components b))

/-- A path comes strictly before another one. -/
def Before (a b : String) : Prop :=
  le a b ∧ ¬le b a

instance (a b : String) : Decidable (Before a b) :=
  inferInstanceAs (Decidable (_ ∧ _))

/-- Paths with different components that are in order are in strict order. -/
theorem before_of_le {a b : String} (hle : le a b) (hne : components a ≠ components b) :
    Before a b :=
  ⟨hle, fun hge => hne (componentsLe_antisymm hle hge)⟩

end Path

/-! ## Files -/

namespace FoundFile

/-- Files in the order of their paths. -/
def sort (files : List FoundFile) : List FoundFile :=
  files.mergeSort fun f g => Path.le f.path g.path

theorem sort_perm (files : List FoundFile) : (sort files).Perm files :=
  List.mergeSort_perm files _

theorem pairwise_sort (files : List FoundFile) :
    (sort files).Pairwise fun f g => Path.le f.path g.path :=
  @List.pairwise_mergeSort _ (fun f g : FoundFile => Path.le f.path g.path)
    (fun f g h => Path.le_trans f.path g.path h.path)
    (fun f g => Path.le_total f.path g.path) files

/-- No two of some files have the same path. -/
def Distinct (files : List FoundFile) : Prop :=
  files.Pairwise fun f g => Path.components f.path ≠ Path.components g.path

/-- Files with different paths are put in strict order. -/
theorem sort_ascending {files : List FoundFile} (hdistinct : Distinct files) :
    (sort files).Pairwise fun f g => Path.Before f.path g.path := by
  have hsorted : (sort files).Pairwise fun f g =>
      Path.components f.path ≠ Path.components g.path :=
    hdistinct.perm (sort_perm files).symm fun h => h.symm
  exact (pairwise_sort files).imp₂ (fun _ _ => Path.before_of_le) hsorted

/-- The order in which files with different paths are given plays no part. -/
theorem sort_eq_of_perm {files found : List FoundFile} (hdistinct : Distinct files)
    (hperm : found.Perm files) : sort found = sort files := by
  have hfound : Distinct found := hdistinct.perm hperm.symm fun h => h.symm
  refine List.Perm.eq_of_pairwise (fun f g _ _ hfg hgf => absurd hgf.1 hfg.2)
    (sort_ascending hfound) (sort_ascending hdistinct) ?_
  exact ((sort_perm found).trans hperm).trans (sort_perm files).symm

end FoundFile

end SdkLint
