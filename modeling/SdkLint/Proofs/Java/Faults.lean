import Mathlib.Data.List.Basic
import SdkLint.Java.Parse

/-!
# The place of the first syntax error

The search for the first fault of a concrete tree passes over subtrees that are marked as free of
errors.  Where the marks tell the truth it finds what a scan of all nodes in pre-order finds, be it a
construct or a piece of punctuation, at any depth.

Main definitions:

- `Concrete.subtrees`: a tree and everything below it, in pre-order.
- `Concrete.MarksFaults`: a tree whose marks tell the truth.

Main results:

- Theorem `Concrete.searchFault_eq_find?`: the search finds what the scan finds.
- Theorem `Concrete.errorPosition_eq`: the place of the first syntax error is that of the first fault
  in pre-order, and the beginning of the tree if there is none.
-/

namespace SdkLint.Java

namespace Concrete

/-! ## Scans -/

mutual

/-- A tree and everything below it in pre-order, keywords and punctuation included. -/
def subtrees : Concrete → List Concrete
  | node info children => node info children :: subtreesOf children

/-- Some trees and everything below them in pre-order. -/
def subtreesOf : List Concrete → List Concrete
  | [] => []
  | c :: rest => c.subtrees ++ subtreesOf rest

end

theorem subtreesOf_eq (trees : List Concrete) : subtreesOf trees = trees.flatMap subtrees := by
  induction trees with
  | nil => rfl
  | cons c rest ih => rw [subtreesOf, ih, List.flatMap_cons]

theorem subtrees_eq (c : Concrete) : c.subtrees = c :: c.children.flatMap subtrees := by
  obtain ⟨info, below⟩ := c
  rw [subtrees, subtreesOf_eq]
  rfl

theorem mem_subtrees_self (c : Concrete) : c ∈ c.subtrees := by
  rw [subtrees_eq]
  exact List.mem_cons_self

/-- What lies in a child lies in the tree. -/
theorem mem_subtrees_of_mem_children {c child d : Concrete} (hchild : child ∈ c.children)
    (hd : d ∈ child.subtrees) : d ∈ c.subtrees := by
  rw [subtrees_eq]
  exact List.mem_cons_of_mem _ (List.mem_flatMap.2 ⟨child, hchild, hd⟩)

/-- The first fault among the nodes of some trees, read off the pre-order of all of them. -/
def scanFault (trees : List Concrete) : Option Info :=
  ((trees.flatMap subtrees).map info).find? Info.isFault

theorem scanFault_cons (c : Concrete) (rest : List Concrete) :
    scanFault (c :: rest) =
      if c.info.isFault then some c.info else scanFault (c.children ++ rest) := by
  rw [scanFault, scanFault, List.flatMap_cons, subtrees_eq, List.flatMap_append, List.cons_append,
    List.map_cons, List.find?_cons]
  cases c.info.isFault <;> rfl

/-! ## Marks -/

/-- A tree whose marks tell the truth: a node is marked as erroneous exactly if it is a fault or has
one below it. -/
def MarksFaults (c : Concrete) : Prop :=
  ∀ d ∈ c.subtrees, d.info.hasError = true ↔ ∃ e ∈ d.subtrees, e.info.isFault = true

instance (c : Concrete) : Decidable c.MarksFaults :=
  inferInstanceAs (Decidable (∀ d ∈ c.subtrees, _))

theorem MarksFaults.child {c child : Concrete} (h : c.MarksFaults) (hchild : child ∈ c.children) :
    child.MarksFaults := by
  intro d hd
  exact h d (mem_subtrees_of_mem_children hchild hd)

/-- A tree that is truthfully marked as free of errors has nothing to be found by a scan. -/
theorem MarksFaults.scanFault_cons {c : Concrete} (h : c.MarksFaults)
    (hclean : c.info.hasError = false) (rest : List Concrete) :
    scanFault (c :: rest) = scanFault rest := by
  have hnone : (c.subtrees.map info).find? Info.isFault = none := by
    rw [List.find?_eq_none]
    intro fact hfact hfault
    obtain ⟨d, hd, rfl⟩ := List.mem_map.1 hfact
    have hmarked := (h c c.mem_subtrees_self).2 ⟨d, hd, hfault⟩
    rw [hclean] at hmarked
    cases hmarked
  rw [scanFault, List.flatMap_cons, List.map_append, List.find?_append, hnone, Option.none_or]
  rfl

/-! ## The search -/

/-- The search passes over subtrees and finds what the scan finds. -/
theorem searchFault_eq_find? {agenda : List Concrete} (h : ∀ c ∈ agenda, c.MarksFaults) :
    searchFault agenda = scanFault agenda := by
  fun_induction searchFault agenda with
  | case1 => rfl
  | case2 c rest hfault =>
    rw [Concrete.scanFault_cons, if_pos hfault]
  | case3 c rest hfault hmarked ih =>
    -- The children take the place of the tree; their marks are marks of the tree.
    rw [Concrete.scanFault_cons, if_neg hfault]
    apply ih
    intro d hd
    rcases List.mem_append.1 hd with hd | hd
    · exact (h c List.mem_cons_self).child hd
    · exact h d (List.mem_cons_of_mem _ hd)
  | case4 c rest hfault hmarked ih =>
    have hclean : c.info.hasError = false := Bool.eq_false_iff.2 hmarked
    rw [(h c List.mem_cons_self).scanFault_cons hclean]
    apply ih
    intro d hd
    exact h d (List.mem_cons_of_mem _ hd)

/-- Where the marks tell the truth, the place of the first syntax error is the beginning of the first
fault in pre-order, counted from one, and the beginning of the tree if there is no fault.  It is the
place that is reported for a text with an error. -/
theorem errorPosition_eq (c : Concrete) (marked : c.MarksFaults) :
    (c.errorPosition =
      match c.subtrees.find? fun d => d.info.isFault with
      | some fault => ⟨fault.info.point.row + 1, fault.info.point.column + 1⟩
      | none => ⟨c.info.point.row + 1, c.info.point.column + 1⟩) ∧
    ∀ source, (∃ d ∈ c.subtrees, d.info.isFault = true) →
      parse c source = .error (.syntaxError c.errorPosition) := by
  constructor
  · have hfound : c.firstFault = (c.subtrees.find? fun d => d.info.isFault).map info := by
      have hmarks : ∀ d ∈ [c], d.MarksFaults := by
        intro d hd
        rwa [List.mem_singleton.1 hd]
      rw [firstFault, searchFault_eq_find? hmarks, scanFault, List.flatMap_singleton, List.find?_map]
      rfl
    rw [errorPosition, hfound]
    cases c.subtrees.find? fun d => d.info.isFault <;> rfl
  · intro source hfault
    have hmarked : c.info.hasError = true := (marked c c.mem_subtrees_self).2 hfault
    rw [parse, if_pos hmarked]

/-- The tree of a text with two classes.  The first one has no errors; the second one lacks a closing
parenthesis and goes on with a word that does not belong there. -/
def brokenConcrete : Concrete :=
  (ofRows? "class A {}\nclass B { void m( { } oops }"
    [{ depth := 0, kind := "program", start := 0, stop := 39 },
      { depth := 1, kind := "class_declaration", start := 0, stop := 10 },
      { depth := 2, kind := "class", start := 0, stop := 5, named := false },
      { depth := 2, kind := "identifier", start := 6, stop := 7, field := some "name" },
      { depth := 2, kind := "class_body", start := 8, stop := 10 },
      { depth := 1, kind := "class_declaration", start := 11, stop := 39 },
      { depth := 2, kind := "class", start := 11, stop := 16, named := false },
      { depth := 2, kind := "identifier", start := 17, stop := 18, field := some "name" },
      { depth := 2, kind := "class_body", start := 19, stop := 39 },
      { depth := 3, kind := "method_declaration", start := 21, stop := 32 },
      { depth := 4, kind := "void_type", start := 21, stop := 25 },
      { depth := 4, kind := "identifier", start := 26, stop := 27, field := some "name" },
      { depth := 4, kind := "formal_parameters", start := 27, stop := 28 },
      { depth := 5, kind := "(", start := 27, stop := 28, named := false },
      { depth := 5, kind := ")", start := 28, stop := 28, named := false, missing := true },
      { depth := 4, kind := "block", start := 29, stop := 32 },
      { depth := 3, kind := "ERROR", start := 33, stop := 37 }] true).get (by decide +kernel)

/-- The missing parenthesis is the first fault, and its place is reported. -/
theorem brokenConcrete_errorPosition :
    brokenConcrete.MarksFaults ∧ brokenConcrete.errorPosition = ⟨2, 18⟩ ∧
      parse brokenConcrete "" = .error (.syntaxError ⟨2, 18⟩) := by
  have hmarked : brokenConcrete.MarksFaults := by decide +kernel
  have hfault : ∃ d ∈ brokenConcrete.subtrees, d.info.isFault = true := by decide +kernel
  obtain ⟨hposition, hparse⟩ := errorPosition_eq brokenConcrete hmarked
  have hfirst : (brokenConcrete.subtrees.find? fun d => d.info.isFault).map
      (fun d => d.info.point) = some ⟨1, 17⟩ := by decide +kernel
  have hplace : brokenConcrete.errorPosition = ⟨2, 18⟩ := by
    obtain ⟨fault, hfound, hpoint⟩ := Option.map_eq_some_iff.1 hfirst
    rw [hposition, hfound]
    simp [hpoint]
  exact ⟨hmarked, hplace, hplace ▸ hparse "" hfault⟩

end Concrete

end SdkLint.Java
