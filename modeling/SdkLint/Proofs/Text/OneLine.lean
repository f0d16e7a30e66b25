import Mathlib.Data.List.Basic
import SdkLint.Files.Path
import SdkLint.Proofs.Text.Occurrences

/-!
# Texts on one line

A text without a line feed stays on one line.  So does what is put together from such texts, what is
cut out of them, and what is made of them by replacing one text by another.

Main definitions:

- `OneLine`: a text without a line feed.
- `countFeeds`: the number of line feeds of a text.

Main results:

- Theorem `oneLine_append`: texts on one line make up a text on one line.
- Theorem `OneLine.replace`: so do they if one takes the place of a part of another.
- Theorem `Path.oneLine_relativeTo?`: what remains of a path on one line is on one line.
-/

namespace SdkLint

namespace Text

/-- A text without a line feed. -/
def OneLine (s : String) : Prop :=
  '\n' ∉ s.toList

instance (s : String) : Decidable (OneLine s) :=
  inferInstanceAs (Decidable (_ ∉ _))

/-- The number of line feeds of a text. -/
def countFeeds (s : String) : Nat :=
  s.toList.count '\n'

theorem countFeeds_eq_zero {s : String} : countFeeds s = 0 ↔ OneLine s :=
  List.count_eq_zero

theorem countFeeds_append (s r : String) : countFeeds (s ++ r) = countFeeds s + countFeeds r := by
  rw [countFeeds, String.toList_append, List.count_append, countFeeds, countFeeds]

@[simp]
theorem oneLine_append {s r : String} : OneLine (s ++ r) ↔ OneLine s ∧ OneLine r := by
  rw [OneLine, String.toList_append, List.mem_append, not_or, OneLine, OneLine]

@[simp]
theorem oneLine_ite {p : Prop} [Decidable p] {s r : String} :
    OneLine (if p then s else r) ↔ if p then OneLine s else OneLine r := by
  split <;> rfl

theorem OneLine.getD {value : Option String} (h : ∀ s ∈ value, OneLine s) {other : String}
    (hother : OneLine other) : OneLine (value.getD other) := by
  cases value with
  | none => exact hother
  | some s => exact h s rfl

@[simp]
theorem oneLine_repr (n : Nat) : OneLine n.repr := by
  rw [OneLine, ← Nat.toString_eq_repr, Nat.toString_eq_ofList_toDigits, String.toList_ofList]
  intro hmem
  have hdigit : Char.isDigit '\n' = true :=
    Nat.isDigit_of_mem_toDigits (by decide) (by decide) hmem
  exact absurd hdigit (by decide)

/-! ## Replacement -/

/-- What a replacement yields is made of the text and of the replacement. -/
theorem mem_of_mem_replaceAll {pattern replacement cs : List Char} {c : Char}
    (h : c ∈ replaceAll pattern replacement cs) : c ∈ cs ∨ c ∈ replacement := by
  by_cases hinside : pattern <:+: cs ∧ pattern ≠ []
  · obtain ⟨⟨before, after⟩, hcut⟩ := Option.isSome_iff_exists.1 (isSome_cutAt_iff.2 hinside.1)
    have hlength := cutAt_length hcut hinside.2
    have hcs := eq_append_of_cutAt hcut
    rw [replaceAll_of_cutAt hinside.2 hcut, List.mem_append, List.mem_append] at h
    rcases h with (hbefore | hreplacement) | hlater
    · exact .inl (hcs ▸ List.mem_append_left _ hbefore)
    · exact .inr hreplacement
    · refine (mem_of_mem_replaceAll hlater).imp_left fun hafter => ?_
      exact hcs ▸ List.mem_append_right _ (List.mem_append_right _ hafter)
  · rcases not_and_or.1 hinside with hinside | hempty
    · rw [replaceAll_eq_self hinside] at h
      exact .inl h
    · rw [replaceAll, dif_pos (not_not.1 hempty)] at h
      exact .inl h
termination_by cs.length

/-- A text on one line that takes the place of a part of another leaves it on one line. -/
theorem OneLine.replace {s replacement : String} (h : OneLine s) (hreplacement : OneLine replacement)
    (pattern : String) : OneLine (Text.replace pattern replacement s) := by
  rw [OneLine, Text.replace, String.toList_ofList]
  exact fun hmem => (mem_of_mem_replaceAll hmem).elim h hreplacement

/-! ## Pieces -/

theorem mem_of_mem_splitOn {sep c : Char} {cs piece : List Char} (hpiece : piece ∈ splitOn sep cs)
    (hc : c ∈ piece) : c ∈ cs := by
  rcases splitOn_cases sep cs with ⟨-, hsplit⟩ | ⟨first, rest, -, rfl, hsplit⟩
  · rw [hsplit, List.mem_singleton] at hpiece
    exact hpiece ▸ hc
  · rw [hsplit, List.mem_cons] at hpiece
    rcases hpiece with rfl | hlater
    · exact List.mem_append_left _ hc
    · exact List.mem_append_right _ (List.mem_cons_of_mem _ (mem_of_mem_splitOn hlater hc))
termination_by cs.length

end Text

/-! ## Paths -/

namespace Path

open Text

theorem mem_of_mem_parts {path : String} {piece : List Char} (hpiece : piece ∈ (parts path).2)
    {c : Char} (hc : c ∈ piece) : c ∈ path.toList := by
  unfold parts at hpiece
  split at hpiece
  case h_1 rest hpath => exact hpath ▸ List.mem_cons_of_mem _ (mem_of_mem_splitOn hpiece hc)
  case h_2 => cases hpiece
  case h_3 rest hpath =>
    change piece ∈ splitOn '/' ('/' :: rest) at hpiece
    have hmem : c ∈ '/' :: rest := mem_of_mem_splitOn hpiece hc
    exact hpath ▸ List.mem_cons_of_mem _ hmem
  case h_4 => exact mem_of_mem_splitOn hpiece hc

theorem dropVoidEnd_sublist (pieces : List (List Char)) :
    (dropVoidEnd pieces).Sublist pieces := by
  rw [← List.reverse_sublist, dropVoidEnd, List.reverse_reverse]
  exact List.dropWhile_sublist _

theorem dropComponents_sublist (n : Nat) (pieces : List (List Char)) :
    (dropComponents n pieces).Sublist pieces := by
  induction pieces generalizing n with
  | nil => cases n <;> exact List.Sublist.refl _
  | cons piece pieces ih =>
    unfold dropComponents
    split
    · exact (ih n).cons _
    · cases n with
      | zero => exact List.Sublist.refl _
      | succ n => exact (ih n).cons _

theorem oneLine_ofPieces {pieces : List (List Char)} (h : ∀ piece ∈ pieces, '\n' ∉ piece) :
    OneLine (ofPieces pieces) := by
  rw [OneLine, ofPieces, Text.join, String.toList_intercalate, List.map_map]
  refine notMem_intercalate (by decide) fun piece hpiece => ?_
  obtain ⟨cs, hcs, rfl⟩ := List.mem_map.1 hpiece
  rw [Function.comp_apply, String.toList_ofList]
  exact h cs hcs

/-- What remains of a path on one line is on one line. -/
theorem oneLine_relativeTo? {base path rest : String} (h : OneLine path)
    (hrest : relativeTo? base path = some rest) : OneLine rest := by
  have hpieces : ∀ pieces : List (List Char), pieces.Sublist (parts path).2 →
      OneLine (ofPieces (dropVoidEnd pieces)) := by
    intro pieces hsublist
    refine oneLine_ofPieces fun piece hpiece hmem => h (mem_of_mem_parts ?_ hmem)
    exact ((dropVoidEnd_sublist pieces).trans hsublist).subset hpiece
  unfold relativeTo? at hrest
  dsimp only at hrest
  split at hrest
  · obtain rfl := Option.some.inj hrest
    refine oneLine_append.2 ⟨?_, hpieces _ (List.Sublist.refl _)⟩
    split <;> decide
  · split at hrest
    · obtain rfl := Option.some.inj hrest
      exact hpieces _ (dropComponents_sublist _ _)
    · cases hrest

end Path

end SdkLint
