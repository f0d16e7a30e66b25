import Mathlib.Data.List.Basic
import Mathlib.Data.List.TakeWhile
import SdkLint.Proofs.Text.Stretches

/-!
# What cutting a text finds

A text that is put together from a beginning, pieces, separators and blanks is taken apart again
where it was put together, as long as the parts do not contain what separates them.

Main results:

- Theorem `dropPrefix?_append`: a beginning is found.
- Theorem `trimBoth_eq_self`: nothing is taken off a text that neither begins nor ends with a blank.
- Theorem `map_trimBoth_splitOn_intercalate`: pieces are found that separators and blanks were put
  between.
- Theorem `splitOn_prefix_iff`: the pieces of a name begin those of a text if the text is the name,
  with nothing behind it or a separator.
- Theorem `cutAt_doubled`: a doubled character is found, or one character before it.
-/

namespace SdkLint.Text

/-! ## Beginnings and ends -/

theorem dropPrefix?_append (beginning rest : List Char) :
    dropPrefix? beginning (beginning ++ rest) = some rest := by
  induction beginning with
  | nil => rfl
  | cons p ps ih => rw [List.cons_append, dropPrefix?, if_pos rfl, ih]

/-- An end is not found where another character stands last. -/
theorem dropSuffix?_of_getLast?_ne {ending cs : List Char} (hending : ending ≠ [])
    (h : cs.getLast? ≠ ending.getLast?) : dropSuffix? ending cs = none := by
  cases hdrop : dropSuffix? ending cs with
  | none => rfl
  | some rest =>
    rw [eq_append_of_dropSuffix? hdrop, List.getLast?_append_of_ne_nil _ hending] at h
    exact absurd rfl h

theorem dropSuffix?_append (cs ending : List Char) :
    dropSuffix? ending (cs ++ ending) = some cs := by
  rw [dropSuffix?, List.reverse_append, dropPrefix?_append, Option.map_some, List.reverse_reverse]

theorem endsWith_iff {ending s : String} :
    endsWith ending s = true ↔ ∃ front, s = front ++ ending := by
  rw [endsWith, List.isSuffixOf_iff_suffix]
  constructor
  · rintro ⟨front, hfront⟩
    exact ⟨String.ofList front, String.toList_injective (by simp [hfront])⟩
  · rintro ⟨front, rfl⟩
    exact ⟨front.toList, by rw [String.toList_append]⟩

/-- What stands before the first of some marks is found. -/
theorem takeWhile_append_of_notMem {mark : Char} {cs : List Char} (h : mark ∉ cs)
    (rest : List Char) : (cs ++ mark :: rest).takeWhile (· != mark) = cs := by
  have hall : ∀ c ∈ cs, (c != mark) = true := by
    intro c hc
    simpa using ne_of_mem_of_not_mem hc h
  rw [List.takeWhile_append_of_pos hall, List.takeWhile_cons_of_neg (by simp), List.append_nil]

/-! ## Blanks -/

section Blanks

variable {cs : List Char}

theorem trimStart_eq_self (h : ∀ c ∈ cs.head?, isBlank c = false) : trimStart cs = cs := by
  cases cs with
  | nil => rfl
  | cons c cs => exact List.dropWhile_cons_of_neg (by simp [h c rfl])

theorem trimEnd_eq_self (h : ∀ c ∈ cs.getLast?, isBlank c = false) : trimEnd cs = cs := by
  rw [← List.head?_reverse] at h
  have hreverse : cs.reverse.dropWhile isBlank = cs.reverse := trimStart_eq_self h
  rw [trimEnd, hreverse, List.reverse_reverse]

/-- Nothing is taken off a text that neither begins nor ends with a blank. -/
theorem trimBoth_eq_self (hstart : ∀ c ∈ cs.head?, isBlank c = false)
    (hend : ∀ c ∈ cs.getLast?, isBlank c = false) : trimBoth cs = cs := by
  rw [trimBoth, trimStart_eq_self hstart, trimEnd_eq_self hend]

theorem trimBoth_cons {c : Char} (h : isBlank c = true) (cs : List Char) :
    trimBoth (c :: cs) = trimBoth cs := by
  rw [trimBoth, trimBoth, trimStart, List.dropWhile_cons_of_pos h, trimStart]

theorem trimBoth_concat {c : Char} (h : isBlank c = true) (cs : List Char) :
    trimBoth (cs ++ [c]) = trimBoth cs := by
  have hstart : trimStart (cs ++ [c]) = trimStart cs ++ [c] ∨
      trimStart (cs ++ [c]) = [] ∧ trimStart cs = [] := by
    rw [trimStart, trimStart, List.dropWhile_append]
    split
    · rename_i hempty
      exact .inr ⟨List.dropWhile_cons_of_pos h, List.isEmpty_iff.1 hempty⟩
    · exact .inl rfl
  rcases hstart with hstart | ⟨hnew, hold⟩
  · rw [trimBoth, trimBoth, hstart, trimEnd, trimEnd, List.reverse_append, List.reverse_singleton,
      List.singleton_append, List.dropWhile_cons_of_pos h]
  · rw [trimBoth, trimBoth, hnew, hold]

theorem trimBoth_sublist (cs : List Char) : (trimBoth cs).Sublist cs := by
  have hend : (trimEnd (trimStart cs)).Sublist (trimStart cs) := by
    rw [← List.reverse_sublist, trimEnd, List.reverse_reverse]
    exact List.dropWhile_sublist _
  exact hend.trans (List.dropWhile_sublist _)

/-- Something is left of a text with a character that is not blank. -/
theorem trimBoth_ne_nil {c : Char} (hmem : c ∈ cs) (hc : isBlank c = false) : trimBoth cs ≠ [] := by
  have hstart : c ∈ trimStart cs := by
    rw [← List.takeWhile_append_dropWhile (p := isBlank) (l := cs), List.mem_append] at hmem
    refine hmem.resolve_left fun htake => ?_
    rw [List.mem_takeWhile_imp htake] at hc
    cases hc
  rw [trimBoth, trimEnd, ne_eq, List.reverse_eq_nil_iff, List.dropWhile_eq_nil_iff]
  intro hall
  rw [hall c (List.mem_reverse.2 hstart)] at hc
  cases hc

end Blanks

/-! ## Pieces -/

section Pieces

variable {sep : Char}

theorem splitOn_ne_nil (sep : Char) (cs : List Char) : splitOn sep cs ≠ [] := by
  rcases splitOn_cases sep cs with ⟨-, hsplit⟩ | ⟨piece, rest, -, -, hsplit⟩
  · rw [hsplit]
    exact List.cons_ne_nil _ _
  · rw [hsplit]
    exact List.cons_ne_nil _ _

theorem splitOn_of_notMem {cs : List Char} (h : sep ∉ cs) : splitOn sep cs = [cs] := by
  rcases splitOn_cases sep cs with ⟨-, hsplit⟩ | ⟨piece, rest, -, rfl, -⟩
  · exact hsplit
  · simp at h

/-- A separator ends the pieces before it and opens the ones behind it. -/
theorem splitOn_at_separator (before rest : List Char) :
    splitOn sep (before ++ sep :: rest) = splitOn sep before ++ splitOn sep rest := by
  induction before with
  | nil => simp [splitOn]
  | cons c before ih =>
    rw [List.cons_append, splitOn, splitOn, ih]
    split
    · rfl
    · rcases splitOn_cases sep before with ⟨-, hsplit⟩ | ⟨piece, after, -, -, hsplit⟩ <;>
        rw [hsplit] <;> rfl

theorem splitOn_append {piece : List Char} (h : sep ∉ piece) (rest : List Char) :
    splitOn sep (piece ++ sep :: rest) = piece :: splitOn sep rest := by
  rw [splitOn_at_separator, splitOn_of_notMem h, List.singleton_append]

/-- Of two lists of pieces one behind the other, the last piece of the first and the first piece of
the second have the separator between them. -/
theorem intercalate_append {between : List Char} {front back : List (List Char)}
    (hfront : front ≠ []) (hback : back ≠ []) :
    between.intercalate (front ++ back) =
      between.intercalate front ++ (between ++ between.intercalate back) := by
  induction front with
  | nil => exact absurd rfl hfront
  | cons piece front ih =>
    rw [List.cons_append,
      List.intercalate_cons_of_ne_nil (List.append_ne_nil_of_right_ne_nil _ hback)]
    cases front with
    | nil => rw [List.intercalate_singleton, List.nil_append, List.append_assoc]
    | cons next front =>
      rw [ih (List.cons_ne_nil _ _), List.intercalate_cons_cons]
      simp only [List.append_assoc]

/-- A text is its pieces with separators between them. -/
theorem intercalate_splitOn (cs : List Char) : [sep].intercalate (splitOn sep cs) = cs := by
  induction cs with
  | nil => rfl
  | cons c cs ih =>
    obtain ⟨piece, later, hsplit⟩ := List.exists_cons_of_ne_nil (splitOn_ne_nil sep cs)
    rw [splitOn]
    split
    · rename_i hc
      rw [List.intercalate_cons_of_ne_nil (splitOn_ne_nil sep cs), ih, hc]
      rfl
    · rw [hsplit] at ih ⊢
      rw [← ih]
      cases later with
      | nil => rw [List.intercalate_singleton, List.intercalate_singleton]
      | cons next later => rw [List.intercalate_cons_cons, List.intercalate_cons_cons]; rfl

/-- What neither a piece nor the separator holds is not in the whole. -/
theorem notMem_intercalate {c : Char} {between : List Char} (hbetween : c ∉ between)
    {pieces : List (List Char)} (h : ∀ piece ∈ pieces, c ∉ piece) :
    c ∉ between.intercalate pieces := by
  induction pieces with
  | nil => exact List.not_mem_nil
  | cons piece pieces ih =>
    obtain ⟨hpiece, hrest⟩ := List.forall_mem_cons.1 h
    cases pieces with
    | nil => rwa [List.intercalate_singleton]
    | cons next pieces =>
      rw [List.intercalate_cons_cons, List.mem_append, List.mem_append]
      rintro ((hmem | hmem) | hmem)
      · exact hpiece hmem
      · exact hbetween hmem
      · exact ih hrest hmem

/-- A blank at the beginning makes no difference to the pieces without blanks around them. -/
theorem map_trimBoth_splitOn_cons {c : Char} (hblank : isBlank c = true) (hsep : c ≠ sep)
    (cs : List Char) :
    (splitOn sep (c :: cs)).map trimBoth = (splitOn sep cs).map trimBoth := by
  rw [splitOn, if_neg hsep]
  rcases splitOn_cases sep cs with ⟨-, hsplit⟩ | ⟨piece, rest, -, -, hsplit⟩
  · rw [hsplit, List.map_cons, List.map_cons, trimBoth_cons hblank]
  · rw [hsplit, List.map_cons, List.map_cons, trimBoth_cons hblank]

/-- Pieces are found that a separator and a blank were put between. -/
theorem map_trimBoth_splitOn_intercalate {c : Char} (hblank : isBlank c = true) (hsep : c ≠ sep)
    {pieces : List (List Char)} (hpieces : pieces ≠ []) (h : ∀ piece ∈ pieces, sep ∉ piece) :
    (splitOn sep ([sep, c].intercalate pieces)).map trimBoth = pieces.map trimBoth := by
  induction pieces with
  | nil => exact absurd rfl hpieces
  | cons piece pieces ih =>
    obtain ⟨hpiece, hrest⟩ := List.forall_mem_cons.1 h
    cases pieces with
    | nil => rw [List.intercalate_singleton, splitOn_of_notMem hpiece]
    | cons next pieces =>
      calc
        (splitOn sep ([sep, c].intercalate (piece :: next :: pieces))).map trimBoth =
            (splitOn sep
              (piece ++ sep :: c :: [sep, c].intercalate (next :: pieces))).map trimBoth := by
          rw [List.intercalate_cons_cons, List.append_assoc]
          rfl
        _ = trimBoth piece :: (splitOn sep (c :: [sep, c].intercalate (next :: pieces))).map
              trimBoth := by
          rw [splitOn_append hpiece, List.map_cons]
        _ = (piece :: next :: pieces).map trimBoth := by
          rw [map_trimBoth_splitOn_cons hblank hsep, ih (List.cons_ne_nil _ _) hrest,
            ← List.map_cons]

/-- The pieces of a name begin those of a text if the text is the name, with nothing behind it or a
separator. -/
theorem splitOn_prefix_iff {name cs : List Char} : splitOn sep name <+: splitOn sep cs ↔
    cs = name ∨ ∃ rest, cs = name ++ sep :: rest := by
  constructor
  · rintro ⟨more, hmore⟩
    have hcs : cs = [sep].intercalate (splitOn sep name ++ more) := by
      rw [hmore, intercalate_splitOn]
    rcases eq_or_ne more [] with rfl | hne
    · rw [List.append_nil, intercalate_splitOn] at hcs
      exact .inl hcs
    · rw [intercalate_append (splitOn_ne_nil sep name) hne, intercalate_splitOn] at hcs
      exact .inr ⟨_, hcs⟩
  · rintro (rfl | ⟨rest, rfl⟩)
    · exact List.prefix_refl _
    · rw [splitOn_at_separator]
      exact List.prefix_append _ _

/-- There are more pieces of the text if a separator stands behind the name. -/
theorem splitOn_strictPrefix_iff {name cs : List Char} :
    splitOn sep name <+: splitOn sep cs ∧ splitOn sep name ≠ splitOn sep cs ↔
      ∃ rest, cs = name ++ sep :: rest := by
  rw [splitOn_prefix_iff]
  constructor
  · rintro ⟨rfl | hbehind, hne⟩
    · exact absurd rfl hne
    · exact hbehind
  · rintro ⟨rest, rfl⟩
    refine ⟨.inr ⟨rest, rfl⟩, fun heq => splitOn_ne_nil sep rest ?_⟩
    rw [splitOn_at_separator] at heq
    exact List.self_eq_append_right.1 heq

end Pieces

/-! ## Doubled characters -/

/-- A doubled character that stands behind a text without it is found there, or one character
earlier if the text ends with the character. -/
theorem cutAt_doubled {c : Char} {before : List Char} (h : ¬ [c, c] <:+: before)
    (rest : List Char) : ∃ upTo lead, cutAt [c, c] (before ++ c :: c :: rest) =
      some (upTo, lead ++ rest) ∧ (lead = [] ∨ lead = [c]) := by
  induction before with
  | nil => exact ⟨[], [], by simp [cutAt, dropPrefix?], Or.inl rfl⟩
  | cons b before ih =>
    rcases before with _ | ⟨d, before⟩
    · by_cases hb : b = c
      · subst hb
        exact ⟨[], [b], by simp [cutAt, dropPrefix?], Or.inr rfl⟩
      · exact ⟨[b], [], by simp [cutAt, dropPrefix?, Ne.symm hb], Or.inl rfl⟩
    · obtain ⟨upTo, lead, hcut, hlead⟩ := ih fun hinside => h (List.infix_cons hinside)
      refine ⟨b :: upTo, lead, ?_, hlead⟩
      have hnone : dropPrefix? [c, c] (b :: d :: (before ++ c :: c :: rest)) = none := by
        cases hdrop : dropPrefix? [c, c] (b :: d :: (before ++ c :: c :: rest)) with
        | none => rfl
        | some after =>
          obtain ⟨rfl, rfl, -⟩ : b = c ∧ d = c ∧ before ++ c :: c :: rest = after := by
            simpa using eq_append_of_dropPrefix? hdrop
          exact absurd (List.prefix_append _ before).isInfix h
      rw [List.cons_append] at hcut
      rw [List.cons_append, List.cons_append, cutAt, hnone]
      simp only [hcut, Option.map_some]

end SdkLint.Text
