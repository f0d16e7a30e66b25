import SdkLint.Proofs.Text.Cuts
import SdkLint.Text.Lines

/-!
# Lines by their numbers

A line of a text begins at the beginning or behind a line feed, holds no line feed, and ends at a
line feed, at a carriage return with a line feed, or at the end of the text if it is not empty.  Its
number counts the line feeds before it.  The list of the lines of a text has them in this order.

Main definition:

- `IsLine`: the line of a text with a number, counted from one.

Main results:

- Theorem `lines_cases`: the lines of a text are its first line and those behind it.
- Theorem `isLine_behind_iff`: the lines behind the first one are those of what follows it.
- Theorem `getElem?_lines_eq_some_iff`: the list of lines has every line at its number.
-/

namespace SdkLint.Text

/-! ## Lines of a text -/

/-- What follows a line in its text.  A carriage return before a line feed belongs to the end of the
line, and a line that nothing follows is not empty. -/
inductive EndsLine (line : List Char) : List Char → Prop
  | feed (after : List Char) (h : line.getLast? ≠ some '\r') : EndsLine line ('\n' :: after)
  | returnFeed (after : List Char) : EndsLine line ('\r' :: '\n' :: after)
  | last (h : line ≠ []) : EndsLine line []

/-- The line of a text with a number, counted from one. -/
def IsLine (cs : List Char) (number : Nat) (line : List Char) : Prop :=
  ∃ before after, cs = before ++ (line ++ after) ∧
    (before = [] ∨ before.getLast? = some '\n') ∧ before.count '\n' + 1 = number ∧
    '\n' ∉ line ∧ EndsLine line after

variable {cs line piece rest : List Char}

/-! ## The first line -/

theorem lines_of_notMem (h : '\n' ∉ cs) : lines cs = if cs = [] then [] else [cs] := by
  rw [lines, splitOn_of_notMem h]
  cases cs <;> rfl

theorem lines_append (h : '\n' ∉ piece) (rest : List Char) :
    lines (piece ++ '\n' :: rest) = dropReturn piece :: lines rest := by
  obtain ⟨first, later, hsplit⟩ := List.exists_cons_of_ne_nil (splitOn_ne_nil '\n' rest)
  rw [lines, lines, splitOn_append h, hsplit, List.dropLast_cons_cons, List.map_cons,
    List.getLast?_cons_cons]
  split <;> rfl

/-- The lines of a text are its first line and those behind it. -/
theorem lines_cases (cs : List Char) :
    ('\n' ∉ cs ∧ lines cs = if cs = [] then [] else [cs]) ∨
      ∃ piece rest, '\n' ∉ piece ∧ cs = piece ++ '\n' :: rest ∧
        lines cs = dropReturn piece :: lines rest := by
  rcases splitOn_cases '\n' cs with ⟨hmem, -⟩ | ⟨piece, rest, hpiece, rfl, -⟩
  · exact .inl ⟨hmem, lines_of_notMem hmem⟩
  · exact .inr ⟨piece, rest, hpiece, rfl, lines_append hpiece rest⟩

/-- A line content loses the carriage return that belongs to the end of the line. -/
theorem dropReturn_eq_iff : dropReturn piece = line ↔
    piece = line ++ ['\r'] ∨ piece = line ∧ line.getLast? ≠ some '\r' := by
  rw [dropReturn]
  cases hdrop : dropSuffix? ['\r'] piece with
  | some front =>
    rw [Option.getD_some, eq_append_of_dropSuffix? hdrop, List.append_left_inj]
    constructor
    · exact .inl
    · rintro (heq | ⟨rfl, hlast⟩)
      · exact heq
      · exact absurd List.getLast?_concat hlast
  | none =>
    have hpiece : piece.getLast? ≠ some '\r' := by
      intro hlast
      obtain ⟨front, rfl⟩ := List.getLast?_eq_some_iff.1 hlast
      rw [dropSuffix?_append] at hdrop
      cases hdrop
    rw [Option.getD_none]
    constructor
    · rintro rfl
      exact .inr ⟨rfl, hpiece⟩
    · rintro (rfl | ⟨rfl, -⟩)
      · exact absurd List.getLast?_concat hpiece
      · rfl

theorem isLine_one_iff : IsLine cs 1 line ↔
    ∃ after, cs = line ++ after ∧ '\n' ∉ line ∧ EndsLine line after := by
  constructor
  · rintro ⟨before, after, rfl, hstart, hcount, hline, hends⟩
    have hnone : '\n' ∉ before := List.count_eq_zero.1 (Nat.succ.inj hcount)
    have hempty : before = [] :=
      hstart.resolve_right fun hlast => hnone (List.mem_of_getLast? hlast)
    exact ⟨after, by rw [hempty, List.nil_append], hline, hends⟩
  · rintro ⟨after, rfl, hline, hends⟩
    exact ⟨[], after, rfl, .inl rfl, rfl, hline, hends⟩

/-- A text has one first line feed. -/
theorem append_newline_inj {piece' rest' : List Char} (h : '\n' ∉ piece) (h' : '\n' ∉ piece')
    (heq : piece ++ '\n' :: rest = piece' ++ '\n' :: rest') : piece = piece' ∧ rest = rest' := by
  have hpiece : piece = piece' := by
    rw [← takeWhile_append_of_notMem h rest, heq, takeWhile_append_of_notMem h']
  subst hpiece
  exact ⟨rfl, (List.cons.inj (List.append_cancel_left heq)).2⟩

/-- The first line of a text with a line feed is what stands before it, without the carriage return
that belongs to the end of the line. -/
theorem isLine_append_one_iff (h : '\n' ∉ piece) :
    IsLine (piece ++ '\n' :: rest) 1 line ↔ dropReturn piece = line := by
  rw [isLine_one_iff, dropReturn_eq_iff]
  constructor
  · rintro ⟨after, heq, hline, hends⟩
    cases hends with
    | feed after hlast => exact .inr ⟨(append_newline_inj h hline heq).1, hlast⟩
    | returnFeed after =>
      have hreturn : '\n' ∉ line ++ ['\r'] := by simp [hline]
      rw [List.append_cons line] at heq
      exact .inl (append_newline_inj h hreturn heq).1
    | last hne =>
      rw [List.append_nil] at heq
      exact absurd (heq ▸ by simp) hline
  · rintro (rfl | ⟨rfl, hlast⟩)
    · have hline : '\n' ∉ line := fun hmem => h (List.mem_append_left _ hmem)
      exact ⟨'\r' :: '\n' :: rest, by simp, hline, .returnFeed rest⟩
    · exact ⟨'\n' :: rest, rfl, h, .feed rest hlast⟩

/-! ## Later lines -/

/-- The lines behind the first one are those of what follows it. -/
theorem isLine_behind_iff (h : '\n' ∉ piece) {number : Nat} (hnumber : number ≠ 0) :
    IsLine (piece ++ '\n' :: rest) (number + 1) line ↔ IsLine rest number line := by
  constructor
  · rintro ⟨before, after, heq, hstart, hcount, hline, hends⟩
    have hmem : '\n' ∈ before := List.count_pos_iff.1 (by omega)
    obtain ⟨first, behind, rfl, hfirst⟩ := List.eq_append_cons_of_mem hmem
    rw [List.append_assoc, List.cons_append] at heq
    obtain ⟨rfl, rfl⟩ := append_newline_inj h hfirst heq
    refine ⟨behind, after, rfl, ?_, ?_, hline, hends⟩
    · cases behind with
      | nil => exact .inl rfl
      | cons c behind => simpa [List.getLast?_append] using hstart
    · rw [List.count_append, List.count_cons_self, List.count_eq_zero.2 h] at hcount
      omega
  · rintro ⟨before, after, rfl, hstart, hcount, hline, hends⟩
    refine ⟨piece ++ '\n' :: before, after, by simp, .inr ?_, ?_, hline, hends⟩
    · rcases hstart with rfl | hlast
      · exact List.getLast?_concat
      · simp [List.getLast?_append, List.getLast?_cons, hlast]
    · rw [List.count_append, List.count_cons_self, List.count_eq_zero.2 h]
      omega

/-- A text without a line feed has at most one line. -/
theorem isLine_iff_of_notMem (h : '\n' ∉ cs) {number : Nat} :
    IsLine cs number line ↔ number = 1 ∧ cs = line ∧ line ≠ [] := by
  constructor
  · rintro ⟨before, after, rfl, hstart, hcount, hline, hends⟩
    simp only [List.mem_append, not_or] at h
    have hempty : before = [] :=
      hstart.resolve_right fun hlast => h.1 (List.mem_of_getLast? hlast)
    subst hempty
    cases hends with
    | feed after hlast => exact absurd List.mem_cons_self h.2.2
    | returnFeed after => exact absurd (List.mem_cons_of_mem _ List.mem_cons_self) h.2.2
    | last hne => exact ⟨hcount.symm, by simp, hne⟩
  · rintro ⟨rfl, rfl, hne⟩
    exact isLine_one_iff.2 ⟨[], by simp, h, .last hne⟩

/-- The list of lines has every line at its number. -/
theorem getElem?_lines_eq_some_iff {n : Nat} :
    (lines cs)[n]? = some line ↔ IsLine cs (n + 1) line := by
  induction n generalizing cs with
  | zero =>
    rcases lines_cases cs with ⟨hmem, hlines⟩ | ⟨piece, rest, hpiece, rfl, hlines⟩
    · rw [hlines, isLine_iff_of_notMem hmem]
      split
      · rename_i hempty
        simp [hempty, eq_comm]
      · rename_i hne
        simp only [List.getElem?_cons_zero, Option.some.injEq, true_and]
        exact ⟨fun heq => ⟨heq, heq ▸ hne⟩, And.left⟩
    · rw [hlines, isLine_append_one_iff hpiece, List.getElem?_cons_zero, Option.some.injEq]
  | succ n ih =>
    rcases lines_cases cs with ⟨hmem, hlines⟩ | ⟨piece, rest, hpiece, rfl, hlines⟩
    · rw [hlines, isLine_iff_of_notMem hmem]
      split <;> simp
    · rw [hlines, isLine_behind_iff hpiece (Nat.succ_ne_zero n), List.getElem?_cons_succ, ih]

end SdkLint.Text
