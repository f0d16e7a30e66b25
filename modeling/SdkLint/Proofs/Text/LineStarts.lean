import SdkLint.Proofs.Text.Offsets
import SdkLint.Rule.Context

/-!
# Offsets of lines and columns

A line begins at the beginning of a text or behind a line feed, and something is left of the text
where it begins.  The offset of a line and a column counts the column on from there: it is held back
neither by the end of the line nor by the end of the text.  Only a line that does not exist leads to
the end of the text whatever the column is.  Offsets are kept in machine words, so that a column has
to be small enough for the sum to fit one.

Main definitions:

- `BeginsLine`: a text is parted where a line begins.
- `FileContext.SumFits`: a machine word can hold the sum for a line and a column.

Main results:

- Theorem `hasLine_iff`: a text has as many lines as cutting it behind line feeds gives.
- Theorem `offsetOf_of_beginsLine`: columns count on from where the line begins.
- Theorem `FileContext.offsetOf_unlimited`: where a line and a column lead if their sum fits a machine
  word.
-/

namespace SdkLint

namespace Text

variable {cs before rest : List Char} {number : Nat}

/-! ## Where lines begin -/

/-- A text is parted where the line with a number begins, counted from one: at the beginning or
behind a line feed, with one line feed before for every earlier line and something left behind. -/
structure BeginsLine (cs : List Char) (number : Nat) (before rest : List Char) : Prop where
  eq_append : cs = before ++ rest
  starts : before = [] ∨ before.getLast? = some '\n'
  count_eq : before.count '\n' + 1 = number
  nonempty : rest ≠ []

/-- A text has a line with a number. -/
def HasLine (cs : List Char) (number : Nat) : Prop :=
  ∃ before rest, BeginsLine cs number before rest

theorem BeginsLine.byteSize_eq (h : BeginsLine cs number before rest) :
    byteSize cs = byteSize before + byteSize rest := by
  rw [h.eq_append, byteSize_append]

/-- One character more in front of a text is one more in front of where a line begins.  If it is no
line feed, the line is not the first one. -/
theorem BeginsLine.cons {c : Char} (h : BeginsLine cs number before rest)
    (hc : c = '\n' ∨ number ≠ 1) :
    BeginsLine (c :: cs) (if c = '\n' then number + 1 else number) (c :: before) rest where
  eq_append := by rw [h.eq_append, List.cons_append]
  starts := by
    right
    rcases h.starts with rfl | hlast
    · have hfeed : c = '\n' := hc.resolve_right fun hnumber => hnumber h.count_eq.symm
      rw [hfeed]
      rfl
    · simp [List.getLast?_cons, hlast]
  count_eq := by
    rw [List.count_cons, beq_eq_decide, ← h.count_eq]
    split <;> simp_all
  nonempty := h.nonempty

/-! ## Cutting behind line feeds -/

theorem rawLines_ne_nil (h : cs ≠ []) : rawLines cs ≠ [] := by
  intro hnil
  exact h (by rw [← flatten_rawLines cs, hnil, List.flatten_nil])

/-- A text that is parted where a line begins is cut there. -/
theorem rawLines_append (h : before = [] ∨ before.getLast? = some '\n') (rest : List Char) :
    rawLines (before ++ rest) = rawLines before ++ rawLines rest := by
  induction before with
  | nil => rfl
  | cons c before ih =>
    rw [List.cons_append, rawLines, rawLines]
    by_cases hc : c = '\n'
    · have hrest : before = [] ∨ before.getLast? = some '\n' := by
        cases before with
        | nil => exact .inl rfl
        | cons d before => exact .inr (h.resolve_left (List.cons_ne_nil _ _))
      rw [if_pos hc, if_pos hc, ih hrest, List.cons_append]
    · have hlast : (c :: before).getLast? = some '\n' := h.resolve_left (List.cons_ne_nil _ _)
      cases before with
      | nil => exact absurd (Option.some.inj hlast) hc
      | cons d before =>
        obtain ⟨line, later, hlines⟩ :=
          List.exists_cons_of_ne_nil (rawLines_ne_nil (List.cons_ne_nil d before))
        rw [if_neg hc, if_neg hc, ih (.inr hlast), hlines]
        rfl

/-- Before a line begins there are as many lines as line feeds. -/
theorem length_rawLines (h : before = [] ∨ before.getLast? = some '\n') :
    (rawLines before).length = before.count '\n' := by
  induction before with
  | nil => rfl
  | cons c before ih =>
    have hlast : (c :: before).getLast? = some '\n' := h.resolve_left (List.cons_ne_nil _ _)
    cases before with
    | nil =>
      obtain rfl : c = '\n' := Option.some.inj hlast
      rfl
    | cons d before =>
      have hlength := ih (.inr hlast)
      rw [rawLines, List.count_cons, ← hlength]
      obtain ⟨line, later, hlines⟩ :=
        List.exists_cons_of_ne_nil (rawLines_ne_nil (List.cons_ne_nil d before))
      by_cases hc : c = '\n' <;> simp [hc, hlines]

/-- Cutting a text behind line feeds finds where its lines begin. -/
theorem exists_beginsLine {n : Nat} (h : n < (rawLines cs).length) : HasLine cs (n + 1) := by
  induction cs generalizing n with
  | nil => exact absurd h (Nat.not_lt_zero n)
  | cons c cs ih =>
    cases n with
    | zero => exact ⟨[], c :: cs, rfl, .inl rfl, rfl, List.cons_ne_nil _ _⟩
    | succ n =>
      rw [rawLines] at h
      split at h
      · rename_i hc
        obtain ⟨before, rest, hbegins⟩ := ih (Nat.lt_of_succ_lt_succ h)
        exact ⟨c :: before, rest, by simpa [hc] using hbegins.cons (.inl hc)⟩
      · rename_i hc
        -- The first line is one character longer, and all others stay as they are.
        have hlength : n + 1 < (rawLines cs).length := by
          split at h
          · simp at h
          · rename_i hlines
            rwa [hlines]
        obtain ⟨before, rest, hbegins⟩ := ih hlength
        exact ⟨c :: before, rest, by simpa [hc] using hbegins.cons (c := c) (.inr (by omega))⟩

/-- A text has as many lines as cutting it behind line feeds gives. -/
theorem hasLine_iff : HasLine cs number ↔ 1 ≤ number ∧ number ≤ (rawLines cs).length := by
  constructor
  · rintro ⟨before, rest, h⟩
    have hrest := List.length_pos_iff.2 (rawLines_ne_nil h.nonempty)
    rw [h.eq_append, rawLines_append h.starts, List.length_append, length_rawLines h.starts,
      ← h.count_eq]
    omega
  · rintro ⟨hone, hle⟩
    obtain ⟨n, rfl⟩ := Nat.exists_eq_succ_of_ne_zero (Nat.ne_of_gt hone)
    exact exists_beginsLine hle

instance (cs : List Char) (number : Nat) : Decidable (HasLine cs number) :=
  decidable_of_iff _ hasLine_iff.symm

/-! ## Offsets -/

/-- A line that does not exist leads to the end of the text. -/
theorem offsetOf_of_not_hasLine (hnumber : 1 ≤ number) (h : ¬ HasLine cs number) (column : Nat) :
    offsetOf cs number column = byteSize cs := by
  have hbehind : ¬ number ≤ (rawLines cs).length := fun hle => h (hasLine_iff.2 ⟨hnumber, hle⟩)
  rw [offsetOf, if_neg (Nat.ne_of_gt hnumber), if_neg hbehind]

/-- Columns count on from where the line begins. -/
theorem offsetOf_of_beginsLine (h : BeginsLine cs number before rest) (column : Nat) :
    offsetOf cs number column = byteSize before + (column - 1) := by
  obtain ⟨hone, hle⟩ := hasLine_iff.1 ⟨before, rest, h⟩
  have hstart : lineStart cs number = byteSize before := by
    rw [lineStart, ← h.count_eq, Nat.add_sub_cancel, h.eq_append, rawLines_append h.starts,
      ← length_rawLines h.starts, List.take_left, flatten_rawLines]
  rw [offsetOf, if_neg (Nat.ne_of_gt hone), if_pos hle, hstart]

end Text

namespace FileContext

/-- The sum for a line and a column of a file fits a machine word: where the line begins, if it
exists, and the columns before the column. -/
def SumFits (file : FileContext) (line column : Nat) : Prop :=
  ∀ before rest, Text.BeginsLine file.content.toList line before rest →
    FitsWord (Text.byteSize before + (column - 1))

/-- No line begins behind the end of the file. -/
theorem SumFits.of_size {file : FileContext} {column : Nat}
    (h : FitsWord (file.content.utf8ByteSize + (column - 1))) (line : Nat) :
    file.SumFits line column := by
  intro before rest hbegins
  apply h.mono
  rw [← Text.byteSize_toList, hbegins.byteSize_eq]
  omega

/-- Where a line and a column of a file lead. -/
structure Unlimited (file : FileContext) (line column : Nat) : Prop where
  /-- A line that does not exist leads to the end of the file. -/
  behind : ¬ Text.HasLine file.content.toList line →
    file.offsetOf line column = file.content.utf8ByteSize
  /-- In a line that exists the column counts on from where the line begins. -/
  counts : ∀ before rest, Text.BeginsLine file.content.toList line before rest →
    file.offsetOf line column = Text.byteSize before + (column - 1)
  /-- The offset lies in the file or at its end exactly if the column does, or the line does not
  exist. -/
  within_iff : file.offsetOf line column ≤ file.content.utf8ByteSize ↔
    ∀ before rest, Text.BeginsLine file.content.toList line before rest →
      column - 1 ≤ Text.byteSize rest
  /-- A column beyond the end of the file leads as far beyond the end. -/
  beyond : ∀ before rest, Text.BeginsLine file.content.toList line before rest →
    Text.byteSize rest < column - 1 →
    file.offsetOf line column = file.content.utf8ByteSize + (column - 1 - Text.byteSize rest)
  /-- Adding machine words leads there as well. -/
  words : ∀ before rest, Text.BeginsLine file.content.toList line before rest →
    ∀ start columns : UInt64, start.toNat = Text.byteSize before → columns.toNat = column - 1 →
      (start + columns).toNat = file.offsetOf line column

/-- A line that does not exist leads to the end of the file, and only there a column is held back:
in a line that exists it leads beyond the end of the file as far as it lies there itself, up to what
a machine word can hold. -/
theorem offsetOf_unlimited (file : FileContext) {line column : Nat} (hline : 1 ≤ line)
    (hfits : file.SumFits line column) : file.Unlimited line column := by
  have hbehind : ¬ Text.HasLine file.content.toList line →
      file.offsetOf line column = file.content.utf8ByteSize := by
    intro h
    rw [offsetOf, Text.offsetOf_of_not_hasLine hline h, Text.byteSize_toList]
  have hcounts : ∀ before rest, Text.BeginsLine file.content.toList line before rest →
      file.offsetOf line column = Text.byteSize before + (column - 1) ∧
        file.content.utf8ByteSize = Text.byteSize before + Text.byteSize rest := by
    intro before rest h
    exact ⟨Text.offsetOf_of_beginsLine h column, Text.byteSize_toList _ ▸ h.byteSize_eq⟩
  refine ⟨hbehind, fun before rest h => (hcounts before rest h).1, ?_, ?_, ?_⟩
  · constructor
    · intro hle before rest h
      obtain ⟨hoffset, hsize⟩ := hcounts before rest h
      omega
    · intro hwithin
      by_cases hexists : Text.HasLine file.content.toList line
      · obtain ⟨before, rest, h⟩ := hexists
        obtain ⟨hoffset, hsize⟩ := hcounts before rest h
        have := hwithin before rest h
        omega
      · exact Nat.le_of_eq (hbehind hexists)
  · intro before rest h hbeyond
    obtain ⟨hoffset, hsize⟩ := hcounts before rest h
    omega
  · intro before rest h start columns hstart hcolumns
    have hsum : FitsWord (start.toNat + columns.toNat) := by
      rw [hstart, hcolumns]
      exact hfits before rest h
    rw [hsum.toNat_add, hstart, hcolumns, (hcounts before rest h).1]

/-- A file with two lines, the second of which nothing ends. -/
def twoLines : FileContext :=
  .ofPath "A.java" "ab\ncd" ""

/-- A column of the first line leads into the second one, a column of the second line leads beyond
the end of the file, and there is no third line. -/
theorem twoLines_unlimited :
    twoLines.offsetOf 1 5 = 4 ∧
      (Text.byteSize "cd".toList < 9 - 1 ∧ twoLines.offsetOf 2 9 = 5 + 6) ∧
      ¬ Text.HasLine twoLines.content.toList 3 ∧ twoLines.offsetOf 3 9 = 5 := by
  have hfirst : Text.BeginsLine twoLines.content.toList 1 [] "ab\ncd".toList :=
    ⟨rfl, .inl rfl, rfl, by decide⟩
  have hsecond : Text.BeginsLine twoLines.content.toList 2 "ab\n".toList "cd".toList :=
    ⟨by decide, .inr (by decide), by decide, by decide⟩
  have hthird : ¬ Text.HasLine twoLines.content.toList 3 := by decide
  have hbeyond : Text.byteSize "cd".toList < 9 - 1 := by decide
  have hfifth : twoLines.SumFits 1 5 := .of_size (by decide) 1
  have hninth (line : Nat) : twoLines.SumFits line 9 := .of_size (by decide) line
  exact ⟨(offsetOf_unlimited twoLines (by decide) hfifth).counts _ _ hfirst,
    ⟨hbeyond, (offsetOf_unlimited twoLines (by decide) (hninth 2)).beyond _ _ hsecond hbeyond⟩,
    hthird, (offsetOf_unlimited twoLines (by decide) (hninth 3)).behind hthird⟩

end FileContext

end SdkLint
