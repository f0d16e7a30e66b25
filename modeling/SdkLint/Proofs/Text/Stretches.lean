import SdkLint.Proofs.Text.Offsets
import SdkLint.Text.Slice

/-!
# Stretches of a text

A text can stand in another at a byte offset.  What is left of a text after something has been taken
off its beginning or its end stands in it, what lies between two offsets stands between them, and
the pieces between the occurrences of a separator stand where cutting puts them.

Main definition:

- `StandsAt`: a text stands in another at an offset.

Main results:

- Theorem `StandsAt.trans`: offsets of stretches of stretches add up.
- Theorem `standsAt_of_slice`: what lies between two offsets stands there.
- Theorem `slice_of_standsAt`: what stands somewhere lies between its offsets.
- Theorem `splitOn_cases`: cutting a text goes on behind the first separator.
-/

namespace SdkLint.Text

/-- A text stands in another at a byte offset. -/
def StandsAt (cs : List Char) (offset : Nat) (text : List Char) : Prop :=
  ∃ before after, cs = before ++ (text ++ after) ∧ byteSize before = offset

namespace StandsAt

variable {cs text inner : List Char} {m n : Nat}

theorem refl (cs : List Char) : StandsAt cs 0 cs :=
  ⟨[], [], by simp, rfl⟩

/-- Offsets of stretches of stretches add up. -/
theorem trans (h : StandsAt cs m text) (hinner : StandsAt text n inner) :
    StandsAt cs (m + n) inner := by
  obtain ⟨before, after, rfl, rfl⟩ := h
  obtain ⟨before', after', rfl, rfl⟩ := hinner
  exact ⟨before ++ before', after' ++ after, by simp, by simp⟩

theorem of_append (before text after : List Char) :
    StandsAt (before ++ (text ++ after)) (byteSize before) text :=
  ⟨before, after, rfl, rfl⟩

/-- A beginning stands at the beginning. -/
theorem left (text after : List Char) : StandsAt (text ++ after) 0 text :=
  of_append [] text after

/-- An end stands behind the rest. -/
theorem right (before text : List Char) : StandsAt (before ++ text) (byteSize before) text := by
  simpa using of_append before text []

end StandsAt

/-! ## Beginnings and ends -/

theorem eq_append_of_dropPrefix? {beginning cs rest : List Char}
    (h : dropPrefix? beginning cs = some rest) : cs = beginning ++ rest := by
  induction beginning generalizing cs with
  | nil => exact Option.some.inj h
  | cons p ps ih =>
    cases cs with
    | nil => cases h
    | cons c cs =>
      rw [dropPrefix?] at h
      split at h
      · rename_i hc
        rw [hc, ih h, List.cons_append]
      · cases h

theorem eq_append_of_dropSuffix? {ending cs rest : List Char}
    (h : dropSuffix? ending cs = some rest) : cs = rest ++ ending := by
  obtain ⟨tser, htser, rfl⟩ := Option.map_eq_some_iff.1 h
  rw [← cs.reverse_reverse, eq_append_of_dropPrefix? htser]
  simp

/-- What is left without a known end stands at the beginning. -/
theorem standsAt_dropSuffix (ending cs : List Char) :
    StandsAt cs 0 ((dropSuffix? ending cs).getD cs) := by
  cases h : dropSuffix? ending cs with
  | none => exact .refl cs
  | some rest =>
    rw [eq_append_of_dropSuffix? h]
    exact .left rest ending

/-- What is left without trailing blanks stands at the beginning. -/
theorem standsAt_trimEnd (cs : List Char) : StandsAt cs 0 (trimEnd cs) := by
  have happend : cs = trimEnd cs ++ (cs.reverse.takeWhile isBlank).reverse := by
    rw [trimEnd, ← List.reverse_append, List.takeWhile_append_dropWhile, List.reverse_reverse]
  have hleft := StandsAt.left (trimEnd cs) (cs.reverse.takeWhile isBlank).reverse
  rwa [← happend] at hleft

/-- What is left without leading blanks stands behind them. -/
theorem standsAt_dropWhile_isBlank (cs : List Char) :
    StandsAt cs (byteSize (cs.takeWhile isBlank)) (cs.dropWhile isBlank) := by
  have hright := StandsAt.right (cs.takeWhile isBlank) (cs.dropWhile isBlank)
  rwa [List.takeWhile_append_dropWhile] at hright

/-! ## Pieces -/

/-- Cutting a text leaves it whole if the separator does not occur, and goes on behind its first
occurrence otherwise. -/
theorem splitOn_cases (sep : Char) (cs : List Char) :
    (sep ∉ cs ∧ splitOn sep cs = [cs]) ∨
      ∃ piece rest, sep ∉ piece ∧ cs = piece ++ sep :: rest ∧
        splitOn sep cs = piece :: splitOn sep rest := by
  induction cs with
  | nil => exact .inl ⟨List.not_mem_nil, rfl⟩
  | cons c cs ih =>
    by_cases hc : c = sep
    · subst hc
      exact .inr ⟨[], cs, List.not_mem_nil, rfl, by simp [splitOn]⟩
    · rcases ih with ⟨hsep, hsplit⟩ | ⟨piece, rest, hsep, rfl, hsplit⟩
      · exact .inl ⟨by simp [Ne.symm hc, hsep], by simp [splitOn, hc, hsplit]⟩
      · exact .inr ⟨c :: piece, rest, by simp [Ne.symm hc, hsep], rfl,
          by simp [splitOn, hc, hsplit]⟩

/-! ## Slices -/

/-- Of a text in three parts, the bytes from the end of the first to that of the second are the
second. -/
theorem extract_toByteArray (before middle after : String) :
    (before ++ middle ++ after).toByteArray.extract before.utf8ByteSize
      (before ++ middle).utf8ByteSize = middle.toByteArray := by
  have hmiddle : (before ++ middle).toByteArray.extract before.utf8ByteSize
      (before ++ middle).utf8ByteSize = middle.toByteArray := by
    rw [String.toByteArray_append]
    exact ByteArray.extract_append_eq_right String.size_toByteArray.symm (by simp)
  rw [String.toByteArray_append, ByteArray.extract_append, hmiddle,
    ByteArray.extract_eq_empty_iff.2 (by simp), ByteArray.append_empty]

/-- A text that is not empty and lies between two offsets stands there. -/
theorem standsAt_of_slice {s text : String} {start stop : Nat}
    (h : slice s start stop = text) (htext : text ≠ "") :
    StandsAt s.toList start text.toList ∧ stop = start + text.utf8ByteSize := by
  rw [slice] at h
  split at h
  case isFalse => exact absurd h.symm htext
  case isTrue hvalid =>
    let p : s.Pos := ⟨⟨start⟩, hvalid.1⟩
    let q : s.Pos := ⟨⟨stop⟩, hvalid.2.1⟩
    have hp := p.splits
    have hq := q.splits
    generalize (s.sliceTo p).copy = before, (s.sliceFrom p).copy = rest at hp
    generalize (s.sliceTo q).copy = upTo, (s.sliceFrom q).copy = after at hq
    obtain ⟨middle, rfl, rfl⟩ := (hp.le_iff_exists_eq_append hq).1 hvalid.2.2
    have hstart : start = before.utf8ByteSize := congrArg (·.byteIdx) hp.offset_eq_rawEndPos
    have hstop : stop = (before ++ middle).utf8ByteSize :=
      congrArg (·.byteIdx) hq.offset_eq_rawEndPos
    have hmiddle : text = middle := by
      rw [← String.toByteArray_inj, ← h, String.toByteArray_extract,
        ← extract_toByteArray before middle after, ← hstart, ← hstop, ← hq.eq_append]
    refine ⟨⟨before.toList, after.toList, ?_, ?_⟩, ?_⟩
    · rw [hq.eq_append, String.toList_append, String.toList_append, hmiddle, List.append_assoc]
    · rw [byteSize_toList, hstart]
    · rw [hstop, hstart, hmiddle, String.utf8ByteSize_append]

/-- A text that stands at an offset lies between this offset and the one behind it, and it begins at
a boundary between characters. -/
theorem slice_of_standsAt {s text : String} {offset : Nat}
    (h : StandsAt s.toList offset text.toList) :
    (String.Pos.Raw.mk offset).IsValid s ∧ slice s offset (offset + text.utf8ByteSize) = text := by
  obtain ⟨before, after, hsource, rfl⟩ := h
  have hwhole : s = String.ofList before ++ text ++ String.ofList after := by
    rw [← String.toList_inj, hsource, String.toList_append, String.toList_append,
      String.toList_ofList, String.toList_ofList, List.append_assoc]
  have hoffset : byteSize before = (String.ofList before).utf8ByteSize := by
    rw [← byteSize_toList, String.toList_ofList]
  have hend : byteSize before + text.utf8ByteSize =
      (String.ofList before ++ text).utf8ByteSize := by
    rw [hoffset, String.utf8ByteSize_append]
  have hstart : (String.Pos.Raw.mk (byteSize before)).IsValid s :=
    String.Pos.Raw.isValid_iff_exists_append.2
      ⟨String.ofList before, text ++ String.ofList after, by rw [hwhole, String.append_assoc],
        congrArg String.Pos.Raw.mk hoffset⟩
  have hstop : (String.Pos.Raw.mk (byteSize before + text.utf8ByteSize)).IsValid s :=
    String.Pos.Raw.isValid_iff_exists_append.2
      ⟨String.ofList before ++ text, String.ofList after, hwhole, congrArg String.Pos.Raw.mk hend⟩
  refine ⟨hstart, ?_⟩
  rw [slice, dif_pos ⟨hstart, hstop, Nat.le_add_right _ _⟩, ← String.toByteArray_inj,
    String.toByteArray_extract, ← extract_toByteArray (String.ofList before) text
      (String.ofList after), ← hwhole, ← hoffset, ← hend]

end SdkLint.Text
