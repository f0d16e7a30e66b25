import Mathlib.Data.List.Count
import SdkLint.Proofs.Text.Offsets

/-!
# Points counted in bytes

A grammar sees the bytes of a text and knows nothing of its characters.  The point that it gives to
an offset is a count of the bytes before: the row is the number of line feeds, the column the number
of bytes since the last one.  In UTF-8 the byte of a line feed stands for nothing else, so that this
is the point of the offset, also inside of a character.

Main definitions:

- `bytes`: the bytes of a text.
- `Point.Counts`: a point is what counting some bytes comes to.

Main results:

- Theorem `lineFeeds_eq_idxsOf`: the line feeds of a text are those of its bytes.
- Theorem `Point.Counts.eq_locate`: counting the bytes before an offset gives its point.
-/

namespace SdkLint.Text

/-! ## Bytes -/

/-- The bytes of a text in UTF-8. -/
def bytes (s : String) : List UInt8 :=
  s.toUTF8.data.toList

/-- The byte that stands for a line feed. -/
def lineFeed : UInt8 :=
  10

theorem bytes_eq (s : String) : bytes s = s.toList.flatMap String.utf8EncodeChar := by
  have h : s.toUTF8 = s.toList.utf8Encode := by
    rw [String.toUTF8_eq_toByteArray, ← String.toByteArray_ofList, String.ofList_toList]
  rw [bytes, h, List.utf8Encode, List.data_toByteArray]

theorem length_bytes (s : String) : (bytes s).length = s.utf8ByteSize :=
  Array.length_toList

/-- No other character has the byte of a line feed. -/
theorem lineFeed_notMem {c : Char} (hc : c ≠ '\n') : lineFeed ∉ String.utf8EncodeChar c := by
  have hvalue : c.val.toNat ≠ 10 := fun h => hc (Char.ext (UInt32.toNat.inj h))
  have hbyte (n : Nat) (hn : n % 256 ≠ 10) : lineFeed ≠ UInt8.ofNat n := fun h =>
    hn (congrArg UInt8.toNat h).symm
  unfold String.utf8EncodeChar
  dsimp only
  split
  · exact List.mem_singleton.not.2 (hbyte _ (by omega))
  · -- The bytes of longer encodings are at least 128.
    split
    · simp only [List.mem_cons, List.not_mem_nil, or_false, not_or]
      exact ⟨hbyte _ (by omega), hbyte _ (by omega)⟩
    · split
      · simp only [List.mem_cons, List.not_mem_nil, or_false, not_or]
        exact ⟨hbyte _ (by omega), hbyte _ (by omega), hbyte _ (by omega)⟩
      · simp only [List.mem_cons, List.not_mem_nil, or_false, not_or]
        exact ⟨hbyte _ (by omega), hbyte _ (by omega), hbyte _ (by omega), hbyte _ (by omega)⟩

/-- The line feeds of a text are those of its bytes. -/
theorem lineFeeds_eq_idxsOf (s : String) :
    lineFeeds s.toList = (bytes s).idxsOf lineFeed := by
  have hgo (cs : List Char) (offset : Nat) : lineFeeds.go offset cs =
      (cs.flatMap String.utf8EncodeChar).idxsOf lineFeed offset := by
    induction cs generalizing offset with
    | nil => rfl
    | cons c cs ih =>
      rw [List.flatMap_cons, List.idxsOf_append, String.length_utf8EncodeChar, ← ih, lineFeeds.go]
      split
      · rename_i hc
        subst hc
        rfl
      · rename_i hc
        have hnone : (String.utf8EncodeChar c).idxsOf lineFeed offset = [] :=
          List.idxsOf_eq_nil_iff.2 fun b hb =>
            beq_eq_false_iff_ne.2 fun h => lineFeed_notMem hc (h ▸ hb)
        rw [hnone, List.nil_append]
  rw [bytes_eq, ← hgo]
  rfl

/-! ## Counting -/

/-- A point is what counting some bytes comes to: their line feeds, and the bytes since the last
one. -/
structure Point.Counts (before : List UInt8) (p : Point) : Prop where
  row_eq : p.row = before.count lineFeed
  column_eq : p.column = (before.reverse.takeWhile (· != lineFeed)).length

instance (before : List UInt8) (p : Point) : Decidable (p.Counts before) :=
  decidable_of_iff
    (p.row = before.count lineFeed ∧
      p.column = (before.reverse.takeWhile (· != lineFeed)).length)
    ⟨fun h => ⟨h.1, h.2⟩, fun h => ⟨h.row_eq, h.column_eq⟩⟩

/-- The bytes that the column counts stand behind the last line feed. -/
theorem length_takeWhile_reverse (before : List UInt8) :
    (before.reverse.takeWhile (· != lineFeed)).length =
      match (before.idxsOf lineFeed).getLast? with
      | none => before.length
      | some feed => before.length - (feed + 1) := by
  induction before using List.reverseRecOn with
  | nil => rfl
  | append_singleton before b ih =>
    rw [List.reverse_append, List.reverse_singleton, List.singleton_append, List.takeWhile_cons,
      List.idxsOf_append]
    by_cases hb : b = lineFeed
    · subst hb
      simp
    · have hnone : [b].idxsOf lineFeed (0 + before.length) = [] := by
        simpa [List.idxsOf_eq_nil_iff] using hb
      rw [if_pos (by simpa using hb), List.length_cons, ih, hnone, List.append_nil,
        List.length_append, List.length_singleton]
      cases hlast : (before.idxsOf lineFeed).getLast? with
      | none => rfl
      | some feed =>
        have hfeed := List.lt_add_of_mem_idxsOf feed (List.mem_of_getLast? hlast)
        exact (Nat.sub_add_comm hfeed).symm

/-- Counting the bytes before an offset gives its point. -/
theorem Point.Counts.eq_locate {s : String} {offset : Nat} {p : Point}
    (h : p.Counts ((bytes s).take offset)) (hoffset : offset ≤ s.utf8ByteSize) :
    p = (LineIndex.ofText s.toList).locate offset := by
  have hlength : ((bytes s).take offset).length = offset := by
    rw [List.length_take, length_bytes, Nat.min_eq_left hoffset]
  have hbefore : ∀ feed ∈ ((bytes s).take offset).idxsOf lineFeed, feed < offset := by
    intro feed hfeed
    simpa only [hlength, Nat.add_zero] using List.lt_add_of_mem_idxsOf feed hfeed
  have hbehind : ∀ feed ∈ ((bytes s).drop offset).idxsOf lineFeed offset, offset ≤ feed :=
    List.ge_of_mem_idxsOf
  rw [LineIndex.locate_ofText, lineFeeds_eq_idxsOf, ← List.take_append_drop offset (bytes s),
    List.idxsOf_append, hlength, Nat.zero_add, pointAmong_append hbefore hbehind,
    List.length_idxsOf, ← h.row_eq]
  have hcolumn := h.column_eq.trans (length_takeWhile_reverse _)
  rw [hlength] at hcolumn
  exact congrArg (Point.mk p.row) hcolumn

end SdkLint.Text
