import Mathlib.Data.List.GetD
import Mathlib.Data.List.Induction
import SdkLint.Text.Lines

/-!
# Offsets and points

A byte offset into a text and the row and column that it is at determine each other.  Moving over a
text takes a point from one place to the next, character by character, which tells the point of an
offset that characters lie before.

Main definitions:

- `FitsWord`: a number fits a machine word.
- `pointAmong`: the row and column of an offset, given the offsets of line feeds.
- `Point.after`: the point that is reached by moving over a text.

Main results:

- Theorem `locate_append`: the point of an offset is reached by moving over what lies before it.
- Theorem `offsetOf_locate`: the line and column of an offset lead back to it.
-/

namespace SdkLint

/-! ## Machine words -/

/-- A number of 64 bits. -/
def FitsWord (n : Nat) : Prop :=
  n < 0x10000000000000000

instance (n : Nat) : Decidable (FitsWord n) :=
  inferInstanceAs (Decidable (n < 0x10000000000000000))

theorem FitsWord.mono {m n : Nat} (h : FitsWord n) (hle : m ≤ n) : FitsWord m :=
  Nat.lt_of_le_of_lt hle h

/-- A sum that fits a machine word is what adding machine words comes to. -/
theorem FitsWord.toNat_add {a b : UInt64} (h : FitsWord (a.toNat + b.toNat)) :
    (a + b).toNat = a.toNat + b.toNat := by
  rw [UInt64.toNat_add]
  exact Nat.mod_eq_of_lt h

namespace Text

/-! ## Sizes -/

@[simp]
theorem byteSize_nil : byteSize [] = 0 :=
  rfl

@[simp]
theorem byteSize_cons (c : Char) (cs : List Char) :
    byteSize (c :: cs) = c.utf8Size + byteSize cs :=
  rfl

@[simp]
theorem byteSize_append (cs ds : List Char) : byteSize (cs ++ ds) = byteSize cs + byteSize ds := by
  induction cs with
  | nil => simp
  | cons c cs ih => simp [ih, Nat.add_assoc]

/-- The size of a string is that of its characters. -/
theorem byteSize_toList (s : String) : byteSize s.toList = s.utf8ByteSize := by
  have hsize : ∀ cs : List Char, byteSize cs = (String.ofList cs).utf8ByteSize := by
    intro cs
    induction cs with
    | nil => rfl
    | cons c cs ih =>
      have hcons : String.ofList (c :: cs) = String.singleton c ++ String.ofList cs := by
        rw [String.singleton_eq_ofList, ← String.ofList_append]
        rfl
      rw [byteSize_cons, ih, hcons, String.utf8ByteSize_append, String.utf8ByteSize_singleton]
  rw [hsize, String.ofList_toList]

/-! ## Line feeds -/

theorem lineFeeds_go (offset : Nat) (cs : List Char) :
    lineFeeds.go offset cs = (lineFeeds cs).map (offset + ·) := by
  induction cs generalizing offset with
  | nil => rfl
  | cons c cs ih =>
    unfold lineFeeds
    rw [lineFeeds.go, lineFeeds.go]
    split
    · rw [ih, ih (0 + 1)]
      simp [Function.comp_def, Nat.add_assoc]
    · rw [ih, ih (0 + c.utf8Size)]
      simp [Function.comp_def, Nat.add_assoc]

theorem lineFeeds_newline (cs : List Char) :
    lineFeeds ('\n' :: cs) = 0 :: (lineFeeds cs).map (1 + ·) := by
  rw [← lineFeeds_go]
  rfl

theorem lineFeeds_cons {c : Char} (hc : c ≠ '\n') (cs : List Char) :
    lineFeeds (c :: cs) = (lineFeeds cs).map (c.utf8Size + ·) := by
  rw [← lineFeeds_go, lineFeeds, lineFeeds.go, if_neg hc, Nat.zero_add]

/-- Line feeds are listed in order. -/
theorem pairwise_lineFeeds (cs : List Char) : (lineFeeds cs).Pairwise (· < ·) := by
  induction cs with
  | nil => exact .nil
  | cons c cs ih =>
    by_cases hc : c = '\n'
    · subst hc
      rw [lineFeeds_newline, List.pairwise_cons, List.pairwise_map]
      refine ⟨List.forall_mem_map.2 fun feed _ => ?_, ih.imp fun h => Nat.add_lt_add_left h 1⟩
      exact Nat.lt_add_right feed Nat.one_pos
    · rw [lineFeeds_cons hc, List.pairwise_map]
      exact ih.imp fun h => Nat.add_lt_add_left h _

/-- Line feeds lie inside the text. -/
theorem lt_of_mem_lineFeeds (cs : List Char) : ∀ feed ∈ lineFeeds cs, feed < byteSize cs := by
  induction cs with
  | nil => simp [lineFeeds, lineFeeds.go]
  | cons c cs ih =>
    by_cases hc : c = '\n'
    · subst hc
      have hsize : Char.utf8Size '\n' = 1 := rfl
      simp only [lineFeeds_newline, List.forall_mem_cons, List.forall_mem_map, byteSize_cons, hsize]
      exact ⟨by omega, fun feed hfeed => Nat.add_lt_add_left (ih feed hfeed) 1⟩
    · simp only [lineFeeds_cons hc, List.forall_mem_map, byteSize_cons]
      exact fun feed hfeed => Nat.add_lt_add_left (ih feed hfeed) _

theorem lineFeeds_append (cs ds : List Char) :
    lineFeeds (cs ++ ds) = lineFeeds cs ++ (lineFeeds ds).map (byteSize cs + ·) := by
  induction cs with
  | nil => simp [lineFeeds, lineFeeds.go]
  | cons c cs ih =>
    by_cases hc : c = '\n'
    · subst hc
      have hsize : Char.utf8Size '\n' = 1 := rfl
      rw [List.cons_append, lineFeeds_newline, lineFeeds_newline, ih]
      simp [Function.comp_def, Nat.add_assoc, hsize]
    · rw [List.cons_append, lineFeeds_cons hc, lineFeeds_cons hc, ih]
      simp [Function.comp_def, Nat.add_assoc]

/-! ## Rows -/

/-- The row and column of an offset among some line feeds. -/
def pointAmong (feeds : List Nat) (offset : Nat) : Point :=
  let row := feeds.countP (· < offset)
  { row, column := if row = 0 then offset else offset - (feeds.getD (row - 1) 0 + 1) }

/-- The number of entries below an offset is where those below it end. -/
theorem countP_eq {feeds : List Nat} {offset n : Nat} (hn : n ≤ feeds.length)
    (hlow : ∀ i < n, feeds.getD i 0 < offset)
    (hhigh : ∀ i, n ≤ i → i < feeds.length → offset ≤ feeds.getD i 0) :
    feeds.countP (· < offset) = n := by
  have hbelow : (feeds.take n).countP (· < offset) = (feeds.take n).length := by
    rw [List.countP_eq_length]
    intro x hx
    obtain ⟨i, hi, rfl⟩ := List.mem_iff_getElem.1 hx
    rw [List.length_take] at hi
    have := hlow i (by omega)
    rw [List.getD_eq_getElem _ _ (by omega)] at this
    simpa using this
  have habove : (feeds.drop n).countP (· < offset) = 0 := by
    rw [List.countP_eq_zero]
    intro x hx
    obtain ⟨i, hi, rfl⟩ := List.mem_iff_getElem.1 hx
    rw [List.length_drop] at hi
    have := hhigh (n + i) (by omega) (by omega)
    rw [List.getD_eq_getElem _ _ (by omega)] at this
    simpa using this
  rw [← List.take_append_drop n feeds, List.countP_append, hbelow, habove, List.length_take]
  omega

/-- Of entries in order, as many as there are below an offset come first. -/
theorem getElem_lt_of_lt_countP {feeds : List Nat} (hsorted : feeds.Pairwise (· < ·))
    {offset i : Nat} (hi : i < feeds.length) (hrow : i < feeds.countP (· < offset)) :
    feeds[i] < offset := by
  refine Nat.lt_of_not_le fun hle => ?_
  have habove : (feeds.drop i).countP (· < offset) = 0 := by
    rw [List.drop_eq_getElem_cons hi, List.countP_eq_zero, List.forall_mem_cons]
    have hlater := List.pairwise_cons.1 (List.drop_eq_getElem_cons hi ▸ hsorted.drop (i := i))
    refine ⟨by simpa using hle, fun x hx => ?_⟩
    simpa using Nat.le_trans hle (Nat.le_of_lt (hlater.1 x hx))
  have hbelow : (feeds.take i).countP (· < offset) ≤ (feeds.take i).length := List.countP_le_length
  rw [← List.take_append_drop i feeds, List.countP_append, habove] at hrow
  rw [List.length_take] at hbelow
  omega

namespace LineIndex

variable (ix : LineIndex) (offset : Nat)

/-- Halving the range finds where the entries below an offset end, if those before the range lie
below it and those after the range do not. -/
theorem countBelow_eq (lo hi : Nat)
    (hsorted : ∀ i j, i ≤ j → j < ix.feeds.size → ix.feeds.getD i 0 ≤ ix.feeds.getD j 0)
    (hlohi : lo ≤ hi) (hhi : hi ≤ ix.feeds.size) (hlow : ∀ i < lo, ix.feeds.getD i 0 < offset)
    (hhigh : ∀ i, hi ≤ i → i < ix.feeds.size → offset ≤ ix.feeds.getD i 0) :
    ix.countBelow offset lo hi = ix.feeds.toList.countP (· < offset) := by
  fun_induction countBelow ix offset lo hi with
  | case1 lo hi hlt mid hbelow ih =>
    refine ih (by omega) hhi (fun i hi' => ?_) hhigh
    exact Nat.lt_of_le_of_lt (hsorted i mid (by omega) (by omega)) hbelow
  | case2 lo hi hlt mid habove ih =>
    refine ih (by omega) (by omega) hlow fun i hmid hi' => ?_
    exact Nat.le_trans (Nat.le_of_not_lt habove) (hsorted mid i hmid hi')
  | case3 lo hi hlt =>
    obtain rfl : lo = hi := by omega
    refine (countP_eq (by simpa using hhi) (fun i hi' => ?_) fun i hle hi' => ?_).symm
    · simpa using hlow i hi'
    · simpa using hhigh i hle (by simpa using hi')

/-- An offset is located among the line feeds of the text. -/
theorem locate_ofText (cs : List Char) :
    (ofText cs).locate offset = pointAmong (lineFeeds cs) offset := by
  have hcount : (ofText cs).countBelow offset 0 (ofText cs).feeds.size =
      (lineFeeds cs).countP (· < offset) := by
    refine countBelow_eq _ offset 0 _ (fun i j hij hj => ?_) (Nat.zero_le _) (Nat.le_refl _) ?_ ?_
    · have hj' : j < (lineFeeds cs).length := hj
      have hi' : i < (lineFeeds cs).length := by omega
      simp only [ofText, Array.getD_eq_getD_getElem?, List.getElem?_toArray,
        List.getElem?_eq_getElem hi', List.getElem?_eq_getElem hj', Option.getD_some]
      rcases Nat.lt_or_eq_of_le hij with hij | rfl
      · exact Nat.le_of_lt (List.pairwise_iff_getElem.1 (pairwise_lineFeeds cs) i j hi' hj' hij)
      · exact Nat.le_refl _
    · exact fun i hi => absurd hi (Nat.not_lt_zero i)
    · exact fun i hle hi => absurd hi (Nat.not_lt_of_le hle)
  simp only [locate, hcount, pointAmong]
  simp [ofText]

end LineIndex

/-! ## Moving over a text -/

/-- The point behind a character. -/
def Point.step (p : Point) (c : Char) : Point :=
  if c = '\n' then ⟨p.row + 1, 0⟩ else ⟨p.row, p.column + c.utf8Size⟩

/-- The point that is reached from a point by moving over a text. -/
def Point.after (p : Point) (cs : List Char) : Point :=
  cs.foldl Point.step p

namespace Point

@[simp]
theorem after_nil (p : Point) : p.after [] = p :=
  rfl

theorem after_append (p : Point) (cs ds : List Char) :
    p.after (cs ++ ds) = (p.after cs).after ds :=
  List.foldl_append

/-- Moving over a text without line feed stays in the row. -/
theorem after_of_notMem {cs : List Char} (h : '\n' ∉ cs) (p : Point) :
    p.after cs = ⟨p.row, p.column + byteSize cs⟩ := by
  induction cs generalizing p with
  | nil => rfl
  | cons c cs ih =>
    obtain ⟨hc, hcs⟩ := not_or.1 (List.mem_cons.not.1 h)
    calc
      p.after (c :: cs) = (p.step c).after cs := rfl
      _ = ⟨p.row, p.column + byteSize (c :: cs)⟩ := by
        rw [ih hcs, step, if_neg (Ne.symm hc), byteSize_cons, Nat.add_assoc]

end Point

/-- Behind some line feeds and not behind others the row is the number of the former, and the column
counts from the last of them. -/
theorem pointAmong_append {feeds others : List Nat} {offset : Nat}
    (hfeeds : ∀ feed ∈ feeds, feed < offset) (hothers : ∀ feed ∈ others, offset ≤ feed) :
    pointAmong (feeds ++ others) offset =
      ⟨feeds.length, match feeds.getLast? with
        | none => offset
        | some feed => offset - (feed + 1)⟩ := by
  have hbelow : feeds.countP (· < offset) = feeds.length :=
    List.countP_eq_length.2 fun feed hfeed => by simpa using hfeeds feed hfeed
  have habove : others.countP (· < offset) = 0 :=
    List.countP_eq_zero.2 fun feed hfeed => by simpa using hothers feed hfeed
  have hrow : (feeds ++ others).countP (· < offset) = feeds.length := by
    rw [List.countP_append, hbelow, habove, Nat.add_zero]
  simp only [pointAmong, hrow]
  rcases feeds.eq_nil_or_concat with rfl | ⟨feeds, last, rfl⟩
  · rfl
  · simp

/-- The end of a text is reached by moving over it. -/
theorem pointAmong_lineFeeds (cs : List Char) :
    pointAmong (lineFeeds cs) (byteSize cs) = Point.after ⟨0, 0⟩ cs := by
  have hend (cs : List Char) := pointAmong_append (lt_of_mem_lineFeeds cs)
    (List.forall_mem_nil (byteSize cs ≤ ·))
  simp only [List.append_nil] at hend
  induction cs using List.reverseRecOn with
  | nil => rfl
  | append_singleton cs c ih =>
    have hsize : byteSize (cs ++ [c]) = byteSize cs + c.utf8Size := by simp
    rw [hend, Point.after_append, ← ih, hend, hsize, lineFeeds_append]
    by_cases hc : c = '\n'
    · subst hc
      have hfeeds : lineFeeds ['\n'] = [0] := rfl
      simp [hfeeds, Point.after, Point.step, Char.utf8Size]
    · have hfeeds : lineFeeds [c] = [] := by rw [lineFeeds_cons hc]; rfl
      simp only [hfeeds, List.map_nil, List.append_nil, Point.after, List.foldl_cons,
        List.foldl_nil, Point.step, if_neg hc]
      cases hlast : (lineFeeds cs).getLast? with
      | none => rfl
      | some feed =>
        have := lt_of_mem_lineFeeds _ feed (List.mem_of_getLast? hlast)
        simp only [Point.mk.injEq, true_and]
        omega

/-- The point of an offset is reached by moving over what lies before it. -/
theorem locate_append (cs ds : List Char) :
    (LineIndex.ofText (cs ++ ds)).locate (byteSize cs) = Point.after ⟨0, 0⟩ cs := by
  have hbefore := lt_of_mem_lineFeeds cs
  have hbehind : ∀ feed ∈ (lineFeeds ds).map (byteSize cs + ·), byteSize cs ≤ feed := by simp
  rw [LineIndex.locate_ofText, lineFeeds_append, pointAmong_append hbefore hbehind,
    ← pointAmong_lineFeeds, ← (lineFeeds cs).append_nil,
    pointAmong_append hbefore (List.forall_mem_nil _), List.append_nil]

/-! ## Starts of lines -/

theorem flatten_rawLines (cs : List Char) : (rawLines cs).flatten = cs := by
  induction cs with
  | nil => rfl
  | cons c cs ih =>
    rw [rawLines]
    split
    · simp [ih]
    · split
      · rename_i hnil
        rw [hnil] at ih
        simp [← ih]
      · rename_i line rest hcons
        rw [hcons] at ih
        simp [← ih]

/-- Behind the last line is the end of the text. -/
theorem lineStart_length_rawLines (cs : List Char) :
    lineStart cs ((rawLines cs).length + 1) = byteSize cs := by
  rw [lineStart, Nat.add_sub_cancel, List.take_length, flatten_rawLines]

@[simp]
theorem lineStart_one (cs : List Char) : lineStart cs 1 = 0 :=
  rfl

theorem lineStart_newline (cs : List Char) (n : Nat) :
    lineStart ('\n' :: cs) (n + 2) = 1 + lineStart cs (n + 1) := by
  simp [lineStart, rawLines, Char.utf8Size]

theorem lineStart_cons {c : Char} (hc : c ≠ '\n') (cs : List Char) (n : Nat) :
    lineStart (c :: cs) (n + 2) = c.utf8Size + lineStart cs (n + 2) := by
  simp only [lineStart, rawLines, if_neg hc]
  split
  · rename_i hnil
    simp [hnil]
  · rename_i line rest hcons
    simp [hcons]

/-- A line but the first begins behind a line feed. -/
theorem lineStart_eq {cs : List Char} {i feed : Nat} (h : (lineFeeds cs)[i]? = some feed) :
    lineStart cs (i + 2) = feed + 1 := by
  induction cs generalizing i feed with
  | nil => simp [lineFeeds, lineFeeds.go] at h
  | cons c cs ih =>
    by_cases hc : c = '\n'
    · subst hc
      rw [lineStart_newline]
      rw [lineFeeds_newline] at h
      cases i with
      | zero =>
        obtain rfl : 0 = feed := by simpa using h
        rfl
      | succ i =>
        obtain ⟨feed, hfeed, rfl⟩ :
            ∃ feed', (lineFeeds cs)[i]? = some feed' ∧ 1 + feed' = feed := by
          simpa using h
        rw [ih hfeed, Nat.add_assoc]
    · rw [lineFeeds_cons hc] at h
      obtain ⟨feed, hfeed, rfl⟩ :
          ∃ feed', (lineFeeds cs)[i]? = some feed' ∧ c.utf8Size + feed' = feed := by
        simpa using h
      rw [lineStart_cons hc, ih hfeed, Nat.add_assoc]

/-- Every line feed ends a line. -/
theorem length_lineFeeds_le (cs : List Char) : (lineFeeds cs).length ≤ (rawLines cs).length := by
  induction cs with
  | nil => exact Nat.le_refl 0
  | cons c cs ih =>
    by_cases hc : c = '\n'
    · subst hc
      simpa [lineFeeds_newline, rawLines] using ih
    · simp only [lineFeeds_cons hc, List.length_map, rawLines, if_neg hc]
      split
      · rename_i hnil
        simp only [hnil] at ih
        exact Nat.le_trans ih (Nat.zero_le _)
      · rename_i line rest hcons
        simpa [hcons] using ih

/-- The line and column of an offset lead back to it. -/
theorem offsetOf_locate {cs : List Char} {offset : Nat} (hoffset : offset ≤ byteSize cs) :
    offsetOf cs (((LineIndex.ofText cs).locate offset).row + 1)
      (((LineIndex.ofText cs).locate offset).column + 1) = offset := by
  have hsum : lineStart cs ((pointAmong (lineFeeds cs) offset).row + 1) +
      (pointAmong (lineFeeds cs) offset).column = offset := by
    dsimp only [pointAmong]
    rcases hrow : (lineFeeds cs).countP (· < offset) with _ | i
    · simp
    · have hle : (lineFeeds cs).countP (· < offset) ≤ (lineFeeds cs).length :=
        List.countP_le_length
      have hi : i < (lineFeeds cs).length := by omega
      have hbelow : (lineFeeds cs)[i] < offset :=
        getElem_lt_of_lt_countP (pairwise_lineFeeds cs) hi (by omega)
      rw [lineStart_eq (List.getElem?_eq_getElem hi), if_neg (Nat.succ_ne_zero i),
        Nat.add_sub_cancel, List.getD_eq_getElem _ _ hi]
      omega
  have hle : (pointAmong (lineFeeds cs) offset).row ≤ (rawLines cs).length :=
    Nat.le_trans List.countP_le_length (length_lineFeeds_le cs)
  rw [LineIndex.locate_ofText, offsetOf, if_neg (Nat.succ_ne_zero _)]
  split
  · exact hsum
  · -- The offset lies behind the last line, which a line feed ends.
    rename_i hbehind
    have hrow : (pointAmong (lineFeeds cs) offset).row = (rawLines cs).length := by omega
    rw [hrow, lineStart_length_rawLines] at hsum
    omega

end Text

end SdkLint
