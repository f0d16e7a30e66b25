import SdkLint.Proofs.Java.Places
import SdkLint.Proofs.Rules.Verdicts

/-!
# What findings about Javadoc mark

The rule about Javadoc takes a comment apart line by line and reports places in it.  The place that
it reports is that of the text it is about: the byte range holds this text, and the line and column
are those of its start in the whole file.

Main definitions:

- `Finding.LocatedIn`: a finding whose line and column lead to its range.
- `Finding.Marks`: a finding that marks a stretch of a text.
- `Javadoc.DocLine.LiesIn`: a line of a comment that is where it says.
- `Javadoc.IsAbout`: the text that a message is about.

Main results:

- Theorem `Finding.Marks.locatedIn`: a finding that marks a stretch is located.
- Theorem `Javadoc.IsAbout.unique`: a message is about one text.
- Theorem `Javadoc.checkComment_marks`: findings about a comment mark what their messages are about.
-/

namespace SdkLint

open Text

/-! ## Located findings -/

/-- The line and column of a finding lead to its range, which lies inside the text. -/
structure Finding.LocatedIn (source : String) (finding : Finding) : Prop where
  offset_eq : offsetOf source.toList finding.position.line finding.position.column =
    finding.span.start
  within : finding.span.start + finding.span.length ≤ source.utf8ByteSize

/-- A finding marks a stretch of a text: its range holds the stretch, and its line and column are
those of the start. -/
def Finding.Marks (cs stretch : List Char) (finding : Finding) : Prop :=
  ∃ before after, cs = before ++ (stretch ++ after) ∧
    finding.span = ⟨byteSize before, byteSize before + byteSize stretch⟩ ∧
    finding.position = (Point.after ⟨0, 0⟩ before).position

/-- A finding that marks a stretch is located. -/
theorem Finding.Marks.locatedIn {source : String} {stretch : List Char} {finding : Finding}
    (h : finding.Marks source.toList stretch) : finding.LocatedIn source := by
  obtain ⟨before, after, hsource, hspan, hposition⟩ := h
  have hsize : byteSize before + (byteSize stretch + byteSize after) = source.utf8ByteSize := by
    rw [← byteSize_toList, hsource, byteSize_append, byteSize_append]
  constructor
  case offset_eq =>
    rw [hposition, hspan, ← locate_append before (stretch ++ after), ← hsource]
    exact offsetOf_locate (by rw [byteSize_toList]; omega)
  case within =>
    rw [hspan, Span.length]
    dsimp only
    omega

namespace Javadoc

/-! ## Lines -/

theorem standsAt_dropBlanks (cs : List Char) : StandsAt cs (dropBlanks cs).1 (dropBlanks cs).2 :=
  standsAt_dropWhile_isBlank cs

/-- Without the end mark and leading blanks, what is left stands behind the blanks. -/
theorem standsAt_shut (cs : List Char) :
    StandsAt cs (dropBlanks ((dropSuffix? "*/".toList cs).getD cs)).1
      (dropBlanks ((dropSuffix? "*/".toList cs).getD cs)).2 := by
  simpa using (standsAt_dropSuffix "*/".toList cs).trans (standsAt_dropBlanks _)

/-- What is left of a line stands in it at its column. -/
theorem DocLine.standsAt_ofRaw (index start : Nat) (raw : List Char) :
    StandsAt raw (ofRaw index start raw).column (ofRaw index start raw).content := by
  have hline := standsAt_trimEnd raw
  dsimp only [ofRaw]
  cases index with
  | zero =>
    rw [if_pos rfl]
    split
    · rename_i rest hrest
      have hopening : StandsAt (trimEnd raw) 3 rest :=
        eq_append_of_dropPrefix? hrest ▸ .right "/**".toList rest
      simpa using ((hline.trans hopening).trans (standsAt_shut rest)).trans (standsAt_trimEnd _)
    · simpa using (hline.trans (standsAt_shut _)).trans (standsAt_trimEnd _)
  | succ index =>
    rw [if_neg index.succ_ne_zero]
    have hshut := hline.trans (standsAt_shut _)
    split
    · rename_i rest _ hrest
      rw [hrest] at hshut
      have hstar : StandsAt ('*' :: rest) (1 + (dropBlanks rest).1) (dropBlanks rest).2 :=
        (StandsAt.right ['*'] rest).trans (standsAt_dropBlanks rest)
      simpa using (hshut.trans hstar).trans (standsAt_trimEnd _)
    · simpa using hshut.trans (standsAt_trimEnd _)

/-- A line is where it says in a text that begins at some line and offset: it begins at its offset,
behind as many line feeds as its number says, and its content stands at its column. -/
def DocLine.LiesIn (cs : List Char) (index start : Nat) (line : DocLine) : Prop :=
  ∃ before raw after k, cs = before ++ (raw ++ after) ∧ '\n' ∉ raw ∧ line.index = index + k ∧
    line.start = start + byteSize before ∧ StandsAt raw line.column line.content ∧
    ∀ p : Point, p.after before = if k = 0 then p else ⟨p.row + k, 0⟩

theorem liesIn_of_mem_go (cs : List Char) (index start : Nat) :
    ∀ line ∈ docLines.go index start (splitOn '\n' cs), line.LiesIn cs index start := by
  generalize hpieces : splitOn '\n' cs = pieces
  induction pieces generalizing cs index start with
  | nil => exact fun line hline => absurd hline List.not_mem_nil
  | cons piece pieces ih =>
    rw [docLines.go, List.forall_mem_cons]
    rcases splitOn_cases '\n' cs with ⟨hnot, hsplit⟩ | ⟨piece', rest, hnot, rfl, hsplit⟩
    · obtain ⟨rfl, rfl⟩ := List.cons.inj (hsplit.symm.trans hpieces)
      exact ⟨⟨[], cs, [], 0, by simp, hnot, rfl, rfl, DocLine.standsAt_ofRaw _ _ _, fun _ => rfl⟩,
        fun line hline => absurd hline List.not_mem_nil⟩
    · -- The later lines are those of what follows the line feed.
      obtain ⟨rfl, hrest⟩ := List.cons.inj (hsplit.symm.trans hpieces)
      refine ⟨⟨[], piece', '\n' :: rest, 0, rfl, hnot, rfl, rfl, DocLine.standsAt_ofRaw _ _ _,
        fun _ => rfl⟩, fun line hline => ?_⟩
      obtain ⟨before, raw, after, k, rfl, hraw, hindex, hstart, hcontent, hpoint⟩ :=
        ih _ _ _ hrest line hline
      have hsize : byteSize (piece' ++ '\n' :: before) =
          byteSize piece' + (1 + byteSize before) := by
        simp [Char.utf8Size]
      refine ⟨piece' ++ '\n' :: before, raw, after, k + 1, by simp, hraw, by omega, by omega,
        hcontent, fun p => ?_⟩
      have hfeed : p.after (piece' ++ '\n' :: before) = Point.after ⟨p.row + 1, 0⟩ before := by
        rw [Point.after_append, Point.after_of_notMem hnot]
        rfl
      rw [hfeed, hpoint, if_neg (Nat.succ_ne_zero k)]
      split
      · rename_i hk
        rw [hk]
      · simp only [Point.mk.injEq, and_true]
        omega

/-- The lines of a comment are where they say. -/
theorem liesIn_of_mem_docLines {comment : List Char} {line : DocLine}
    (h : line ∈ docLines comment) : line.LiesIn comment 0 0 :=
  liesIn_of_mem_go comment 0 0 line h

/-! ## Sites -/

/-- A comment stands at a site. -/
def Site.Holds (cs comment : List Char) (site : Site) : Prop :=
  ∃ before after, cs = before ++ (comment ++ after) ∧ site.span.start = byteSize before ∧
    site.position = (Point.after ⟨0, 0⟩ before).position

/-- The text in the range of a site stands there. -/
theorem Site.holds_of_slice {source token : String} {site : Site}
    (hslice : Text.slice source site.span.start site.span.stop = token) (htoken : token ≠ "")
    (hposition : site.position =
      ((Text.LineIndex.ofText source.toList).locate site.span.start).position) :
    site.Holds source.toList token.toList := by
  obtain ⟨⟨before, after, hsource, hstart⟩, -⟩ := Text.standsAt_of_slice hslice htoken
  refine ⟨before, after, hsource, hstart.symm, ?_⟩
  rw [hposition, hsource, ← hstart, Text.locate_append]

variable {cs comment : List Char} {site : Site} {line : DocLine}

/-- A finding about a stretch of a line marks it. -/
theorem Site.Holds.finding_marks (hsite : site.Holds cs comment) (hline : line.LiesIn comment 0 0)
    {offset : Nat} {stretch : List Char} (hstretch : StandsAt line.content offset stretch)
    (message : String) :
    (site.finding line offset (byteSize stretch) message).Marks cs stretch := by
  obtain ⟨before, after, rfl, hstart, hposition⟩ := hsite
  obtain ⟨before', raw, after', k, rfl, hraw, hindex, hstart', hcontent, hpoint⟩ := hline
  obtain ⟨lead, trail, rfl, hlead⟩ := hcontent.trans hstretch
  have hnot : '\n' ∉ lead := fun hmem => hraw (List.mem_append_left _ hmem)
  have hsize : byteSize (before ++ (before' ++ lead)) =
      site.span.start + line.start + line.column + offset := by
    rw [byteSize_append, byteSize_append]
    omega
  refine ⟨before ++ (before' ++ lead), trail ++ (after' ++ after), by simp, ?_, ?_⟩
  · rw [hsize]
    rfl
  · have hplace : (site.finding line offset (byteSize stretch) message).position =
        ⟨site.position.line + line.index,
          if line.index = 0 then site.position.column + line.column + offset
          else line.column + offset + 1⟩ := rfl
    have hk : line.index = k := by omega
    rw [Point.after_append, Point.after_append, Point.after_of_notMem hnot, hpoint, hplace,
      hposition, hk]
    split
    · simp only [Point.position, Position.mk.injEq]
      omega
    · simp only [Point.position, Position.mk.injEq]
      omega

/-! ## Tags -/

/-- A tag that stands alone stands where it is found. -/
theorem standsAt_of_mem_standaloneTags {tag cs : List Char} {before : Option Char}
    {start offset : Nat} (h : offset ∈ standaloneTags tag before start cs) :
    ∃ n, offset = start + n ∧ StandsAt cs n tag := by
  induction cs generalizing before start with
  | nil => cases h
  | cons c cs ih =>
    have hlater (h : offset ∈ standaloneTags tag (some c) (start + c.utf8Size) cs) :
        ∃ n, offset = start + n ∧ StandsAt (c :: cs) n tag := by
      obtain ⟨n, rfl, hstands⟩ := ih h
      exact ⟨c.utf8Size + n, by omega, (StandsAt.right [c] cs).trans hstands⟩
    dsimp only [standaloneTags] at h
    cases hdrop : dropPrefix? tag (c :: cs) with
    | none =>
      simp only [hdrop, Bool.and_false] at h
      exact hlater h
    | some rest =>
      simp only [hdrop] at h
      split at h
      · rcases List.mem_cons.1 h with rfl | h
        · exact ⟨0, rfl, eq_append_of_dropPrefix? hdrop ▸ .left tag rest⟩
        · exact hlater h
      · exact hlater h

/-- A checked tag begins its line. -/
theorem standsAt_of_checkedTag? {tag : String} (h : line.checkedTag? = some tag) :
    StandsAt line.content 0 tag.toList := by
  have hfound := List.find?_some h
  split at hfound
  · rename_i hdrop
    exact eq_append_of_dropPrefix? hdrop ▸ .left tag.toList _
  · rename_i hdrop
    exact eq_append_of_dropPrefix? hdrop ▸ .left tag.toList _
  · cases hfound

/-- A tag begins with its sign. -/
theorem standsAt_of_isTag (h : line.isTag = true) : StandsAt line.content 0 ['@'] := by
  unfold DocLine.isTag at h
  split at h
  · rename_i hcontent
    rw [hcontent]
    exact .left ['@'] _
  · cases h

/-! ## Messages -/

/-- The text that a message is about: a checked tag if the message says where it stands, what
follows it or what it lacks, the sign of the first tag if the description is not parted from it, and
nothing if a line is blank. -/
inductive IsAbout : (message stretch : String) → Prop
  | ownLine {tag : String} (h : tag ∈ checkedTags) :
      IsAbout ("Javadoc block tag '" ++ tag ++ "' must start on its own line") tag
  | spacing {tag : String} (h : tag ∈ checkedTags) :
      IsAbout ("Exactly one space is required after '" ++ tag ++ "'") tag
  | unnamed {tag : String} (h : tag ∈ checkedTags) (what : String) :
      IsAbout ("'" ++ tag ++ "' must name the " ++ what) tag
  | undescribed {tag : String} (h : tag ∈ checkedTags) :
      IsAbout ("'" ++ tag ++ "' has no description") tag
  | undescribedSubject {tag : String} (h : tag ∈ checkedTags) (subject : String) :
      IsAbout ("'" ++ tag ++ " " ++ subject ++ "' has no description") tag
  | separation :
      IsAbout "Javadoc description must be separated from the first block tag by a blank line" "@"
  | blankLine : IsAbout "Blank lines are not allowed between Javadoc block tags" ""

/-- How messages begin, each with the text that they are then about. -/
def openings : List (String × String) :=
  ("Javadoc description", "@") :: ("Blank lines", "") :: checkedTags.flatMap fun tag =>
    [("Javadoc block tag '" ++ tag, tag), ("Exactly one space is required after '" ++ tag, tag),
      ("'" ++ tag, tag)]

/-- A message begins with one of the openings. -/
theorem IsAbout.exists_opening {message stretch : String} (h : IsAbout message stretch) :
    ∃ opening, (opening, stretch) ∈ openings ∧ opening.toList <+: message.toList := by
  have hmem {tag : String} (htag : tag ∈ checkedTags) : ∀ entry ∈
      [("Javadoc block tag '" ++ tag, tag), ("Exactly one space is required after '" ++ tag, tag),
        ("'" ++ tag, tag)], entry ∈ openings :=
    fun entry hentry => List.mem_cons_of_mem _ <| List.mem_cons_of_mem _ <|
      List.mem_flatMap.2 ⟨tag, htag, hentry⟩
  have hbegin (beginning rest : String) : beginning.toList <+: (beginning ++ rest).toList := by
    rw [String.toList_append]
    exact List.prefix_append _ _
  cases h with
  | ownLine htag =>
    exact ⟨"Javadoc block tag '" ++ stretch, hmem htag _ (by simp), hbegin _ _⟩
  | spacing htag =>
    exact ⟨"Exactly one space is required after '" ++ stretch, hmem htag _ (by simp), hbegin _ _⟩
  | unnamed htag what =>
    exact ⟨"'" ++ stretch, hmem htag _ (by simp), (hbegin _ _).trans (hbegin _ _)⟩
  | undescribed htag =>
    exact ⟨"'" ++ stretch, hmem htag _ (by simp), hbegin _ _⟩
  | undescribedSubject htag subject =>
    exact ⟨"'" ++ stretch, hmem htag _ (by simp),
      ((hbegin _ _).trans (hbegin _ _)).trans (hbegin _ _)⟩
  | separation => exact ⟨"Javadoc description", by simp [openings], by decide +kernel⟩
  | blankLine => exact ⟨"Blank lines", by simp [openings], by decide +kernel⟩

/-- Where one opening begins with another, both are about the same text. -/
theorem openings_agree : ∀ a ∈ openings, ∀ b ∈ openings,
    a.1.toList <+: b.1.toList → a.2 = b.2 := by
  decide +kernel

/-- A message is about one text. -/
theorem IsAbout.unique {message stretch other : String} (h : IsAbout message stretch)
    (hother : IsAbout message other) : stretch = other := by
  obtain ⟨opening, hopening, hprefix⟩ := h.exists_opening
  obtain ⟨opening', hopening', hprefix'⟩ := hother.exists_opening
  rcases List.prefix_or_prefix_of_prefix hprefix hprefix' with hagree | hagree
  · exact openings_agree _ hopening _ hopening' hagree
  · exact (openings_agree _ hopening' _ hopening hagree).symm

/-! ## Findings -/

/-- A finding marks the text that its message is about. -/
def MarksSubject (cs : List Char) (finding : Finding) : Prop :=
  ∃ stretch, IsAbout finding.message stretch ∧ finding.Marks cs stretch.toList

/-- A finding about a checked tag in a line marks it. -/
theorem Site.Holds.finding_marksSubject (hsite : site.Holds cs comment)
    (hline : line.LiesIn comment 0 0) {offset : Nat} {tag message : String}
    (hstands : StandsAt line.content offset tag.toList) (habout : IsAbout message tag) :
    MarksSubject cs (site.finding line offset tag.utf8ByteSize message) :=
  ⟨tag, habout, byteSize_toList tag ▸ hsite.finding_marks hline hstands message⟩

/-- Tags inside a line are marked. -/
theorem checkInlineTags_marks (hsite : site.Holds cs comment) (hline : line.LiesIn comment 0 0) :
    Finding.Every (MarksSubject cs) (checkInlineTags site line) := by
  intro finding hfinding
  obtain ⟨tag, htag, hfinding⟩ := List.mem_flatMap.1 hfinding
  obtain ⟨offset, hoffset, rfl⟩ := List.mem_map.1 hfinding
  obtain ⟨n, rfl, hstands⟩ := standsAt_of_mem_standaloneTags hoffset
  rw [Nat.zero_add]
  exact hsite.finding_marksSubject hline hstands (.ownLine htag)

/-- A checked tag that begins a line is marked. -/
theorem checkTagLine_marks (hsite : site.Holds cs comment) (hline : line.LiesIn comment 0 0)
    {tag : String} (htag : line.checkedTag? = some tag) (later : List DocLine) :
    Finding.Every (MarksSubject cs) (checkTagLine site line tag later) := by
  have hmem : tag ∈ checkedTags := List.mem_of_find?_eq_some htag
  have hnote {message : String} (habout : IsAbout message tag) :
      MarksSubject cs (site.finding line 0 tag.utf8ByteSize message) :=
    hsite.finding_marksSubject hline (standsAt_of_checkedTag? htag) habout
  refine .append (.ite _ (.one (hnote (.spacing hmem))) .nil) (.ite _ (.ite _ ?_ ?_) ?_)
  · exact .one (hnote (.unnamed hmem _))
  · exact .ite _ .nil (.one (hnote (.undescribedSubject hmem _)))
  · exact .ite _ (.one (hnote (.undescribed hmem))) .nil

/-- Findings about single lines mark checked tags. -/
theorem checkLines_marks (hsite : site.Holds cs comment) {lines : List DocLine}
    (hlines : ∀ line ∈ lines, line.LiesIn comment 0 0) :
    Finding.Every (MarksSubject cs) (checkLines site lines) := by
  induction lines with
  | nil => exact .nil
  | cons line later ih =>
    obtain ⟨hline, hlater⟩ := List.forall_mem_cons.1 hlines
    refine .append (.append (checkInlineTags_marks hsite hline) ?_) (ih hlater)
    split
    · rename_i tag htag
      exact checkTagLine_marks hsite hline htag later
    · exact .nil

/-- Findings about the layout mark the sign of the first tag, and nothing on blank lines. -/
theorem checkLayout_marks (hsite : site.Holds cs comment) {lines : List DocLine}
    (hlines : ∀ line ∈ lines, line.LiesIn comment 0 0) :
    Finding.Every (MarksSubject cs) (checkLayout site lines) := by
  have hsuffix := List.dropWhile_suffix (l := lines) fun line => !line.isTag
  dsimp only [checkLayout]
  split
  · exact .nil
  · rename_i first later htags
    rw [htags] at hsuffix
    refine .append (.ite _ (.one ⟨"@", .separation, ?_⟩) .nil) fun finding hfinding => ?_
    · have hfirst : first.isTag = true := by
        have hhead := List.head?_dropWhile_not (fun line : DocLine => !line.isTag) lines
        simpa [htags] using hhead
      exact hsite.finding_marks (hlines first (hsuffix.subset List.mem_cons_self))
        (standsAt_of_isTag hfirst) _
    · obtain ⟨line, hline, rfl⟩ := List.mem_map.1 hfinding
      have htag : line ∈ first :: later := by
        have hblank := List.mem_reverse.1 (List.mem_of_mem_filter hline)
        exact List.mem_reverse.1 ((List.dropWhile_suffix _).subset hblank)
      exact ⟨"", .blankLine, hsite.finding_marks (hlines line (hsuffix.subset htag))
        ⟨[], line.content, rfl, rfl⟩ _⟩

/-- Findings about a comment mark what their messages are about. -/
theorem checkComment_marks (hsite : site.Holds cs comment) :
    Finding.Every (MarksSubject cs) (checkComment site comment) := by
  have hlines : ∀ line ∈ docLines comment, line.LiesIn comment 0 0 :=
    fun line => liesIn_of_mem_docLines
  exact .append (checkLines_marks hsite hlines) (checkLayout_marks hsite hlines)

end Javadoc

end SdkLint
