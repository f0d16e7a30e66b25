import Mathlib.Data.List.Find
import SdkLint.Proofs.Rules.JavadocAnchors
import SdkLint.Proofs.Text.Cuts

/-!
# Spaces after Javadoc tags

The checked tag of a line is its first word.  If more than the tag stands in the line, then the rule
about Javadoc looks at the blanks behind the tag: it reports the line if two spaces or a tab come
first.  A single space is right.  Other blanks are passed over, and so are those that follow a
single space.

Main definition:

- `isOverlooked`: blanks that are not a single space and are passed over all the same.

Main results:

- Theorem `DocLine.checkedTag?_eq_some_iff`: the checked tag of a line is its first word.
- Theorem `mem_checkComment_iff_of_spacing`: which lines of a comment have wrong spaces.
- Theorem `spacing_reportsAt_iff`: a line is reported unless a single space follows its tag or the
  blanks are passed over.
-/

namespace SdkLint.Javadoc

open Text

/-! ## Runs of blanks -/

/-- Blanks that are not a single space and are passed over all the same: one that is neither a space
nor a tab comes first, or one space does and a blank that is no space follows it. -/
def isOverlooked : List Char → Bool
  | ' ' :: c :: _ => c != ' '
  | c :: _ => c != ' ' && c != '\t'
  | [] => false

/-- In front of a character that is not blank, spaces are wrong unless there is a single one or they
are passed over. -/
theorem isMisspaced_append_iff {run : List Char} (hrun : run ≠ []) {c : Char}
    (hc : Text.isBlank c = false) (rest : List Char) :
    isMisspaced (run ++ c :: rest) = true ↔ run ≠ [' '] ∧ isOverlooked run = false := by
  have hspace : c ≠ ' ' := by
    rintro rfl
    exact absurd hc (by decide)
  rcases run with _ | ⟨a, _ | ⟨b, run⟩⟩
  · exact absurd rfl hrun
  · by_cases ha : a = ' '
    · subst ha
      simp [isMisspaced, hspace]
    · by_cases htab : a = '\t'
      · subst htab
        simp [isMisspaced, isOverlooked]
      · simp [isMisspaced, isOverlooked, ha, htab]
  · by_cases ha : a = ' '
    · subst ha
      by_cases hb : b = ' '
      · subst hb
        simp [isMisspaced, isOverlooked]
      · simp [isMisspaced, isOverlooked, hb]
    · by_cases htab : a = '\t'
      · subst htab
        simp [isMisspaced, isOverlooked]
      · simp [isMisspaced, isOverlooked, ha, htab]

/-! ## First words -/

theorem isBlank_of_mem_checkedTag :
    ∀ tag ∈ checkedTags, ∀ c ∈ tag.toList, (!Text.isBlank c) = true := by
  simp [checkedTags, Text.isBlank]

/-- Looking for a tag that ends the line or has a blank behind it is looking for the first word. -/
theorem DocLine.checkedTag?_eq (line : DocLine) :
    line.checkedTag? = checkedTags.find? fun tag =>
      line.content.takeWhile (fun c => !Text.isBlank c) == tag.toList := by
  refine List.find?_congr fun tag htag => Bool.eq_iff_iff.2 ?_
  rw [beq_iff_eq]
  have hunblank (rest : List Char) : (tag.toList ++ rest).takeWhile (fun c => !Text.isBlank c) =
      tag.toList ++ rest.takeWhile fun c => !Text.isBlank c :=
    List.takeWhile_append_of_pos (isBlank_of_mem_checkedTag tag htag)
  constructor
  · intro hfound
    split at hfound
    · rename_i hdrop
      rw [eq_append_of_dropPrefix? hdrop, hunblank, List.takeWhile_nil, List.append_nil]
    · rename_i c rest hdrop
      rw [eq_append_of_dropPrefix? hdrop, hunblank, List.takeWhile_cons_of_neg (by simp [hfound]),
        List.append_nil]
    · cases hfound
  · intro hword
    have hcontent : tag.toList ++ line.content.dropWhile (fun c => !Text.isBlank c) =
        line.content := by
      rw [← hword, List.takeWhile_append_dropWhile]
    have hhead := List.head?_dropWhile_not (fun c => !Text.isBlank c) line.content
    rw [← hcontent, dropPrefix?_append]
    cases hrest : line.content.dropWhile (fun c => !Text.isBlank c) with
    | nil => rfl
    | cons c rest =>
      rw [hrest] at hhead
      simpa using hhead

/-- The checked tag of a line is its first word. -/
theorem DocLine.checkedTag?_eq_some_iff {line : DocLine} {tag : String} :
    line.checkedTag? = some tag ↔
      tag ∈ checkedTags ∧ line.content.takeWhile (fun c => !Text.isBlank c) = tag.toList := by
  rw [checkedTag?_eq]
  constructor
  · intro hfound
    exact ⟨List.mem_of_find?_eq_some hfound, by simpa using List.find?_some hfound⟩
  · rintro ⟨htag, hword⟩
    obtain ⟨other, hother⟩ : ∃ other, checkedTags.find? (fun tag =>
        line.content.takeWhile (fun c => !Text.isBlank c) == tag.toList) = some other :=
      Option.isSome_iff_exists.1 (List.find?_isSome.2 ⟨tag, htag, by simpa using hword⟩)
    have hwords : line.content.takeWhile (fun c => !Text.isBlank c) = other.toList := by
      simpa using List.find?_some hother
    obtain rfl : other = tag := String.toList_inj.1 (hwords.symm.trans hword)
    exact hother

/-! ## Numbers of lines -/

theorem map_index_go (index start : Nat) (pieces : List (List Char)) :
    (docLines.go index start pieces).map DocLine.index = List.range' index pieces.length := by
  induction pieces generalizing index start with
  | nil => rfl
  | cons raw rest ih =>
    rw [docLines.go, List.map_cons, ih, List.length_cons, List.range'_succ]
    rfl

/-- No two lines of a comment have the same number. -/
theorem eq_of_index_eq {comment : List Char} {line line' : DocLine} (h : line ∈ docLines comment)
    (h' : line' ∈ docLines comment) (hindex : line.index = line'.index) : line = line' := by
  refine List.inj_on_of_nodup_map ?_ h h' hindex
  rw [docLines, map_index_go]
  exact List.nodup_range'

/-! ## Wrong spaces -/

/-- What is said about a tag with wrong spaces behind it. -/
def spacingMessage (tag : String) : String :=
  "Exactly one space is required after '" ++ tag ++ "'"

/-- A finding that is not about spaces, as its first letter shows. -/
def IsOther (finding : Finding) : Prop :=
  finding.message.toList.head? ≠ some 'E'

variable {site : Site} {line : DocLine} {finding : Finding}

theorem isOther_finding {offset length : Nat} {message : String}
    (h : message.toList.head? ≠ some 'E') : IsOther (site.finding line offset length message) :=
  h

theorem isOther_checkInlineTags (site : Site) (line : DocLine) :
    Finding.Every IsOther (checkInlineTags site line) :=
  .flatMap _ fun tag => .map _ fun offset => isOther_finding (by simp)

/-- What is said about a line with a tag: whether its spaces are wrong, and other things. -/
theorem checkTagLine_eq (site : Site) (line : DocLine) (tag : String) (later : List DocLine) :
    ∃ others, Finding.Every IsOther others ∧ checkTagLine site line tag later =
      (if !(trimBoth (line.content.drop tag.length)).isEmpty &&
          isMisspaced (line.content.drop tag.length) then
        [site.finding line 0 tag.utf8ByteSize (spacingMessage tag)]
      else []) ++ others := by
  refine ⟨_, ?_, rfl⟩
  refine .ite _ (.ite _ (.one (isOther_finding ?_)) (.ite _ .nil (.one (isOther_finding ?_))))
    (.ite _ (.one (isOther_finding ?_)) .nil)
  · simp
  · simp
  · simp

/-- A line has wrong spaces: it begins with a checked tag, and more follows, but not behind a single
space. -/
def DocLine.IsMisspaced (line : DocLine) (tag : String) : Prop :=
  line.checkedTag? = some tag ∧ trimBoth (line.content.drop tag.length) ≠ [] ∧
    isMisspaced (line.content.drop tag.length) = true

/-- The first of some lines is reported for its spaces if they are wrong. -/
theorem mem_checkLines_cons_iff_of_spacing (hspacing : ¬ IsOther finding) (later : List DocLine) :
    finding ∈ checkLines site (line :: later) ↔
      (∃ tag, line.IsMisspaced tag ∧
        finding = site.finding line 0 tag.utf8ByteSize (spacingMessage tag)) ∨
      finding ∈ checkLines site later := by
  have hinline : finding ∉ checkInlineTags site line := fun h =>
    hspacing (isOther_checkInlineTags site line finding h)
  rw [checkLines, List.mem_append, List.mem_append]
  simp only [hinline, false_or]
  cases htag : line.checkedTag? with
  | none => simp [DocLine.IsMisspaced, htag]
  | some tag =>
    obtain ⟨others, hothers, heq⟩ := checkTagLine_eq site line tag later
    have hnot : finding ∉ others := fun h => hspacing (hothers finding h)
    simp [DocLine.IsMisspaced, htag, heq, hnot, and_assoc]

theorem mem_checkLines_iff_of_spacing (hspacing : ¬ IsOther finding) {lines : List DocLine} :
    finding ∈ checkLines site lines ↔ ∃ line ∈ lines, ∃ tag, line.IsMisspaced tag ∧
      finding = site.finding line 0 tag.utf8ByteSize (spacingMessage tag) := by
  induction lines with
  | nil => simp [checkLines]
  | cons line later ih =>
    rw [mem_checkLines_cons_iff_of_spacing hspacing, ih, List.exists_mem_cons_iff]

theorem isOther_checkLayout (site : Site) (lines : List DocLine) :
    Finding.Every IsOther (checkLayout site lines) := by
  dsimp only [checkLayout]
  split
  · exact .nil
  · refine .append (.ite _ (.one (isOther_finding ?_)) .nil) (.map _ fun line => isOther_finding ?_)
    · simp
    · simp

/-- A comment is reported for the lines with wrong spaces. -/
theorem mem_checkComment_iff_of_spacing (hspacing : ¬ IsOther finding) {comment : List Char} :
    finding ∈ checkComment site comment ↔ ∃ line ∈ docLines comment, ∃ tag, line.IsMisspaced tag ∧
      finding = site.finding line 0 tag.utf8ByteSize (spacingMessage tag) := by
  have hlayout : finding ∉ checkLayout site (docLines comment) := fun h =>
    hspacing (isOther_checkLayout site (docLines comment) finding h)
  rw [checkComment, List.mem_append, mem_checkLines_iff_of_spacing hspacing]
  simp only [hlayout, or_false]

theorem not_isOther_of_message {tag : String} (h : finding.message = spacingMessage tag) :
    ¬ IsOther finding := by
  rw [IsOther, h, not_not]
  delta spacingMessage
  simp

/-! ## Reports -/

/-- A line in which more follows a tag has wrong spaces unless a single space follows the tag or the
blanks are passed over. -/
theorem DocLine.isMisspaced_iff {tag tag' : String} (htag : tag ∈ checkedTags)
    {run rest : List Char} {c : Char} (hcontent : line.content = tag.toList ++ (run ++ c :: rest))
    (hrun : run ≠ []) (hblank : ∀ b ∈ run, Text.isBlank b = true)
    (hc : Text.isBlank c = false) :
    line.IsMisspaced tag' ↔ tag' = tag ∧ run ≠ [' '] ∧ isOverlooked run = false := by
  have hword : line.content.takeWhile (fun c => !Text.isBlank c) = tag.toList := by
    obtain ⟨b, run, rfl⟩ := List.exists_cons_of_ne_nil hrun
    rw [hcontent, List.takeWhile_append_of_pos (isBlank_of_mem_checkedTag tag htag),
      List.cons_append, List.takeWhile_cons_of_neg (by simp [hblank b]), List.append_nil]
  have hchecked : line.checkedTag? = some tag := checkedTag?_eq_some_iff.2 ⟨htag, hword⟩
  have hdrop : line.content.drop tag.length = run ++ c :: rest := by
    rw [hcontent, ← String.length_toList, List.drop_left]
  have hargs : trimBoth (run ++ c :: rest) ≠ [] := trimBoth_ne_nil (by simp) hc
  constructor
  · rintro ⟨hchecked', -, hmisspaced⟩
    obtain rfl : tag = tag' := Option.some.inj (hchecked.symm.trans hchecked')
    rw [hdrop] at hmisspaced
    exact ⟨rfl, (isMisspaced_append_iff hrun hc rest).1 hmisspaced⟩
  · rintro ⟨rfl, hwrong⟩
    rw [IsMisspaced, hdrop]
    exact ⟨hchecked, hargs, (isMisspaced_append_iff hrun hc rest).2 hwrong⟩

/-- A line of a comment in which more follows a checked tag is reported for its spaces, unless a
single space follows the tag or the blanks there are passed over. -/
theorem spacing_reportsAt_iff {rules : List ActiveRule} {input : WalkInput} {place : Nat}
    {severity : Severity} {i : NodeId}
    (hrule : (rules[place]?).map ActiveRule.rule = some (Javadoc.rule severity))
    {token : String} (hjavadoc : input.tree.isJavadoc i = true)
    (htoken : input.tree.token i = some token) (hline : line ∈ docLines token.toList)
    {tag : String} (htag : tag ∈ checkedTags) {run rest : List Char} {c : Char}
    (hcontent : line.content = tag.toList ++ (run ++ c :: rest)) (hrun : run ≠ [])
    (hblank : ∀ b ∈ run, Text.isBlank b = true) (hc : Text.isBlank c = false) :
    (∃ finding, ReportsAt rules input place i finding ∧
      finding.position.line = (input.tree.position i).line + line.index ∧
      finding.message = spacingMessage tag) ↔ run ≠ [' '] ∧ isOverlooked run = false := by
  have hwrong {tag' : String} : line.IsMisspaced tag' ↔
      tag' = tag ∧ run ≠ [' '] ∧ isOverlooked run = false :=
    DocLine.isMisspaced_iff htag hcontent hrun hblank hc
  constructor
  · rintro ⟨finding, hreported, hposition, hmessage⟩
    obtain ⟨line', hline', tag', hmisspaced, rfl⟩ :=
      (mem_checkComment_iff_of_spacing (not_isOther_of_message hmessage)).1
        ((reportsAt_iff hrule hjavadoc htoken).1 hreported)
    -- The finding is in this line, as no other has the number.
    have hindex : line'.index = line.index := Nat.add_left_cancel hposition
    obtain rfl := eq_of_index_eq hline' hline hindex
    exact (hwrong.1 hmisspaced).2
  · intro hrun
    refine ⟨_, (reportsAt_iff hrule hjavadoc htoken).2
      ((mem_checkComment_iff_of_spacing ?_).2 ⟨line, hline, tag, hwrong.2 ⟨rfl, hrun⟩, rfl⟩),
      rfl, rfl⟩
    exact not_isOther_of_message rfl

/-- A comment with a space and a tab behind a tag, and two spaces behind another. -/
def spacedText : String :=
  "/**\n * @param \tid the id\n * @return  it\n */"

def spacedInput : WalkInput where
  file := .ofPath "A.java" spacedText ""
  tree := (Outline.node .comment ⟨0, 41⟩ ⟨1, 1⟩ (some spacedText) []).toTree spacedText
  resolver := fun _ => none

/-- The space and the tab are passed over, and the two spaces are reported. -/
theorem spacedInput_reported :
    spacedInput.tree.isJavadoc 0 = true ∧ spacedInput.tree.token 0 = some spacedText ∧
      (∃ line ∈ docLines spacedText.toList, line.index = 1 ∧
        line.content = "@param".toList ++ ([' ', '\t'] ++ 'i' :: "d the id".toList)) ∧
      (¬ ∃ finding, ReportsAt [Javadoc.rule.active] spacedInput 0 0 finding ∧
        finding.position.line = 2 ∧ finding.message = spacingMessage "@param") ∧
      (∃ line ∈ docLines spacedText.toList, line.index = 2 ∧
        line.content = "@return".toList ++ ([' ', ' '] ++ 'i' :: "t".toList)) ∧
      ∃ finding, ReportsAt [Javadoc.rule.active] spacedInput 0 0 finding ∧
        finding.position.line = 3 ∧ finding.message = spacingMessage "@return" := by
  have hjavadoc : spacedInput.tree.isJavadoc 0 = true := by decide +kernel
  have htoken : spacedInput.tree.token 0 = some spacedText := by decide +kernel
  have hparam : ∃ line ∈ docLines spacedText.toList, line.index = 1 ∧
      line.content = "@param".toList ++ ([' ', '\t'] ++ 'i' :: "d the id".toList) := by
    decide +kernel
  have hreturn : ∃ line ∈ docLines spacedText.toList, line.index = 2 ∧
      line.content = "@return".toList ++ ([' ', ' '] ++ 'i' :: "t".toList) := by
    decide +kernel
  have hrule : ([Javadoc.rule.active][0]?).map ActiveRule.rule = some Javadoc.rule := rfl
  have hfirst : (spacedInput.tree.position 0).line = 1 := by decide +kernel
  refine ⟨hjavadoc, htoken, hparam, ?_, hreturn, ?_⟩
  · obtain ⟨line, hline, hindex, hcontent⟩ := hparam
    have hreported := spacing_reportsAt_iff hrule hjavadoc htoken hline (by decide) hcontent
      (by decide) (by simp [Text.isBlank]) (by decide)
    rw [hfirst, hindex] at hreported
    exact fun h => absurd (hreported.1 h) (by decide)
  · obtain ⟨line, hline, hindex, hcontent⟩ := hreturn
    have hreported := spacing_reportsAt_iff hrule hjavadoc htoken hline (by decide) hcontent
      (by decide) (by simp [Text.isBlank]) (by decide)
    rw [hfirst, hindex] at hreported
    exact hreported.2 (by decide)

end SdkLint.Javadoc
