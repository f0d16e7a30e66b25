import SdkLint.Proofs.Rules.Locations

/-!
# The text that findings about Javadoc point at

What a walk reports about a comment is what the rule about Javadoc finds in it.  If the token of the
comment is the text in its range, and its line and column are those of the start, then the location
of every finding holds exactly the text that the message is about: the tag itself, its sign, or
nothing on a blank line.

Main definition:

- `Location.PointsAt`: a location holds a text and has the line and column of its start.

Main results:

- Theorem `Finding.Marks.pointsAt`: a finding points at the stretch that it marks.
- Theorem `Javadoc.reportsAt_iff`: what is reported about a comment is what is found in it.
- Theorem `Javadoc.pointsAt_of_reportsAt`: findings point at what their messages are about.
-/

namespace SdkLint

/-- A location holds a text: it begins at a boundary between characters, its range is that of the
text, and its line and column are those of the start. -/
structure Location.PointsAt (content stretch : String) (l : Location) : Prop where
  boundary : (String.Pos.Raw.mk l.offset).IsValid content
  slice_eq : Text.slice content l.offset (l.offset + l.length) = stretch
  length_eq : l.length = stretch.utf8ByteSize
  place_eq : ⟨l.line, l.column⟩ =
    ((Text.LineIndex.ofText content.toList).locate l.offset).position

/-- A finding points at the stretch that it marks. -/
theorem Finding.Marks.pointsAt {file : FileContext} {stretch : String} {finding : Finding}
    (h : finding.Marks file.content.toList stretch.toList) :
    (finding.location file).PointsAt file.content stretch := by
  obtain ⟨before, after, hsource, hspan, hposition⟩ := h
  have hstands : Text.StandsAt file.content.toList (Text.byteSize before) stretch.toList :=
    ⟨before, after, hsource, rfl⟩
  have hoffset : (finding.location file).offset = Text.byteSize before :=
    congrArg Span.start hspan
  have hlength : (finding.location file).length = stretch.utf8ByteSize := by
    have hbytes : (finding.location file).length = finding.span.length := rfl
    rw [hbytes, hspan, Span.length, Nat.add_sub_cancel_left, Text.byteSize_toList]
  obtain ⟨hboundary, hslice⟩ := Text.slice_of_standsAt hstands
  constructor
  case boundary => rwa [hoffset]
  case slice_eq => rw [hoffset, hlength, hslice]
  case length_eq => exact hlength
  case place_eq => rw [hoffset, hsource, Text.locate_append, ← hposition]; rfl

namespace Javadoc

/-! ## Reports about comments -/

/-- The rule about Javadoc never fails internally. -/
theorem isFatal_judge (cx : Context) (i : NodeId) : (judge cx i).isFatal = false :=
  (judge_meets cx i).mild

section Reports

variable {rules : List ActiveRule} {input : WalkInput} {place : Nat} {severity : Severity}
  {i : NodeId}

/-- What is reported about a comment is what is found in it. -/
theorem reportsAt_iff
    (hrule : (rules[place]?).map ActiveRule.rule = some (Javadoc.rule severity))
    {token : String} (hjavadoc : input.tree.isJavadoc i = true)
    (htoken : input.tree.token i = some token) {finding : Finding} :
    ReportsAt rules input place i finding ↔
      finding ∈ checkComment ⟨input.tree.position i, input.tree.span i⟩ token.toList := by
  have hkind : input.tree.kind i = .comment := by
    simp only [Tree.isJavadoc, Bool.and_eq_true, beq_iff_eq] at hjavadoc
    exact hjavadoc.1
  have hi : i < input.tree.size := Tree.lt_size_of_kind (by rw [hkind]; decide)
  have hcheck : (rule severity).check = .ofNodes judge := rfl
  refine reportsAt_iff_of_ofNodes hcheck isFatal_judge hrule hi ?_ fun scopes => ?_
  · rw [hkind]
    exact List.mem_singleton_self _
  · have hjudge : judge (input.context scopes) i = .report
        (checkComment ⟨input.tree.position i, input.tree.span i⟩ token.toList) := by
      simp [judge, WalkInput.context, htoken, hjavadoc]
    rw [hjudge]
    rfl

/-- Every finding that is reported about a comment is about some text, and it points at the text
that its message is about. -/
theorem pointsAt_of_reportsAt
    (hrule : (rules[place]?).map ActiveRule.rule = some (Javadoc.rule severity))
    (hjavadoc : input.tree.isJavadoc i = true)
    (htoken : input.tree.token i =
      some (Text.slice input.file.content (input.tree.span i).start (input.tree.span i).stop))
    (hposition : input.tree.position i =
      ((Text.LineIndex.ofText input.file.content.toList).locate (input.tree.span i).start).position)
    {finding : Finding} (hreported : ReportsAt rules input place i finding) :
    (∃ stretch, IsAbout finding.message stretch) ∧ ∀ stretch, IsAbout finding.message stretch →
      (finding.location input.file).PointsAt input.file.content stretch := by
  have hnonempty : Text.slice input.file.content (input.tree.span i).start
      (input.tree.span i).stop ≠ "" := by
    intro hempty
    rw [hempty] at htoken
    simp [Tree.isJavadoc, htoken, Text.startsWith] at hjavadoc
  have hsite : Site.Holds input.file.content.toList _
      ⟨input.tree.position i, input.tree.span i⟩ :=
    Site.holds_of_slice rfl hnonempty hposition
  have hfound := (reportsAt_iff hrule hjavadoc htoken).1 hreported
  obtain ⟨stretch, habout, hmarks⟩ := checkComment_marks hsite finding hfound
  refine ⟨⟨stretch, habout⟩, fun other hother => ?_⟩
  rw [hother.unique habout]
  exact hmarks.pointsAt

end Reports

/-! ## A comment with all kinds of blanks -/

/-- A comment behind another one, with letters and blanks of several bytes and both line ends. -/
def mixedText : String :=
  "/* ü */\r\n\u2003/** Über @return x\r\n\t*\u3000@param  id\r\n@return\n\r\n * @throws E fails */"

def mixedOutline : Outline :=
  .node .compilationUnit ⟨0, 82⟩ ⟨1, 1⟩ none
    [.node .comment ⟨13, 82⟩ ⟨2, 4⟩ (some (Text.slice mixedText 13 82)) []]

def mixedInput : WalkInput where
  file := .ofPath "A.java" mixedText ""
  tree := mixedOutline.toTree mixedText
  resolver := fun _ => none

/-- The blanks that stand before the tag of the third line take four bytes and the star one. -/
theorem mixedInput_pointsAt :
    mixedInput.tree.isJavadoc 1 = true ∧
      mixedInput.tree.token 1 = some (Text.slice mixedText 13 82) ∧
      mixedInput.tree.position 1 =
        ((Text.LineIndex.ofText mixedText.toList).locate 13).position ∧
      ∃ finding, ReportsAt [Javadoc.rule.active] mixedInput 0 1 finding ∧
        finding.position = ⟨3, 6⟩ ∧
        finding.message = "Exactly one space is required after '@param'" ∧
        (finding.location mixedInput.file).PointsAt mixedText "@param" := by
  have hjavadoc : mixedInput.tree.isJavadoc 1 = true := by decide +kernel
  have htoken : mixedInput.tree.token 1 = some (Text.slice mixedText 13 82) := by decide +kernel
  have hposition : mixedInput.tree.position 1 =
      ((Text.LineIndex.ofText mixedText.toList).locate 13).position := by decide +kernel
  have hfound : ∃ finding ∈ checkComment ⟨mixedInput.tree.position 1, mixedInput.tree.span 1⟩
      (Text.slice mixedText 13 82).toList, finding.position = ⟨3, 6⟩ ∧
        finding.message = "Exactly one space is required after '@param'" := by
    decide +kernel
  obtain ⟨finding, hfound, hplace, hmessage⟩ := hfound
  have hreported : ReportsAt [Javadoc.rule.active] mixedInput 0 1 finding :=
    (reportsAt_iff rfl hjavadoc htoken).2 hfound
  have hpoints := (pointsAt_of_reportsAt rfl hjavadoc htoken hposition hreported).2 "@param"
  refine ⟨hjavadoc, htoken, hposition, finding, hreported, hplace, hmessage, hpoints ?_⟩
  have htag : "@param" ∈ checkedTags := by decide
  rw [hmessage]
  exact .spacing htag

end Javadoc

end SdkLint
