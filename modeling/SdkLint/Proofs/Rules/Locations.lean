import SdkLint.Proofs.Rules.JavadocMarks
import SdkLint.Proofs.Walk.Answers
import SdkLint.Proofs.Walk.Remarks

/-!
# Where violations lie

In a file whose nodes are where they say, every finding of a rule of the catalogue has the line and
column of the text that it is about: findings about nodes have those of the node, findings inside a
comment have been moved along with the text.  What directives make of a finding stays there.  The
remark that a rule has failed has the line and column of a node and no range: it stands at the
beginning of the file.

Main definition:

- `Location.AgreesWith`: the line and column of a location lead to its range.

Main results:

- Theorem `Rule.FromCatalogue.locatedIn`: the rules of the catalogue report where they say.
- Theorem `violations_located`: violations for findings agree with the file, those for failures have
  no range.
-/

namespace SdkLint

/-! ## Locations -/

/-- The line and column of a location lead to its range, which lies inside the file. -/
structure Location.AgreesWith (file : FileContext) (l : Location) : Prop where
  offset_eq : l.offset = file.offsetOf l.line l.column
  within : l.offset + l.length ≤ file.content.utf8ByteSize

theorem Finding.LocatedIn.agreesWith {file : FileContext} {finding : Finding}
    (h : finding.LocatedIn file.content) : (finding.location file).AgreesWith file :=
  ⟨h.offset_eq.symm, h.within⟩

/-! ## Findings -/

variable {source : String} {t : Tree}

/-- A finding about the text of a node is located. -/
theorem Finding.AnchoredIn.locatedIn (hplaced : t.PlacedIn source) {finding : Finding}
    (h : finding.AnchoredIn t) : finding.LocatedIn source := by
  obtain ⟨i, hposition, hspan⟩ := h
  by_cases hi : i < t.size
  · have hnode := hplaced i hi
    have hstart := hnode.start_le
    have hstop := hnode.stop_le
    constructor
    case offset_eq => rw [hposition, hspan]; exact hnode.offset_eq
    case within =>
      rw [hspan, Span.length]
      change (t.node i).span.start + ((t.node i).span.stop - (t.node i).span.start) ≤ _
      omega
  · have hnode := Tree.node_of_le (Nat.le_of_not_lt hi)
    constructor
    case offset_eq => rw [hposition, hspan, Tree.position, Tree.span, hnode]; rfl
    case within => rw [hspan, Tree.span, hnode]; exact Nat.zero_le _

/-- A documentation comment stands where its node says. -/
theorem Javadoc.holds_of_isJavadoc (hplaced : t.PlacedIn source) {i : NodeId} {token : String}
    (hjavadoc : t.isJavadoc i = true) (htoken : t.token i = some token) :
    Site.Holds source.toList token.toList ⟨t.position i, t.span i⟩ := by
  obtain ⟨hkind, hstar⟩ : t.kind i = .comment ∧ Text.startsWith "/**" token = true := by
    simpa [Tree.isJavadoc, htoken] using hjavadoc
  have hi : i < t.size := by
    refine Nat.lt_of_not_le fun hle => ?_
    rw [Tree.kind, Tree.node_of_le hle] at hkind
    cases hkind
  have hnode := hplaced i hi
  have hslice : Text.slice source (t.span i).start (t.span i).stop = token :=
    Option.some.inj ((hnode.comment hkind).symm.trans htoken)
  have hnonempty : token ≠ "" := by
    rintro rfl
    exact absurd hstar (by decide)
  exact Site.holds_of_slice hslice hnonempty hnode.position_eq

/-- A finding about the text of a node or inside a comment is located. -/
theorem Finding.PlacedIn.locatedIn (hplaced : t.PlacedIn source) {finding : Finding}
    (h : finding.PlacedIn t) : finding.LocatedIn source := by
  rcases h with h | ⟨i, token, hjavadoc, htoken, hfinding⟩
  · exact h.locatedIn hplaced
  · have hsite := Javadoc.holds_of_isJavadoc hplaced hjavadoc htoken
    obtain ⟨stretch, -, hmarks⟩ := Javadoc.checkComment_marks hsite finding hfinding
    exact hmarks.locatedIn

/-- The rules of the catalogue report where they say, whatever state they are in. -/
theorem Rule.FromCatalogue.locatedIn {rule : Rule} (h : rule.FromCatalogue) {cx : Context}
    (hplaced : cx.tree.PlacedIn source) (state : rule.check.State) (hook : Hook) :
    Finding.Every (Finding.LocatedIn source) (rule.check.respond cx state hook).2.findings := by
  rcases h.meets with ⟨o, rfl⟩ | hmeets
  · exact fun finding hfinding =>
      (FinalFields.findings_anchored o cx state hook finding hfinding).locatedIn hplaced
  · exact fun finding hfinding =>
      ((hmeets cx state hook).findings finding hfinding).locatedIn hplaced

/-! ## Violations -/

/-- What is said about the location of what becomes of a remark: it agrees with the file if the
remark is a finding, and is the place of a node without a range if the remark is a failure. -/
def Remark.Places (input : WalkInput) (l : Location) : Remark → Prop
  | finding .. => l.AgreesWith input.file
  | failure .. =>
    (∃ i, l.line = (input.tree.position i).line ∧ l.column = (input.tree.position i).column) ∧
      l.offset = 0 ∧ l.length = 0

theorem remark_places {rules : List ActiveRule} {input : WalkInput}
    (hplaced : input.tree.PlacedIn input.file.content)
    (catalogued : ∀ r ∈ rules, r.rule.FromCatalogue) :
    ∀ m ∈ remarks rules input, m.Places input (m.violation input.file).location := by
  intro m hm
  obtain ⟨call, hcall, hm⟩ := List.mem_flatMap.1 (List.mem_mergeSort.1 hm)
  obtain ⟨r, state, hget, hverdict⟩ := walk_answers rules input call hcall
  simp only [HookCall.remarks, hget, List.mem_append, List.mem_map, Option.mem_toList] at hm
  rcases hm with ⟨finding, hfinding, rfl⟩ | hm
  · rw [hverdict] at hfinding
    have hrule := catalogued r (List.mem_of_getElem? hget)
    exact (hrule.locatedIn hplaced state call.hook finding hfinding).agreesWith
  · obtain ⟨failure, -, rfl⟩ := Option.map_eq_some_iff.1 hm
    exact ⟨⟨call.hook.node, rfl, rfl⟩, rfl, rfl⟩

/-- Violations come from findings, and then agree with the file, or from failures, and then have no
range. -/
theorem violations_located {root : Java.Concrete} {rules : List ActiveRule} {input : WalkInput}
    (hparse : Java.parse root input.file.content = .ok input.tree)
    (hroot : root.PlacedIn input.file.content)
    (catalogued : ∀ r ∈ rules, r.rule.FromCatalogue) :
    ∀ v ∈ (walk rules input).violations, ∃ m ∈ remarks rules input,
      m.filtered input.file input.file.content.toList = some v ∧ m.Places input v.location := by
  intro v hv
  rw [violations_eq_filterMap_remarks] at hv
  obtain ⟨m, hm, hfiltered⟩ := List.mem_filterMap.1 hv
  have hplaces := remark_places (Java.placedIn_of_parse hparse hroot) catalogued m hm
  rw [← Remark.location_of_filtered input.file hfiltered] at hplaces
  exact ⟨m, hm, hfiltered, hplaces⟩

/-! ## A failure without a range -/

/-- A client whose operation does not name the sort of its result. -/
def vagueText : String :=
  "@ServiceClient\nclass AClient \x7b\n  @ServiceMethod\n  void goAsync() \x7b\x7d\n\x7d\n"

def vagueConcrete : Java.Concrete :=
  (Java.Concrete.ofRows? vagueText
    [{ depth := 0, kind := "program", start := 0, stop := 70 },
      { depth := 1, kind := "class_declaration", start := 0, stop := 69 },
      { depth := 2, kind := "modifiers", start := 0, stop := 14 },
      { depth := 3, kind := "marker_annotation", start := 0, stop := 14 },
      { depth := 4, kind := "identifier", start := 1, stop := 14, field := some "name" },
      { depth := 2, kind := "identifier", start := 21, stop := 28, field := some "name" },
      { depth := 2, kind := "class_body", start := 29, stop := 69 },
      { depth := 3, kind := "method_declaration", start := 33, stop := 67 },
      { depth := 4, kind := "modifiers", start := 33, stop := 47 },
      { depth := 5, kind := "marker_annotation", start := 33, stop := 47 },
      { depth := 6, kind := "identifier", start := 34, stop := 47, field := some "name" },
      { depth := 4, kind := "void_type", start := 50, stop := 54 },
      { depth := 4, kind := "identifier", start := 55, stop := 62, field := some "name" },
      { depth := 4, kind := "formal_parameters", start := 62, stop := 64 },
      { depth := 4, kind := "block", start := 65, stop := 67 }] false).get (by decide +kernel)

def vagueNode (kind : NodeKind) (start stop : Nat) (token : Option String) (below : List Outline) :
    Outline :=
  .node kind ⟨start, stop⟩ ((Text.LineIndex.ofText vagueText.toList).locate start).position token
    below

def vagueLeaf (kind : NodeKind) (start stop : Nat) : Outline :=
  vagueNode kind start stop (some (Text.slice vagueText start stop)) []

def vagueOutline : Outline :=
  vagueNode .compilationUnit 0 70 none
    [vagueNode .classDef 0 69 none
      [vagueNode .modifiers 0 14 none
        [vagueNode .annotationUse 0 14 (some "ServiceClient") [vagueLeaf .ident 1 14]],
       vagueLeaf .ident 21 28,
       vagueNode .classBody 29 69 none
        [vagueNode .methodDef 33 67 none
          [vagueNode .modifiers 33 47 none
            [vagueNode .annotationUse 33 47 (some "ServiceMethod") [vagueLeaf .ident 34 47]],
           vagueLeaf .typeName 50 54,
           vagueLeaf .ident 55 62,
           vagueNode .parameters 62 64 none [],
           vagueNode .block 65 67 none []]]]]

def vagueInput : WalkInput where
  file := .ofPath "A.java" vagueText ""
  tree := vagueOutline.toTree vagueText
  resolver := fun _ => none

theorem outline_vagueConcrete : vagueConcrete.outline vagueText none = [vagueOutline] := by
  have hclient : Text.slice vagueText 1 14 = "ServiceClient" := by decide +kernel
  have hmethod : Text.slice vagueText 34 47 = "ServiceMethod" := by decide +kernel
  simp [vagueConcrete, Java.Concrete.ofRows?, Java.Concrete.addRow, Java.Concrete.outline,
    Java.shapeOf, Java.namedShape, Java.plainKinds, Java.leafKinds, List.lookup_cons,
    Java.Concrete.info, Java.Concrete.children, Java.Concrete.fieldText, Java.Info.text,
    Java.Info.position, Text.Point.position, vagueOutline, vagueNode, vagueLeaf, hclient, hmethod]

/-- The method is at line 3 and column 3, which is the offset 33, and what is said about it has the
offset 0. -/
theorem vagueInput_located :
    Java.parse vagueConcrete vagueText = .ok vagueInput.tree ∧
      vagueConcrete.PlacedIn vagueText ∧
      (∃ v ∈ (walk catalogueRules vagueInput).violations,
        v.location = { file := "A.java", line := 3, column := 3 } ∧
          ¬ v.location.AgreesWith vagueInput.file) ∧
      ∀ v ∈ (walk catalogueRules vagueInput).violations, ∃ m ∈ remarks catalogueRules vagueInput,
        m.filtered vagueInput.file vagueText.toList = some v ∧ m.Places vagueInput v.location := by
  have hparse : Java.parse vagueConcrete vagueText = .ok vagueInput.tree := by
    have hclean : vagueConcrete.info.hasError = false := by decide +kernel
    simp [Java.parse, hclean, Java.convert_eq_toTree outline_vagueConcrete, vagueInput]
  have hplaced : vagueConcrete.PlacedIn vagueText :=
    Java.placedIn_of_ofRows? (by decide +kernel) (Option.some_get _).symm
  have hfailure : ∃ v ∈ emission catalogueRules vagueInput,
      v.location = { file := "A.java", line := 3, column := 3 } := by
    decide +kernel
  have hoffset : vagueInput.file.offsetOf 3 3 = 33 := by decide +kernel
  obtain ⟨v, hv, hlocation⟩ := hfailure
  refine ⟨hparse, hplaced, ⟨v, ?_, hlocation, fun hagrees => ?_⟩,
    violations_located hparse hplaced (Config.fromCatalogue_of_mem_activate {} _)⟩
  · rw [violations_eq_sort_emission]
    exact List.mem_mergeSort.2 hv
  · have := hagrees.offset_eq
    rw [hlocation, hoffset] at this
    cases this

end SdkLint
