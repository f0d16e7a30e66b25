import SdkLint.Proofs.Java.Places
import SdkLint.Proofs.Text.ByteCounts
import SdkLint.Rule.Context

/-!
# Lines and columns lead back to offsets

A grammar gives every construct the offset at which it starts and the point that counting the bytes
before comes to.  The nodes of the syntax tree take both over, the point as a line and column that
count from one.  The two agree: from the line and column of a node a file finds the offset at which
the node starts, also for nodes that start behind the last line, where no line begins.

Main definition:

- `Info.CountedIn`: a construct that starts inside the text and has the point of its start.

Main result:

- Theorem `convert_leadsBack`: the line and column of every node lead to the start of its range.
-/

namespace SdkLint.Java

/-- A construct starts inside the text or at its end, and its point is what counting the bytes
before the start comes to. -/
structure Info.CountedIn (source : String) (info : Info) : Prop where
  start_le : info.span.start ≤ source.utf8ByteSize
  counts : info.point.Counts ((Text.bytes source).take info.span.start)

instance (source : String) (info : Info) : Decidable (info.CountedIn source) :=
  decidable_of_iff
    (info.span.start ≤ source.utf8ByteSize ∧
      info.point.Counts ((Text.bytes source).take info.span.start))
    ⟨fun h => ⟨h.1, h.2⟩, fun h => ⟨h.start_le, h.counts⟩⟩

/-- From the line and column of a construct its start is found. -/
theorem Info.CountedIn.offsetOf_eq {source : String} {info : Info} (h : info.CountedIn source) :
    Text.offsetOf source.toList info.position.line info.position.column = info.span.start := by
  rw [Info.position, h.counts.eq_locate h.start_le]
  exact Text.offsetOf_locate (Text.byteSize_toList source ▸ h.start_le)

/-- From the line and column of every node of a tree that conversion yields, a file with the text
finds the start of the range of the node.  For want of a tree there is no node: the root of the
concrete tree is dropped. -/
theorem convert_leadsBack (root : Concrete) (file : FileContext)
    (counted : ∀ c ∈ root.subtrees, c.info.CountedIn file.content) :
    match convert root file.content with
    | .error error => error = .empty ∧ shapeOf none root file.content = .skip
    | .ok t => ∀ i < t.size,
        file.offsetOf (t.position i).line (t.position i).column = (t.span i).start := by
  rcases convert_cases root file.content with ⟨hempty, hskip⟩ | ⟨t, hconvert, -⟩
  · rw [hempty]
    exact ⟨rfl, hskip⟩
  · rw [hconvert]
    intro i hi
    obtain ⟨c, hc, hmakes⟩ := exists_makes_of_convert hconvert hi
    rw [FileContext.offsetOf, Tree.position, Tree.span, hmakes.position_eq, hmakes.span_eq]
    exact (counted c hc).offsetOf_eq

/-! ## Lines of several sorts -/

/-- A construct with its range and its point. -/
def Concrete.construct (kind : String) (span : Span) (point : Text.Point)
    (children : List Concrete := []) : Concrete :=
  .node { kind, span, point } children

/-- A keyword or punctuation with its range and its point. -/
def Concrete.keyword (kind : String) (span : Span) (point : Text.Point) : Concrete :=
  .node { kind, span, point, named := false } []

/-- A class behind a comment that goes over two lines, the first of which ends in CRLF. -/
def commentedFile : FileContext :=
  .ofPath "A.java" "/* \xe9\r\n */ class A\n\x7b\x7d\n" ""

def commentedConcrete : Concrete :=
  .construct "program" ⟨0, 22⟩ ⟨0, 0⟩
    [.construct "block_comment" ⟨0, 10⟩ ⟨0, 0⟩,
     .construct "class_declaration" ⟨11, 21⟩ ⟨1, 4⟩
      [.keyword "class" ⟨11, 16⟩ ⟨1, 4⟩,
       .construct "identifier" ⟨17, 18⟩ ⟨1, 10⟩,
       .construct "class_body" ⟨19, 21⟩ ⟨2, 0⟩
        [.keyword "\x7b" ⟨19, 20⟩ ⟨2, 0⟩, .keyword "\x7d" ⟨20, 21⟩ ⟨2, 1⟩]]]

/-- A file without code.  Its tree starts at the end, where no line begins. -/
def blankFile : FileContext :=
  .ofPath "B.java" "\r\n\n" ""

def blankConcrete : Concrete :=
  .construct "program" ⟨3, 3⟩ ⟨2, 0⟩

/-- The tree of the first file. -/
def commentedTree : Tree :=
  (treeOf? commentedConcrete commentedFile.content).get (by decide +kernel)

/-- The tree of the second file. -/
def blankTree : Tree :=
  (treeOf? blankConcrete blankFile.content).get (by decide +kernel)

theorem convert_commentedConcrete :
    convert commentedConcrete commentedFile.content = .ok commentedTree :=
  convert_of_parse (parse_of_treeOf? (Option.some_get _).symm)

theorem convert_blankConcrete : convert blankConcrete blankFile.content = .ok blankTree :=
  convert_of_parse (parse_of_treeOf? (Option.some_get _).symm)

/-- The nodes of both trees start where their lines and columns lead to. -/
theorem commentedFile_leadsBack :
    (∀ c ∈ commentedConcrete.subtrees, c.info.CountedIn commentedFile.content) ∧
    (List.range commentedTree.size).map commentedTree.position =
      [⟨1, 1⟩, ⟨1, 1⟩, ⟨2, 5⟩, ⟨2, 11⟩, ⟨3, 1⟩] ∧
    (∀ i < commentedTree.size,
      commentedFile.offsetOf (commentedTree.position i).line (commentedTree.position i).column =
        (commentedTree.span i).start) ∧
    (∀ c ∈ blankConcrete.subtrees, c.info.CountedIn blankFile.content) ∧
    (List.range blankTree.size).map blankTree.position = [⟨3, 1⟩] ∧
    ∀ i < blankTree.size,
      blankFile.offsetOf (blankTree.position i).line (blankTree.position i).column =
        (blankTree.span i).start := by
  have hcommented : ∀ c ∈ commentedConcrete.subtrees, c.info.CountedIn commentedFile.content := by
    decide +kernel
  have hblank : ∀ c ∈ blankConcrete.subtrees, c.info.CountedIn blankFile.content := by
    decide +kernel
  have hleads := convert_leadsBack commentedConcrete commentedFile hcommented
  have hleads' := convert_leadsBack blankConcrete blankFile hblank
  rw [convert_commentedConcrete] at hleads
  rw [convert_blankConcrete] at hleads'
  exact ⟨hcommented, by decide +kernel, hleads, hblank, by decide +kernel, hleads'⟩

end SdkLint.Java
