import SdkLint.Rule.Basic

/-!
# The layout of Javadoc tags

Block tags stand on lines of their own, are followed by one space, name and describe what they are
about, and are parted from the description, but not from each other, by a blank line.

A comment is read line by line.  `DocLine.ofRaw` takes the comment markers and the leading star off
a line and remembers in which byte column of the line the rest begins, so that every finding can
point at the very tag (`locate`).
-/

namespace SdkLint.Javadoc

open Text

def name : String := "javadoc-formatting"

def code : String := "AP009"

/-- The tags that have a layout. -/
def checkedTags : List String :=
  ["@param", "@return", "@throws", "@exception", "@deprecated"]

/-! ## Lines of a comment -/

/-- A line of a comment. -/
structure DocLine where
  /-- The number of the line in the comment, counted from zero. -/
  index : Nat
  /-- The byte offset of the line in the comment. -/
  start : Nat
  /-- The byte column in which the content begins. -/
  column : Nat
  /-- The line without comment markers, its leading star and the blanks around it. -/
  content : List Char
deriving DecidableEq, Repr, Inhabited

/-- A text without its leading blanks, and the number of bytes that these take. -/
def dropBlanks (cs : List Char) : Nat × List Char :=
  (byteSize (cs.takeWhile isBlank), cs.dropWhile isBlank)

namespace DocLine

/-- The line of a comment with a given number and byte offset. -/
def ofRaw (index start : Nat) (raw : List Char) : DocLine :=
  let line := trimEnd raw
  let (opening, line) :=
    if index = 0 then
      match dropPrefix? "/**".toList line with
      | some rest => (3, rest)
      | none => (0, line)
    else (0, line)
  let line := (dropSuffix? "*/".toList line).getD line
  let (blanks, line) := dropBlanks line
  let (star, line) :=
    match index, line with
    | _ + 1, '*' :: rest =>
      let (blanks, rest) := dropBlanks rest
      (1 + blanks, rest)
    | _, line => (0, line)
  { index, start, column := opening + blanks + star, content := trimEnd line }

def isBlank (line : DocLine) : Bool :=
  line.content.isEmpty

/-- Whether a line begins with a tag of any name. -/
def isTag (line : DocLine) : Bool :=
  match line.content with
  | '@' :: c :: _ => c.isAlpha
  | _ => false

/-- The checked tag that a line begins with: the tag ends the line or a blank follows. -/
def checkedTag? (line : DocLine) : Option String :=
  checkedTags.find? fun tag =>
    match dropPrefix? tag.toList line.content with
    | some [] => true
    | some (c :: _) => Text.isBlank c
    | none => false

end DocLine

/-- The lines of a comment. -/
def docLines (comment : List Char) : List DocLine :=
  let rec go (index start : Nat) : List (List Char) → List DocLine
    | [] => []
    | raw :: rest =>
      DocLine.ofRaw index start raw :: go (index + 1) (start + byteSize raw + 1) rest
  go 0 0 (splitOn '\n' comment)

/-! ## Findings in a comment -/

/-- Where a comment stands. -/
structure Site where
  position : Position
  span : Span
deriving DecidableEq, Repr, Inhabited

/-- The place and the bytes of a stretch of text in a line of a comment. -/
def Site.locate (site : Site) (line : DocLine) (offset length : Nat) : Position × Span :=
  let column :=
    if line.index = 0 then site.position.column + line.column + offset
    else line.column + offset + 1
  let start := site.span.start + line.start + line.column + offset
  (⟨site.position.line + line.index, column⟩, ⟨start, start + length⟩)

/-- A finding about a stretch of text in a line of a comment. -/
def Site.finding (site : Site) (line : DocLine) (offset length : Nat) (message : String) :
    Finding :=
  let (position, span) := site.locate line offset length
  { position, span, message }

/-- The byte offsets, from `offset` on, at which a tag stands alone inside a text: after a blank and
before a blank or the end.  The character before the text is `before`, none at the beginning of a
line. -/
def standaloneTags (tag : List Char) (before : Option Char) (offset : Nat) : List Char → List Nat
  | [] => []
  | c :: cs =>
    let alone := before.any Text.isBlank &&
      match dropPrefix? tag (c :: cs) with
      | some rest => rest.head?.all Text.isBlank
      | none => false
    let later := standaloneTags tag (some c) (offset + c.utf8Size) cs
    if alone then offset :: later else later

/-- Reports the checked tags inside a line. -/
def checkInlineTags (site : Site) (line : DocLine) : List Finding :=
  checkedTags.flatMap fun tag =>
    (standaloneTags tag.toList none 0 line.content).map fun offset =>
      site.finding line offset tag.utf8ByteSize
        ("Javadoc block tag '" ++ tag ++ "' must start on its own line")

/-- Whether more than one space or a tab follows a tag. -/
def isMisspaced : List Char → Bool
  | ' ' :: ' ' :: _ => true
  | '\t' :: _ => true
  | _ => false

/-- Whether the lines after a tag go on with its description. -/
def isContinued : List DocLine → Bool
  | line :: _ => !line.isBlank && !line.isTag
  | [] => false

/-- Reports what is wrong with a line that begins with a checked tag, given the lines after it. -/
def checkTagLine (site : Site) (line : DocLine) (tag : String) (later : List DocLine) :
    List Finding :=
  let note (message : String) : Finding := site.finding line 0 tag.utf8ByteSize message
  let rest := line.content.drop tag.length
  let args := trimBoth rest
  let spacing :=
    if !args.isEmpty && isMisspaced rest then
      [note ("Exactly one space is required after '" ++ tag ++ "'")]
    else []
  let named := tag == "@param" || tag == "@throws" || tag == "@exception"
  let description :=
    if named then
      if args.isEmpty then
        let what := if tag == "@param" then "parameter" else "exception"
        [note ("'" ++ tag ++ "' must name the " ++ what)]
      else
        let subject := args.takeWhile fun c => !Text.isBlank c
        if subject.length < args.length || isContinued later then []
        else [note ("'" ++ tag ++ " " ++ String.ofList subject ++ "' has no description")]
    else if args.isEmpty && !isContinued later then [note ("'" ++ tag ++ "' has no description")]
    else []
  spacing ++ description

/-- Reports what is wrong with each line and the lines after it. -/
def checkLines (site : Site) : List DocLine → List Finding
  | [] => []
  | line :: later =>
    checkInlineTags site line ++
      (match line.checkedTag? with
      | some tag => checkTagLine site line tag later
      | none => []) ++
      checkLines site later

/-- Reports a description that is not parted from the tags, and blank lines between tags. -/
def checkLayout (site : Site) (lines : List DocLine) : List Finding :=
  let above := lines.takeWhile fun line => !line.isTag
  match lines.dropWhile fun line => !line.isTag with
  | [] => []
  | first :: later =>
    let described := above.any fun line => !line.isBlank
    let parted := above.getLast?.any DocLine.isBlank
    let separation :=
      if described && !parted then
        [site.finding first 0 1
          "Javadoc description must be separated from the first block tag by a blank line"]
      else []
    let tags := ((first :: later).reverse.dropWhile fun line => !line.isTag).reverse
    separation ++ (tags.filter DocLine.isBlank).map fun line =>
      site.finding line 0 0 "Blank lines are not allowed between Javadoc block tags"

/-- The findings about the text of a comment. -/
def checkComment (site : Site) (comment : List Char) : List Finding :=
  let lines := docLines comment
  checkLines site lines ++ checkLayout site lines

/-- Checks a comment, if it is documentation. -/
def judge (cx : Context) (i : NodeId) : Verdict :=
  let t := cx.tree
  match t.token i with
  | some token =>
    if t.isJavadoc i then
      .report (checkComment ⟨t.position i, t.span i⟩ token.toList)
    else .pass
  | none => .pass

/-- The rule, with a severity for its findings. -/
def rule (severity : Severity := .warning) : Rule where
  name := name
  code := code
  description := "Javadoc block tags must follow the standard layout"
  severity := severity
  kinds := [.comment]
  check := .ofNodes judge

end SdkLint.Javadoc
