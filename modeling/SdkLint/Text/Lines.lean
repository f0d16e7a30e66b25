import SdkLint.Text.Pieces

/-!
# Lines and points of a text

A text is cut into lines at line feeds.  `lines` gives their contents the way a reader sees them:
the line ending (LF or CRLF) is not part of a line, and a final line feed opens no further line.
`offsetOf` turns a 1-based line and byte column into a byte offset, `LineIndex.locate` turns a byte
offset into a 0-based row and byte column.
-/

namespace SdkLint.Text

/-! ## Contents of lines -/

/-- A line content without the carriage return of its CRLF ending. -/
def dropReturn (line : List Char) : List Char :=
  (dropSuffix? ['\r'] line).getD line

/-- The contents of the lines of a text.  Only lines that a line feed ends lose a carriage
return; what follows the last line feed is a line if it is not empty. -/
def lines (cs : List Char) : List (List Char) :=
  let pieces := splitOn '\n' cs
  let ended := pieces.dropLast.map dropReturn
  match pieces.getLast? with
  | none | some [] => ended
  | some last => ended ++ [last]

/-- The lines of a text, each with the line feed that ends it. -/
def rawLines : List Char → List (List Char)
  | [] => []
  | c :: cs =>
    if c = '\n' then [c] :: rawLines cs
    else match rawLines cs with
      | [] => [[c]]
      | line :: rest => (c :: line) :: rest

/-! ## Points -/

/-- The byte offset at which the 1-based line `line` begins, or the size of the text if it has
fewer lines.  There is no line 0; it counts as the beginning. -/
def lineStart (cs : List Char) (line : Nat) : Nat :=
  byteSize ((rawLines cs).take (line - 1)).flatten

/-- The byte offset of a 1-based line and byte column.  The column is not limited by the length of
the line; line 0 is the beginning, and a line that does not exist is the end of the text. -/
def offsetOf (cs : List Char) (line column : Nat) : Nat :=
  if line = 0 then 0
  else if line ≤ (rawLines cs).length then lineStart cs line + (column - 1)
  else byteSize cs

/-- Where a byte offset lies: both numbers count from zero, the column in bytes. -/
structure Point where
  row : Nat
  column : Nat
deriving DecidableEq, Repr, Inhabited

/-- The byte offsets of the line feeds of a text, in increasing order. -/
def lineFeeds (cs : List Char) : List Nat :=
  let rec go (offset : Nat) : List Char → List Nat
    | [] => []
    | c :: cs =>
      if c = '\n' then offset :: go (offset + 1) cs
      else go (offset + c.utf8Size) cs
  go 0 cs

/-- The line feeds of a text, for locating many offsets. -/
structure LineIndex where
  feeds : Array Nat

namespace LineIndex

/-- The index of a text. -/
def ofText (cs : List Char) : LineIndex :=
  ⟨(lineFeeds cs).toArray⟩

/-- Number of entries among `feeds[lo..hi]` below `offset`, plus `lo`, by halving the range. -/
def countBelow (ix : LineIndex) (offset lo hi : Nat) : Nat :=
  if h : lo < hi then
    let mid := (lo + hi) / 2
    if ix.feeds.getD mid 0 < offset then ix.countBelow offset (mid + 1) hi
    else ix.countBelow offset lo mid
  else lo
termination_by hi - lo

/-- The row of an offset is the number of line feeds before it; its column is the number of bytes
since the last of them. -/
def locate (ix : LineIndex) (offset : Nat) : Point :=
  let row := ix.countBelow offset 0 ix.feeds.size
  { row
    column := if row = 0 then offset else offset - (ix.feeds.getD (row - 1) 0 + 1) }

end LineIndex

end SdkLint.Text
