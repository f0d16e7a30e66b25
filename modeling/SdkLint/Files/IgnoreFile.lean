import SdkLint.Files.Glob
import SdkLint.Text.Blank
import SdkLint.Text.Lines

/-!
# Ignore files

An ignore file lists globs, one a line, for the files and folders below its own folder.  A line that
begins with `#` is a comment, one that begins with `!` takes back what earlier lines ignored, one
that ends in a slash is about folders only.  A glob without a slash other than at its end applies at
any depth, any other glob starts at the folder of the file.  The last line that applies to a path
decides.

In a glob `?` and `*` stop at slashes, `**` as a whole component stands for any number of folders,
`[…]` and `[!…]` or `[^…]` for characters, `{…,…}` for alternatives, and a backslash takes the next
character as it is.  Globs are matched byte by byte: a `?` stands for one byte of a character.

Main definitions:

- `Reader.read`: the globs that a text denotes, one for every choice of alternatives.
- `IgnoreRule.ofLine?`: the rule that a line states.
- `IgnoreFile.ofBytes`: the rules of a file.
- `IgnoreFile.verdict?`: what a file says about a path.
-/

namespace SdkLint

open Glob

/-! ## Bytes -/

/-- The bytes of a text in UTF-8, each as the character with its number. -/
def byteChars (cs : List Char) : List Char :=
  (String.ofList cs).toUTF8.toList.map fun b => Char.ofNat b.toNat

/-- What a range of characters comes to byte by byte: the last byte of its beginning and the first
byte of its end span a range, all other bytes stand for themselves. -/
def byteRanges (range : Char × Char) : List (Char × Char) :=
  let single (b : Char) := (b, b)
  let first := byteChars [range.1]
  let last := byteChars [range.2]
  if range.1 == range.2 then first.map single
  else match first.getLast?, last with
    | some b, c :: cs => first.dropLast.map single ++ [(b, c)] ++ cs.map single
    | _, _ => []

namespace IgnoreGlob

/-! ## Tokens -/

/-- A part of a glob as it is written. -/
inductive Token where
  | piece (p : Piece)
  /-- `**` at the very beginning, with the slash after it. -/
  | opening
  /-- `**` between two slashes. -/
  | middle
  /-- `**` after the last slash. -/
  | ending
deriving DecidableEq, Repr

/-- The pieces that a token stands for. -/
def Token.pieces : Token → List Piece
  | piece p => [p]
  | opening => [.folders]
  | middle => [.char '/', .folders]
  | ending => [.char '/', .run true]

/-- The pieces of a sequence of tokens.  A `**` that is all there is matches everything. -/
def piecesOf : List Token → List Piece
  | [.opening] => [.run true]
  | tokens => tokens.flatMap Token.pieces

/-! ## Brackets -/

/-- The outcome of reading a bracket. -/
inductive Bracket where
  | closed (ranges : List (Char × Char)) (rest : List Char)
  /-- The closing bracket is missing. -/
  | unclosed
  /-- A range ends before it begins. -/
  | invalid
deriving Repr

/-- Ends the latest range at a character, unless it would end before it begins. -/
def endRange (c : Char) : List (Char × Char) → Option (List (Char × Char))
  | [] => some []
  | (low, _) :: others => if c < low then none else some ((low, c) :: others)

/-- Reads the inside of a bracket; `ranges` are the ones so far, latest first, and `waits` says
whether the latest one waits for its end. -/
def readRanges (first waits : Bool) (ranges : List (Char × Char)) : List Char → Bracket
  | [] => .unclosed
  | c :: cs =>
    if c == ']' && !first then
      .closed (if waits then ('-', '-') :: ranges else ranges).reverse cs
    else if waits then
      match endRange c ranges with
      | some ranges => readRanges false false ranges cs
      | none => .invalid
    else if c == '-' && !first then readRanges false true ranges cs
    else readRanges false false ((c, c) :: ranges) cs

/-- Whether a bracket begins with a sign of negation, and what follows the sign. -/
def dropNegation : List Char → Bool × List Char
  | '!' :: cs | '^' :: cs => (true, cs)
  | cs => (false, cs)

/-- Reads what follows an opening bracket. -/
def readBracket (cs : List Char) : Bracket :=
  readRanges true false [] (dropNegation cs).2

/-- The piece for a bracket with some ranges, where `cs` follows the opening bracket. -/
def bracketPiece (cs : List Char) (ranges : List (Char × Char)) : Piece :=
  let ranges := ranges.flatMap byteRanges
  if (dropNegation cs).1 then .noneOf ranges else .oneOf ranges

theorem readRanges_length {first waits : Bool} {ranges found : List (Char × Char)}
    {cs rest : List Char} (h : readRanges first waits ranges cs = .closed found rest) :
    rest.length < cs.length := by
  induction cs generalizing first waits ranges with
  | nil => simp [readRanges] at h
  | cons c cs ih =>
    rw [readRanges] at h
    simp only [List.length_cons]
    split at h
    · simp only [Bracket.closed.injEq] at h
      rw [← h.2]
      omega
    · split at h
      · split at h
        · exact Nat.lt_succ_of_lt (ih h)
        · simp at h
      · split at h <;> exact Nat.lt_succ_of_lt (ih h)

theorem dropNegation_length (cs : List Char) : (dropNegation cs).2.length ≤ cs.length := by
  unfold dropNegation
  split <;> simp

theorem readBracket_length {cs rest : List Char} {found : List (Char × Char)}
    (h : readBracket cs = .closed found rest) : rest.length < cs.length :=
  Nat.lt_of_lt_of_le (readRanges_length h) (dropNegation_length cs)

/-! ## Alternatives -/

/-- A stretch of a glob between braces and commas: the token sequences it stands for, latest token
first, and whether anything has been read. -/
structure Branch where
  sequences : List (List Token) := [[]]
  begun : Bool := false
deriving Repr

namespace Branch

/-- Reads a token. -/
def push (b : Branch) (t : Token) : Branch :=
  { sequences := b.sequences.map (t :: ·), begun := true }

/-- Reads a character as it is. -/
def pushChar (b : Branch) (c : Char) : Branch :=
  (byteChars [c]).foldl (fun b c => b.push (.piece (.char c))) b

/-- Replaces the latest token. -/
def amend (b : Branch) (change : Option Token → Token) : Branch :=
  { b with sequences := b.sequences.map fun s => change s.head? :: s.tail }

/-- Whether the stretch stands for no token at all. -/
def isVoid (b : Branch) : Bool :=
  b.sequences == [[]]

/-- Reads a list of alternatives.  Those that stand for nothing are not counted. -/
def pushChoice (b : Branch) (alternatives : List Branch) : Branch :=
  let choices := (alternatives.filter fun a => !a.isVoid).flatMap Branch.sequences
  { sequences := if choices.isEmpty then b.sequences
      else b.sequences.flatMap fun s => choices.map (· ++ s)
    begun := true }

end Branch

/-- The state of reading a glob. -/
structure Reader where
  /-- The stretch that is being read. -/
  current : Branch := {}
  /-- For every open brace, innermost first, the stretch before it and the alternatives that have
  ended, latest first. -/
  braces : List (Branch × List Branch) := []
  /-- The character before this place. -/
  before : Option Char := none
deriving Repr

namespace Reader

/-- Goes on after a character with another stretch. -/
def next (r : Reader) (c : Char) (current : Branch) : Reader :=
  { r with current, before := some c }

/-- Two stars that are no component of their own. -/
def twoRuns (b : Branch) : Branch :=
  (b.push (.piece (.run false))).push (.piece (.run false))

/-- What becomes of the slash before `**` when the component ends. -/
def recursive (atEnd : Bool) : Option Token → Token
  | some .opening => .opening
  | some .ending => .ending
  | _ => if atEnd then .ending else .middle

/-- Reads `**` when `rest` follows it: the reader afterwards, and whether a slash of `rest` has been
read along. -/
def stars (r : Reader) (rest : List Char) : Reader × Bool :=
  let plain := (r.next '*' (twoRuns r.current), false)
  if !r.current.begun then
    match rest with
    | [] => (r.next '*' (r.current.push .opening), false)
    | '/' :: _ => (r.next '/' (r.current.push .opening), true)
    | _ => plain
  else if r.before != some '/' then plain
  else match rest with
    | [] => (r.next '*' (r.current.amend (recursive true)), false)
    | '/' :: _ => (r.next '/' (r.current.amend (recursive false)), true)
    | c :: _ =>
      if (c == ',' || c == '}') && !r.braces.isEmpty then
        (r.next '*' (r.current.amend (recursive true)), false)
      else plain

/-- Reads an opening brace. -/
def openBrace (r : Reader) : Reader :=
  { current := {}, braces := (r.current, []) :: r.braces, before := some '{' }

/-- Reads a comma, which outside of braces stands for itself. -/
def comma (r : Reader) : Reader :=
  match r.braces with
  | [] => r.next ',' (r.current.pushChar ',')
  | (outer, ended) :: braces =>
    { current := {}, braces := (outer, r.current :: ended) :: braces, before := some ',' }

/-- Reads a closing brace, if one is open. -/
def closeBrace? (r : Reader) : Option Reader :=
  match r.braces with
  | [] => none
  | (outer, ended) :: braces =>
    some { current := outer.pushChoice (r.current :: ended), braces, before := some '}' }

/-- Reads a glob to its end: the sequences of tokens it stands for, each latest token first.
`brackets` says whether an opening bracket is still taken for one: after a bracket that is never
closed it stands for itself. -/
def read (brackets : Bool) (r : Reader) (cs : List Char) : Option (List (List Token)) :=
  match cs with
  | [] => if r.braces.isEmpty then some r.current.sequences else none
  | '?' :: rest => read brackets (r.next '?' (r.current.push (.piece (.any false)))) rest
  | '*' :: '*' :: rest =>
    match r.stars rest with
    | (r, true) => read brackets r rest.tail
    | (r, false) => read brackets r rest
  | '*' :: rest => read brackets (r.next '*' (r.current.push (.piece (.run false)))) rest
  | '[' :: rest =>
    if brackets then
      match _h : readBracket rest with
      | .invalid => none
      | .unclosed => read false (r.next '[' (r.current.pushChar '[')) rest
      | .closed ranges after =>
        read brackets (r.next ']' (r.current.push (.piece (bracketPiece rest ranges)))) after
    else read brackets (r.next '[' (r.current.pushChar '[')) rest
  | '{' :: rest => read brackets r.openBrace rest
  | '}' :: rest =>
    match r.closeBrace? with
    | some r => read brackets r rest
    | none => none
  | ',' :: rest => read brackets r.comma rest
  | '\\' :: rest =>
    match rest with
    | [] => none
    | c :: rest => read brackets (r.next c (r.current.pushChar c)) rest
  | c :: rest => read brackets (r.next c (r.current.pushChar c)) rest
termination_by cs.length
decreasing_by
  all_goals simp_wf
  all_goals
    first
    | omega
    | have := readBracket_length _h
      omega

end Reader

/-- The globs that a text denotes, one for every choice of alternatives, if it is well formed. -/
def ofText? (cs : List Char) : Option (List (List Piece)) :=
  (Reader.read true {} cs).map fun sequences => sequences.map fun s => piecesOf s.reverse

end IgnoreGlob

/-! ## Lines -/

/-- What a line of an ignore file says. -/
structure IgnoreRule where
  /-- It applies to paths that one of these matches. -/
  globs : List (List Piece)
  /-- Whether it takes back what earlier lines ignored. -/
  keeps : Bool := false
  /-- Whether it is about folders only. -/
  foldersOnly : Bool := false
deriving Repr

/-- What can be wrong with an ignore file. -/
inductive IgnoreFault where
  | glob (line : String)
  | encoding
deriving DecidableEq, Repr

namespace IgnoreRule

/-- A line without the blanks at its end, unless a backslash stands before the last of them. -/
def trimLine (line : List Char) : List Char :=
  if (Text.dropSuffix? ['\\', ' '] line).isSome then line else Text.trimEnd line

/-- Takes a slash off the end of a line, with the backslash before it. -/
def dropSlash (line : List Char) : List Char × Bool :=
  match Text.dropSuffix? ['/'] line with
  | none => (line, false)
  | some line => ((Text.dropSuffix? ['\\'] line).getD line, true)

/-- A glob with what applies it at any depth and to all that is in a folder. -/
def complete (anchored : Bool) (glob : List Char) : List Char :=
  let marked := (Text.dropPrefix? ['*', '*', '/'] glob).isSome || glob == ['*', '*']
  let glob := if anchored || glob.contains '/' || marked then glob else ['*', '*', '/'] ++ glob
  if (Text.dropSuffix? ['/', '*', '*'] glob).isSome then glob ++ ['/', '*'] else glob

/-- The rule that a line states: none for a comment or blank line, a fault for a line that is not
well formed. -/
def ofLine? (line : List Char) : Except IgnoreFault (Option IgnoreRule) :=
  let trimmed := trimLine line
  if line.head? == some '#' || trimmed.isEmpty then .ok none
  else
    let (keeps, anchored, glob) := match trimmed with
      | '\\' :: '!' :: rest => (false, false, '!' :: rest)
      | '\\' :: '#' :: rest => (false, false, '#' :: rest)
      | '!' :: '/' :: rest => (true, true, rest)
      | '!' :: rest => (true, false, rest)
      | '/' :: rest => (false, true, rest)
      | rest => (false, false, rest)
    let (glob, foldersOnly) := dropSlash glob
    match IgnoreGlob.ofText? (complete anchored glob) with
    | some globs => .ok (some { globs, keeps, foldersOnly })
    | none => .error (.glob (String.ofList trimmed))

/-- Whether a rule applies to a path below its folder. -/
def applies (rule : IgnoreRule) (path : List Char) (isFolder : Bool) : Bool :=
  (isFolder || !rule.foldersOnly) && rule.globs.any fun glob => matchesText glob (byteChars path)

end IgnoreRule

/-! ## Files -/

/-- The rules of an ignore file, in order, and what is wrong with it. -/
structure IgnoreFile where
  rules : List IgnoreRule := []
  faults : List IgnoreFault := []
deriving Repr

namespace IgnoreFile

/-- The pieces of a file between line feeds. -/
def chunks : List UInt8 → List (List UInt8)
  | [] => [[]]
  | b :: bs =>
    if b == 10 then [] :: chunks bs
    else match chunks bs with
      | [] => [[b]]
      | chunk :: rest => (b :: chunk) :: rest

/-- The lines of a file up to the first one that is no text, and whether there is such a line. -/
def linesOf (bytes : ByteArray) : List (List Char) × Bool :=
  let texts := (chunks bytes.toList).map fun chunk => String.fromUTF8? chunk.toByteArray
  let readable := (texts.takeWhile Option.isSome).filterMap id
  let cut := readable.length < texts.length
  let content := Text.join "\n" readable ++ if cut then "\n" else ""
  (Text.lines content.toList, cut)

/-- Adds what a line says. -/
def addLine (file : IgnoreFile) (line : List Char) : IgnoreFile :=
  match IgnoreRule.ofLine? line with
  | .ok none => file
  | .ok (some rule) => { file with rules := file.rules ++ [rule] }
  | .error fault => { file with faults := file.faults ++ [fault] }

/-- Reads an ignore file.  A byte order mark at its beginning does not count, a line that is not
well formed is skipped, and the rest of the file from a line on that is no text. -/
def ofBytes (bytes : ByteArray) : IgnoreFile :=
  let (lines, cut) := linesOf bytes
  let lines := match lines with
    | first :: rest => first.dropWhile (· == '\uFEFF') :: rest
    | [] => []
  let file := lines.foldl addLine {}
  if cut then { file with faults := file.faults ++ [.encoding] } else file

/-- Whether something other than the encoding is wrong with a file. -/
def isMalformed (file : IgnoreFile) : Bool :=
  file.faults.any fun fault => fault != .encoding

/-- What a file says about a path below its folder: the last rule that applies decides whether the
path is ignored; nothing is said if none applies. -/
def verdict? (file : IgnoreFile) (path : List Char) (isFolder : Bool) : Option Bool :=
  (file.rules.reverse.find? fun rule => rule.applies path isFolder).map fun rule => !rule.keeps

end IgnoreFile

end SdkLint
