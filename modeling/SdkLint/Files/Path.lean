import SdkLint.Text.Pieces

/-!
# Paths

Slash-separated paths, kept as written.  A path is compared and taken apart by its components: empty
ones and `.` do not count, except for a `.` that opens a relative path.

Main definitions:

- `components`: the components of a path.
- `relativeTo?`: what remains of a path below another one, as written.
- `fileName?`, `fileStem?`, `extension?`: the parts of the last component.
- `join`: a path read below another one.
- `le`: the order of paths by components.
-/

namespace SdkLint.Path

/-- One component of a path. -/
inductive Component where
  /-- The slash that opens an absolute path. -/
  | root
  /-- The `.` that opens a relative path. -/
  | current
  /-- The `..` component. -/
  | parent
  | normal (name : String)
deriving DecidableEq, Repr, Inhabited

/-- A component as it is written. -/
def Component.text : Component → String
  | .root => "/"
  | .current => "."
  | .parent => ".."
  | .normal name => name

/-- Whether a piece between slashes is no component. -/
def isVoid (piece : List Char) : Bool :=
  piece.isEmpty || piece == ['.']

/-- The component that a piece between slashes stands for. -/
def ofPiece (piece : List Char) : Component :=
  if piece == ['.', '.'] then .parent else .normal (String.ofList piece)

/-- A path as written, split into an opening component of its own, if it has one, and the pieces
between the slashes after it. -/
def parts (path : String) : Option Component × List (List Char) :=
  match path.toList with
  | '/' :: rest => (some .root, Text.splitOn '/' rest)
  | ['.'] => (some .current, [])
  | '.' :: '/' :: rest => (some .current, Text.splitOn '/' ('/' :: rest))
  | cs => (none, Text.splitOn '/' cs)

/-- The components of a path. -/
def components (path : String) : List Component :=
  let (opening, pieces) := parts path
  opening.toList ++ (pieces.filter fun p => !isVoid p).map ofPiece

/-- Whether a path begins at the root of the file system. -/
def isAbsolute (path : String) : Bool :=
  Text.startsWith "/" path

/-! ## Relative paths -/

/-- The pieces without the ones at the end that are no components. -/
def dropVoidEnd (pieces : List (List Char)) : List (List Char) :=
  (pieces.reverse.dropWhile isVoid).reverse

/-- The pieces after the first `n` that are components. -/
def dropComponents : Nat → List (List Char) → List (List Char)
  | _, [] => []
  | n, piece :: rest =>
    if isVoid piece then dropComponents n rest
    else match n with
      | 0 => piece :: rest
      | n + 1 => dropComponents n rest

/-- Pieces put together with slashes between them. -/
def ofPieces (pieces : List (List Char)) : String :=
  Text.join "/" (pieces.map String.ofList)

/-- What remains of a path below `base`, as written, less what is no component at its ends; none if
the components of `base` do not open the path.  Below an empty `base` the path keeps its
beginning. -/
def relativeTo? (base path : String) : Option String :=
  let above := components base
  let (opening, pieces) := parts path
  if above.isEmpty then
    let opened := match opening with
      | some .root => "/"
      | some _ => "."
      | none => ""
    some (opened ++ ofPieces (dropVoidEnd pieces))
  else if above.isPrefixOf (components path) then
    let consumed := above.length - opening.toList.length
    some (ofPieces (dropVoidEnd (dropComponents consumed pieces)))
  else none

/-- A path read below another: an absolute one stands for itself. -/
def join (base path : String) : String :=
  if isAbsolute path || base.isEmpty then path
  else if Text.endsWith "/" base then base ++ path
  else base ++ "/" ++ path

/-! ## The last component -/

/-- The name of the file that a path leads to. -/
def fileName? (path : String) : Option String :=
  match (components path).getLast? with
  | some (.normal name) => some name
  | _ => none

/-- A file name before and after its last dot.  A dot at the very beginning parts nothing. -/
def splitExtension (name : String) : String × Option String :=
  let after := Text.afterLast '.' name.toList
  let before := name.toList.take (name.length - after.length - 1)
  if after.length == name.length || before.isEmpty then (name, none)
  else (String.ofList before, some (String.ofList after))

/-- The file name without its extension. -/
def fileStem? (path : String) : Option String :=
  (fileName? path).map fun name => (splitExtension name).1

/-- The extension of the file name, without the dot. -/
def extension? (path : String) : Option String :=
  (fileName? path).bind fun name => (splitExtension name).2

/-! ## Order -/

/-- Components are ordered by sort first and by name last. -/
def Component.rank : Component → Nat × String
  | .root => (0, "")
  | .current => (1, "")
  | .parent => (2, "")
  | .normal name => (3, name)

/-- Whether one component comes before or with another. -/
def Component.le (a b : Component) : Bool :=
  a.rank.1 < b.rank.1 || (a.rank.1 == b.rank.1 && decide (a.rank.2 ≤ b.rank.2))

/-- The order of lists of components: by the first difference, a beginning before its
continuations. -/
def componentsLe : List Component → List Component → Bool
  | [], _ => true
  | _ :: _, [] => false
  | a :: as, b :: bs => if a == b then componentsLe as bs else a.le b

/-- Whether one path comes before or with another in the order by components. -/
def le (a b : String) : Bool :=
  componentsLe (components a) (components b)

end SdkLint.Path
