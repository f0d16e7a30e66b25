import SdkLint.Text.Lines
import SdkLint.Tree.Basic

/-!
# Concrete trees of Java text

What a Java grammar says about a text: a tree whose nodes carry the grammar's own name for the
construct, their byte range and starting point, and whether something below them did not parse.
Punctuation and keywords are nodes too, the anonymous ones.

A concrete tree is also written as a list of rows in pre-order, each with its depth;
`Concrete.ofRows?` reads that form.
-/

namespace SdkLint.Java

/-- What the grammar says about one node. -/
structure Info where
  /-- The grammar's name for the construct; a keyword or punctuation names itself. -/
  kind : String
  span : Span
  point : Text.Point
  /-- Whether the node stands for a construct rather than a keyword or punctuation. -/
  named : Bool := true
  /-- Whether the grammar put the node in where the text lacks it. -/
  missing : Bool := false
  /-- Whether the node or something below it is an error or missing. -/
  hasError : Bool := false
  /-- The role of the node below its parent, where the grammar gives it one. -/
  field : Option String := none
deriving DecidableEq, Repr, Inhabited

/-- A concrete tree. -/
inductive Concrete where
  | node (info : Info) (children : List Concrete)
deriving Repr, Inhabited

/-- Whether the text at this very node did not parse. -/
def Info.isFault (info : Info) : Bool :=
  info.kind == "ERROR" || info.missing

/-- The starting place of a node, counted from one. -/
def Info.position (info : Info) : Position :=
  ⟨info.point.row + 1, info.point.column + 1⟩

/-- The text that a node covers. -/
def Info.text (info : Info) (source : String) : String :=
  Text.slice source info.span.start info.span.stop

namespace Concrete

def info : Concrete → Info
  | node info _ => info

def children : Concrete → List Concrete
  | node _ children => children

/-- The text of the first child with a given role. -/
def fieldText (c : Concrete) (field source : String) : Option String :=
  (c.children.find? fun child => child.info.field == some field).map fun child =>
    child.info.text source

/-! ## Sizes -/

/-- Number of nodes of a tree. -/
def size : Concrete → Nat
  | node _ children => children.attach.foldr (fun ⟨c, _⟩ n => c.size + n) 1

/-- Number of nodes of some trees. -/
def sizes (trees : List Concrete) : Nat :=
  trees.foldr (fun c n => c.size + n) 0

theorem sizes_cons (c : Concrete) (trees : List Concrete) :
    sizes (c :: trees) = c.size + sizes trees :=
  rfl

theorem sizes_append (trees more : List Concrete) :
    sizes (trees ++ more) = sizes trees + sizes more := by
  induction trees with
  | nil => exact (Nat.zero_add _).symm
  | cons c trees ih =>
    rw [List.cons_append, sizes_cons, sizes_cons, ih]
    omega

/-- A tree has one node more than its children together. -/
theorem size_eq (c : Concrete) : c.size = sizes c.children + 1 := by
  obtain ⟨info, children⟩ := c
  have hfold : (node info children).size = children.foldr (fun c n => c.size + n) 1 := by
    simp [size]
  rw [hfold, Concrete.children]
  induction children with
  | nil => rfl
  | cons c children ih =>
    have hrest := ih (by simp [size])
    rw [List.foldr_cons, sizes_cons, hrest]
    omega

/-! ## Syntax errors -/

/-- The first fault of the trees of an agenda, in pre-order.  A tree that is searched leaves its
children on the agenda in its place; a tree that is marked as free of errors is not searched. -/
def searchFault (agenda : List Concrete) : Option Info :=
  match agenda with
  | [] => none
  | c :: rest =>
    if c.info.isFault then some c.info
    else if c.info.hasError then searchFault (c.children ++ rest)
    else searchFault rest
termination_by sizes agenda
decreasing_by
  all_goals
    have := c.size_eq
    rw [sizes_cons]
  · rw [sizes_append]
    omega
  · omega

/-- The first fault of a tree, as far as its marks lead to one. -/
def firstFault (c : Concrete) : Option Info :=
  searchFault [c]

/-- The place of the first syntax error, the beginning of the tree if no fault is found. -/
def errorPosition (c : Concrete) : Position :=
  (c.firstFault.getD c.info).position

/-! ## Rows -/

/-- One node of a concrete tree in the row form: a depth and the facts about the node.  The parent
of a row is the nearest row before it that is one level higher. -/
structure Row where
  depth : Nat
  kind : String
  start : Nat
  stop : Nat
  named : Bool := true
  missing : Bool := false
  field : Option String := none
deriving DecidableEq, Repr, Inhabited

/-- Puts a row in front of the trees that the later rows made: those that lie deeper become its
children. -/
def addRow (index : Text.LineIndex) (row : Row) (later : List (Nat × Concrete)) :
    List (Nat × Concrete) :=
  let below := (later.takeWhile fun (depth, _) => row.depth < depth).map Prod.snd
  let rest := later.dropWhile fun (depth, _) => row.depth < depth
  let faulty := row.kind == "ERROR" || row.missing || below.any fun c => c.info.hasError
  let info : Info :=
    { kind := row.kind
      span := ⟨row.start, row.stop⟩
      point := index.locate row.start
      named := row.named
      missing := row.missing
      hasError := faulty
      field := row.field }
  (row.depth, node info below) :: rest

/-- The tree that a list of rows over `source` describes, if there is a row.  Whether the whole tree
has an error is said beside the rows. -/
def ofRows? (source : String) (rows : List Row) (hasError : Bool) : Option Concrete :=
  let index := Text.LineIndex.ofText source.toList
  match rows.foldr (addRow index) [] with
  | [] => none
  | (_, node info children) :: _ => some (node { info with hasError } children)

end Concrete

end SdkLint.Java
