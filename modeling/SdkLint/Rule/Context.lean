import SdkLint.Files.Path
import SdkLint.Scope.Stack
import SdkLint.Text.Lines

/-!
# What a rule may look at

A rule sees the file that is being checked, its tree, the scopes around the current place and what
is known about the hierarchy of types.  What is not known about a type is never held against it.
-/

namespace SdkLint

/-! ## The file -/

/-- The file being checked. -/
structure FileContext where
  /-- The path as it was found. -/
  path : String
  content : String
  /-- Whether the file belongs to the tests. -/
  isTest : Bool
  /-- The path below the root of the project. -/
  relativePath : String
deriving DecidableEq, Repr, Inhabited

namespace FileContext

/-- Whether the layout or the name of a file marks it as a test: it lies in `src/test` or
`src/samples`, or its name ends in `Test`, `Tests` or `IT`. -/
def isTestPath (path : String) : Bool :=
  let names := (Path.components path).filterMap fun
    | .normal name => some name
    | _ => none
  let laidOut := (names.zip names.tail).any fun (above, below) =>
    above == "src" && (below == "test" || below == "samples")
  laidOut || (Path.fileStem? path).any fun stem =>
    Text.endsWith "Test" stem || Text.endsWith "Tests" stem || Text.endsWith "IT" stem

/-- The context of a file below a root.  A path that does not lie below the root stands for
itself. -/
def ofPath (path content root : String) : FileContext where
  path := path
  content := content
  isTest := isTestPath path
  relativePath := (Path.relativeTo? root path).getD path

/-- The byte offset of a line and column of the file. -/
def offsetOf (file : FileContext) (line column : Nat) : Nat :=
  Text.offsetOf file.content.toList line column

end FileContext

/-! ## The hierarchy of types -/

/-- The direct supertypes of a type. -/
structure TypeInfo where
  superclass : Option String := none
  interfaces : List String := []
deriving DecidableEq, Repr, Inhabited

/-- Whether a type extends or implements anything. -/
def TypeInfo.hasSupertype (info : TypeInfo) : Bool :=
  info.superclass.isSome || !info.interfaces.isEmpty

/-- What is known about types by qualified name. -/
abbrev TypeResolver := String → Option TypeInfo

/-- A finite table of types; a name stands in it at most once. -/
structure TypeTable where
  entries : List (String × TypeInfo) := []
deriving DecidableEq, Repr, Inhabited

namespace TypeTable

/-- Adds a type, or replaces what is known about it. -/
def insert (table : TypeTable) (name : String) (info : TypeInfo) : TypeTable :=
  ⟨(name, info) :: table.entries.filter fun entry => entry.1 != name⟩

/-- The table of some entries; of two with one name the later counts. -/
def ofEntries (entries : List (String × TypeInfo)) : TypeTable :=
  entries.foldl (fun table entry => table.insert entry.1 entry.2) {}

def size (table : TypeTable) : Nat :=
  table.entries.length

/-- What the table knows about a type. -/
def resolve (table : TypeTable) : TypeResolver :=
  fun name => table.entries.lookup name

end TypeTable

/-- The rest of a chain of superclasses, from a type on, at most `limit` steps up: it ends at a type
that is unknown or has no superclass, and before a type that is already in the chain. -/
def chainFrom (resolver : TypeResolver) :
    (limit : Nat) → (seen : List String) → String → List String
  | 0, _, name => [name]
  | limit + 1, seen, name =>
    match (resolver name).bind TypeInfo.superclass with
    | none => [name]
    | some next =>
      if (name :: seen).contains next then [name]
      else name :: chainFrom resolver limit (name :: seen) next

/-- A type and its superclasses in order, at most `limit` steps up. -/
def superclassChain (resolver : TypeResolver) (name : String) (limit : Nat) : List String :=
  chainFrom resolver limit [] name

/-! ## Contexts -/

/-- Everything a rule may look at while the walk is at some place. -/
structure Context where
  file : FileContext
  tree : Tree
  scopes : ScopeStack
  resolver : TypeResolver

end SdkLint
