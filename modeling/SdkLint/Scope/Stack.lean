import SdkLint.Scope.Declared

/-!
# The stack of scopes

While the walk is inside the file, a type declaration, a callable or a block, a scope for it stands
on a stack, the innermost on top.  `ScopeStack.enter` and `ScopeStack.leave` follow the walk;
everything else reads the stack: which class and callable surround the current node, what a name
stands for, and which qualified names a type name as written may mean.
-/

namespace SdkLint

/-- The two sorts of callables. -/
inductive CallableKind where
  | method
  | constructor
deriving DecidableEq, Repr, Inhabited

/-- What opened a scope. -/
inductive ScopeKind where
  | file
  | typeDeclaration
  | callable (kind : CallableKind)
  | block
deriving DecidableEq, Repr, Inhabited

/-- The sort of scope that a node of a kind opens. -/
def NodeKind.scopeKind? : NodeKind → Option ScopeKind
  | .compilationUnit => some .file
  | .methodDef => some (.callable .method)
  | .ctorDef => some (.callable .constructor)
  | .block => some .block
  | kind => if kind.isTypeDeclaration then some .typeDeclaration else none

/-- A kind has a sort of scope exactly if its nodes open one. -/
theorem NodeKind.isSome_scopeKind? (kind : NodeKind) :
    kind.scopeKind?.isSome = kind.opensScope := by
  cases kind <;> rfl

/-- One lexical scope. -/
structure Scope where
  kind : ScopeKind
  /-- The node that opened the scope. -/
  node : NodeId
  /-- The declared names, the latest first. -/
  symbols : List (String × Symbol) := []
deriving DecidableEq, Repr, Inhabited

namespace Scope

/-- The symbol that a name stands for in this scope: its latest declaration. -/
def symbol? (s : Scope) (name : String) : Option Symbol :=
  s.symbols.lookup name

/-- Adds a declaration, which hides earlier ones of the same name. -/
def declare (s : Scope) (entry : String × Symbol) : Scope :=
  { s with symbols := entry :: s.symbols }

/-- Number of different names declared in this scope. -/
def symbolCount (s : Scope) : Nat :=
  (s.symbols.map Prod.fst).eraseDups.length

end Scope

/-- The scopes around the current place of the walk, and what the file has said about its package
and imports so far. -/
structure ScopeStack where
  /-- The open scopes, innermost first. -/
  scopes : List Scope := []
  package : Option String := none
  /-- Packages imported on demand, in order. -/
  wildcardImports : List String := []
deriving DecidableEq, Repr, Inhabited

namespace ScopeStack

variable (t : Tree)

/-! ## Following the walk -/

/-- Number of open scopes. -/
def depth (s : ScopeStack) : Nat :=
  s.scopes.length

/-- Puts declarations into the innermost scope, if there is one. -/
def declare (s : ScopeStack) (entries : List (String × Symbol)) : ScopeStack :=
  match s.scopes with
  | [] => s
  | top :: rest => { s with scopes := entries.foldl Scope.declare top :: rest }

/-- The package that a package declaration names. -/
def packageName (i : NodeId) : Option String :=
  let named := match t.child i .qualifiedName with
    | some name => some name
    | none => t.child i .ident
  named.bind t.token

/-- The stack after the walk has entered a node. -/
def enter (i : NodeId) (s : ScopeStack) : ScopeStack :=
  let opened := match (t.kind i).scopeKind? with
    | some kind => { s with scopes := { kind, node := i } :: s.scopes }
    | none => s
  let declared := opened.declare (t.declaredSymbols i)
  match t.kind i with
  | .packageDecl => { declared with package := packageName t i }
  | .importDecl =>
    match (t.token i).bind (Text.beforeSuffix? ".*") with
    | some package => { declared with wildcardImports := declared.wildcardImports ++ [package] }
    | none => declared
  | _ => declared

/-- The stack after the walk has left a node. -/
def leave (i : NodeId) (s : ScopeStack) : ScopeStack :=
  if (t.kind i).opensScope then { s with scopes := s.scopes.tail } else s

/-- The stack after one stop of the walk. -/
def visit (s : ScopeStack) : Visit → ScopeStack
  | .enter i => s.enter t i
  | .leave i => s.leave t i

/-! ## Surroundings -/

/-- The type declarations around the current place, innermost first. -/
def enclosingClasses (s : ScopeStack) : List NodeId :=
  (s.scopes.filter fun scope => scope.kind == .typeDeclaration).map Scope.node

/-- The innermost type declaration. -/
def enclosingClass (s : ScopeStack) : Option NodeId :=
  s.enclosingClasses.head?

/-- The innermost callable among some scopes, unless a type declaration or the file is closer. -/
def callableAmong : List Scope → Option (NodeId × CallableKind)
  | [] => none
  | scope :: rest =>
    match scope.kind with
    | .callable kind => some (scope.node, kind)
    | .typeDeclaration | .file => none
    | .block => callableAmong rest

/-- The innermost method or constructor.  Members of a class inside a callable do not see it. -/
def enclosingCallable (s : ScopeStack) : Option (NodeId × CallableKind) :=
  callableAmong s.scopes

/-- The name of the innermost type declaration with its package and the type declarations around it;
none if one of them has no name. -/
def qualifiedClassName (s : ScopeStack) : Option String :=
  match s.enclosingClasses.mapM t.name with
  | none | some [] => none
  | some names =>
    let nested := Text.join "." names.reverse
    some (match s.package with
      | some package => package ++ "." ++ nested
      | none => nested)

/-! ## Names -/

/-- The symbol that a name stands for: the declaration of the innermost scope that has one. -/
def lookup (s : ScopeStack) (name : String) : Option Symbol :=
  s.scopes.findSome? fun scope => scope.symbol? name

/-- Names of the parameters of the surrounding callable. -/
def parameterNames (s : ScopeStack) : Option (List String) :=
  s.enclosingCallable.map fun (callable, _) => (t.parameterNodes callable).filterMap t.name

/-- Local declarations of the surrounding callable in pre-order. -/
def callableLocals (s : ScopeStack) : List LocalDecl :=
  match s.enclosingCallable with
  | some (callable, _) => t.localsBelow callable
  | none => []

/-- Whether a name is a parameter of the surrounding callable. -/
def isParameter (s : ScopeStack) (name : String) : Bool :=
  (s.parameterNames t).any (·.contains name)

/-- Whether a name is declared as a local anywhere in the surrounding callable. -/
def isLocal (s : ScopeStack) (name : String) : Bool :=
  (s.callableLocals t).any fun l => l.name == name

/-- The last local of a name that is declared before a byte offset. -/
def localDeclaredBefore (s : ScopeStack) (name : String) (offset : Nat) : Option LocalDecl :=
  (s.callableLocals t).reverse.find? fun l => l.name == name && l.offset < offset

/-! ## Names of types -/

/-- The qualified name that a type name as written stands for, where the text alone or an import
tells: a dotted name is its own. -/
def resolveTypeName (s : ScopeStack) (written : String) : Option String :=
  let base := Text.trimBoth (written.toList.takeWhile (· != '<'))
  if base.contains '.' then some (String.ofList base)
  else
    (s.scopes.getLast?).bind fun file =>
      match file.symbol? (String.ofList base) with
      | some symbol => if symbol.kind == .importAlias then symbol.qualifiedName else none
      | none => none

/-- The qualified names that a type name as written may stand for: the resolved one, or else the
name in the file's package, in the packages imported on demand and in `java.lang`. -/
def typeCandidates (s : ScopeStack) (written : String) : List String :=
  match s.resolveTypeName written with
  | some resolved => [resolved]
  | none =>
    let base := simpleName written
    (s.package.toList ++ s.wildcardImports ++ ["java.lang"]).map fun package =>
      package ++ "." ++ base

end ScopeStack

end SdkLint
