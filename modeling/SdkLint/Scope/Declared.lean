import SdkLint.Tree.Query

/-!
# Declarations of names

What names the nodes of a tree declare, and in which table they go: the fields of a type
declaration, the parameters of a callable, local variables and imports.  `Tree.localsBelow` collects
the local declarations of a callable node by node in pre-order, leaving out what nested type
declarations and class bodies declare for themselves.
-/

namespace SdkLint

/-- How a name was introduced. -/
inductive SymbolKind where
  | field
  | parameter
  /-- A local variable, catch parameter or loop variable. -/
  | localVar
  /-- The simple name of an imported type. -/
  | importAlias
deriving DecidableEq, Repr, Inhabited

/-- What a name stands for in a scope. -/
structure Symbol where
  kind : SymbolKind
  /-- The declaring node. -/
  decl : NodeId
  /-- The imported name, for import aliases. -/
  qualifiedName : Option String := none
deriving DecidableEq, Repr, Inhabited

/-- A local declaration of a callable. -/
structure LocalDecl where
  name : String
  /-- The declaring node: a declarator, a catch, loop or lambda parameter. -/
  decl : NodeId
  /-- The declared type as written, if there is one. -/
  typeName : Option String
  /-- The byte offset of the declaration. -/
  offset : Nat
deriving DecidableEq, Repr, Inhabited

namespace Tree

variable (t : Tree)

/-- The named ones among some declaring nodes, as entries of a table. -/
def namedSymbols (kind : SymbolKind) (nodes : List NodeId) : List (String × Symbol) :=
  nodes.filterMap fun i => (t.name i).map fun name => (name, { kind, decl := i })

/-- The fields of a type declaration: the declarators of its field members, then the components of a
record. -/
def fieldSymbols (i : NodeId) : List (String × Symbol) :=
  let fields := (t.members i).filter fun m => t.kind m == .fieldDef
  let components := match t.child i .parameters with
    | some list => t.childrenOf list .parameter
    | none => []
  t.namedSymbols .field (fields.flatMap fun m => t.childrenOf m .varDeclarator) ++
    t.namedSymbols .field components

/-- The parameter nodes of a callable. -/
def parameterNodes (i : NodeId) : List NodeId :=
  match t.child i .parameters with
  | some list => t.childrenOf list .parameter
  | none => []

/-- The name that an import brings into the file, unless it imports on demand. -/
def importSymbols (i : NodeId) : List (String × Symbol) :=
  match t.token i with
  | some target =>
    match Text.beforeSuffix? ".*" target with
    | some _ => []
    | none =>
      [(simpleName target, { kind := .importAlias, decl := i, qualifiedName := some target })]
  | none => []

/-- The names that a node declares when the walk comes to it, in order: a node that opens a scope
declares into that scope, any other node into the innermost one. -/
def declaredSymbols (i : NodeId) : List (String × Symbol) :=
  match t.kind i with
  | .classDef | .interfaceDef | .enumDef | .recordDef | .annotationTypeDef => t.fieldSymbols i
  | .methodDef | .ctorDef => t.namedSymbols .parameter (t.parameterNodes i)
  | .importDecl => t.importSymbols i
  | .localVarDecl => t.namedSymbols .localVar (t.childrenOf i .varDeclarator)
  | .catchParam | .forEach => t.namedSymbols .localVar [i]
  | _ => []

/-! ## Locals of a callable -/

/-- The parameters of a lambda expression: one bare name, or the names and parameters of a list. -/
def lambdaLocals (i : NodeId) : List LocalDecl :=
  let params : List NodeId := match t.children i with
    | [] => []
    | first :: _ =>
      match t.kind first with
      | .ident => [first]
      | .parameters | .other =>
        (t.children first).filter fun c => t.kind c == .ident || t.kind c == .parameter
      | _ => []
  params.filterMap fun p =>
    let name := if t.kind p == .ident then t.token p else t.name p
    name.map fun name => ⟨name, p, t.typeToken p, (t.span p).start⟩

/-- The locals that one node declares. -/
def localsAt (i : NodeId) : List LocalDecl :=
  match t.kind i with
  | .localVarDecl =>
    (t.childrenOf i .varDeclarator).filterMap fun d =>
      (t.name d).map fun name => ⟨name, d, t.typeToken i, (t.span d).start⟩
  | .catchParam | .forEach =>
    match t.name i with
    | some name =>
      let type := (t.descendants i).find? fun c => t.kind c == .typeName
      [⟨name, i, type.bind t.token, (t.span i).start⟩]
    | none => []
  | .lambda => t.lambdaLocals i
  | _ => []

/-- Whether locals are not looked for in a node: what type declarations and class bodies declare is
theirs. -/
def hidesLocals (i : NodeId) : Bool :=
  (t.kind i).isTypeDeclaration || t.kind i == .classBody

/-- The locals declared below a node, outside of type declarations and class bodies: node by node in
pre-order, and all those of one node together. -/
def localsBelow (i : NodeId) : List LocalDecl :=
  (t.foldOn t.hidesLocals (fun locals j => locals.appendList (t.localsAt j)) (t.children i)
    #[]).toList

/-- The locals below a node are those that the nodes visible from its children declare. -/
theorem localsBelow_eq_visible (t : Tree) (i : Nat) :
    t.localsBelow i =
      ((t.children i).flatMap (t.visibleFrom t.hidesLocals)).flatMap t.localsAt := by
  rw [localsBelow, foldOn_eq_foldl]
  generalize (t.children i).flatMap (t.visibleFrom t.hidesLocals) = nodes
  suffices h : ∀ locals : Array LocalDecl,
      (nodes.foldl (fun locals j => locals.appendList (t.localsAt j)) locals).toList =
        locals.toList ++ nodes.flatMap t.localsAt by
    rw [h]
    rfl
  induction nodes with
  | nil => intro locals; simp
  | cons j nodes ih =>
    intro locals
    rw [List.foldl_cons, ih, List.flatMap_cons]
    simp

end Tree

end SdkLint
