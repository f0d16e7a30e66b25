import SdkLint.Text.Pieces
import SdkLint.Tree.Traversal

/-!
# Reading declarations off a tree

Names, types, modifiers, annotations, initializers and members of the nodes that have them.  All of
these are searches among the children of a node.
-/

namespace SdkLint

/-! ## Names of types -/

/-- The text without the array brackets `[]` at its end. -/
def dropBrackets (cs : List Char) : List Char :=
  let rec go : List Char → List Char
    | ']' :: '[' :: rest => go rest
    | rest => rest
  (go cs.reverse).reverse

/-- The last component of a type name as written, without type arguments and array brackets:
`List` for `java.util.List<String>[]`. -/
def simpleName (name : String) : String :=
  let base := Text.trimBoth (name.toList.takeWhile (· != '<'))
  let element := Text.trimBoth (dropBrackets base)
  String.ofList (Text.trimBoth (Text.afterLast '.' element))

namespace Tree

variable (t : Tree)

/-! ## Children by kind -/

/-- The first child of a kind. -/
def child (i : NodeId) (kind : NodeKind) : Option NodeId :=
  (t.children i).find? fun c => t.kind c == kind

/-- All children of a kind. -/
def childrenOf (i : NodeId) (kind : NodeKind) : List NodeId :=
  (t.children i).filter fun c => t.kind c == kind

/-- The children that are not comments. -/
def operands (i : NodeId) : List NodeId :=
  (t.children i).filter fun c => t.kind c != .comment

/-! ## Names and types -/

/-- The identifier that names a declaration. -/
def nameNode (i : NodeId) : Option NodeId :=
  t.child i .ident

/-- The declared name: the first identifier child.  A parameter that wraps its name in a declarator
takes the declarator's name. -/
def name (i : NodeId) : Option String :=
  match t.child i .ident with
  | some ident => t.token ident
  | none =>
    match _h : t.child i .varDeclarator with
    | some declarator => name declarator
    | none => none
termination_by t.size - i
decreasing_by
  have hmem := List.mem_of_find?_eq_some _h
  have := t.lt_of_mem_children hmem
  have := t.lt_size_of_mem_children hmem
  omega

/-- The type of a field, local, parameter or method. -/
def declaredType (i : NodeId) : Option NodeId :=
  t.child i .typeName

/-- The declared type as written. -/
def typeToken (i : NodeId) : Option String :=
  (t.declaredType i).bind t.token

/-! ## Modifiers and annotations -/

/-- The modifier list of a declaration. -/
def modifiers (i : NodeId) : Option NodeId :=
  t.child i .modifiers

/-- Whether a modifier keyword stands among the children or in the modifier list. -/
def hasModifier (i : NodeId) (keyword : String) : Bool :=
  let among (j : NodeId) : Bool :=
    (t.childrenOf j .modifier).any fun m => t.token m == some keyword
  among i || (t.modifiers i).any among

/-- The annotations of a declaration. -/
def annotations (i : NodeId) : List NodeId :=
  match t.modifiers i with
  | some list => t.childrenOf list .annotationUse
  | none => []

/-- The simple name of an annotation. -/
def annotationName (i : NodeId) : Option String :=
  (t.token i).map simpleName

/-- The first annotation of a declaration with a simple or qualified name. -/
def annotationNamed (i : NodeId) (name : String) : Option NodeId :=
  (t.annotations i).find? fun a =>
    (t.token a).any fun token => token == name || simpleName token == name

/-- The value that a list of annotation arguments gives to an element.  An argument that is no
`key = value` pair is the element `value`.  A pair without any part ends the search. -/
def elementValue (key : String) : List NodeId → Option NodeId
  | [] => none
  | arg :: rest =>
    if t.kind arg == .elementValuePair then
      match t.children arg with
      | [] => none
      | name :: parts =>
        if t.token name == some key then parts.head? else elementValue key rest
    else if key == "value" && t.kind arg != .comment then some arg
    else elementValue key rest

/-- The value of an element of an annotation. -/
def annotationValue (i : NodeId) (key : String) : Option NodeId :=
  (t.child i .argumentList).bind fun args => t.elementValue key (t.children args)

/-! ## Parts of declarations -/

/-- The initializer of a declarator: what follows its name, dimensions and comments aside. -/
def initializer (i : NodeId) : Option NodeId :=
  if t.kind i == .varDeclarator then
    (t.children i).tail.find? fun c => t.kind c != .dimensions && t.kind c != .comment
  else none

/-- The members of a type declaration: the children of its body.  A body inside the body, as an enum
has for its declarations, gives its children in its place. -/
def members (i : NodeId) : List NodeId :=
  match t.child i .classBody with
  | none => []
  | some body =>
    (t.children body).flatMap fun c => if t.kind c == .classBody then t.children c else [c]

/-- Whether a node is a documentation comment. -/
def isJavadoc (i : NodeId) : Bool :=
  t.kind i == .comment && (t.token i).any (Text.startsWith "/**")

end Tree

end SdkLint
