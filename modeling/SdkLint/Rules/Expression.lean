import SdkLint.Tree.Query

/-!
# Expressions

Looking through parentheses and casts, and telling what the parts of an expression are: a thrown
value, an assigned name, a called method, a member of a class.
-/

namespace SdkLint.Tree

variable (t : Tree)

/-- Whether a node is `(expr)` or `(Type) expr`, which stand for their last operand. -/
def isTransparent (i : NodeId) : Bool :=
  t.kind i == .other && Text.startsWith "(" (t.text i) &&
    match t.operands i with
    | [_] => Text.endsWith ")" (t.text i)
    | [first, _] => t.kind first == .typeName
    | _ => false

theorem mem_children_of_mem_operands {t : Tree} {i c : Nat} (h : c ∈ t.operands i) :
    c ∈ t.children i :=
  (List.mem_filter.1 h).1

/-- The expression inside all parentheses and casts around it. -/
def unwrap (i : NodeId) : NodeId :=
  if t.isTransparent i then
    match _h : (t.operands i).getLast? with
    | some inner => unwrap inner
    | none => i
  else i
termination_by t.size - i
decreasing_by
  have hmem := mem_children_of_mem_operands (List.mem_of_getLast? _h)
  have := t.lt_of_mem_children hmem
  have := t.lt_size_of_mem_children hmem
  omega

/-- The expression that a throw statement throws, inside parentheses and casts. -/
def thrownExpression (i : NodeId) : Option NodeId :=
  (t.operands i).head?.map t.unwrap

/-- The name that an assignment to a target writes: `x` for `x`, `this.x` and `a.b.x`. -/
def targetName (i : NodeId) : Option String :=
  if t.kind i == .ident || t.kind i == .fieldAccess then t.token i else none

/-- Whether an identifier names a called method rather than a value. -/
def isMethodName (i : NodeId) : Bool :=
  (t.parent i).any fun p =>
    t.kind p == .methodCall && t.token p == t.token i &&
      (t.childrenOf p .ident).getLast? == some i

/-- Whether an identifier is the field of a field access: the `x` of `this.x` or `a.x`. -/
def isMemberName (i : NodeId) : Bool :=
  (t.parent i).any fun p =>
    t.kind p == .fieldAccess && (t.children p).head? != some i && t.token p == t.token i

/-- Whether an identifier reads a value: it is neither a declared name nor a called method. -/
def isValueReference (i : NodeId) : Bool :=
  match t.parent i with
  | none => false
  | some p =>
    match t.kind p with
    | .varDeclarator => t.nameNode p != some i
    | .parameter | .catchParam => false
    | _ => !t.isMethodName i

/-! ## Members and annotations -/

/-- Whether a node sits directly in the body of a type declaration, or in the declaration section of
an enum's body. -/
def isMemberOf (i owner : NodeId) : Bool :=
  match t.parent i with
  | none => false
  | some body =>
    let above := match t.parent body with
      | some p => if t.kind p == .classBody then t.parent p else some p
      | none => none
    t.kind body == .classBody && above == some owner

/-- Whether one of some declarations has an annotation whose simple name ends with one of some
suffixes. -/
def hasAnnotationSuffix (declarations : List NodeId) (suffixes : List String) : Bool :=
  declarations.any fun d =>
    (t.annotations d).any fun a =>
      (t.annotationName a).any fun name => suffixes.any fun suffix => Text.endsWith suffix name

/-- The last component of an enum constant as written: `BAR` for `Foo.BAR`. -/
def enumConstant (i : NodeId) : String :=
  String.ofList (Text.afterLast '.' (Text.trimBoth (t.text i).toList))

/-- The named declarators of a field declaration, each with its identifier and name. -/
def namedDeclarators (i : NodeId) : List (NodeId × NodeId × String) :=
  (t.childrenOf i .varDeclarator).filterMap fun d =>
    match t.name d, t.nameNode d with
    | some name, some anchor => some (d, anchor, name)
    | _, _ => none

end SdkLint.Tree
