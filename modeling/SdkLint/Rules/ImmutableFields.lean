import SdkLint.Rule.Basic
import SdkLint.Rules.Expression
import SdkLint.Text.Upper

/-!
# Immutable classes

A class that is marked immutable exposes no fields that can be written and has no setters.  A setter
that overrides a method is let pass if the class is known to have a supertype.
-/

namespace SdkLint.ImmutableFields

def name : String := "immutable-class-fields"

def code : String := "AP002"

/-- The options of the rule. -/
structure Options where
  /-- The annotation that marks the classes to check. -/
  marker : String := "Immutable"
  severity : Severity := .error
deriving DecidableEq, Repr, Inhabited

/-- The innermost class, if it is marked and the node is a member of it. -/
def isMarkedMember (o : Options) (cx : Context) (i : NodeId) : Bool :=
  let t := cx.tree
  cx.scopes.enclosingClass.any fun owner =>
    (t.kind owner == .classDef || t.kind owner == .enumDef || t.kind owner == .recordDef) &&
      t.isMemberOf i owner && (t.annotationNamed owner o.marker).isSome

/-- Whether a method name is `set` followed by an upper case letter. -/
def isSetterName (name : String) : Bool :=
  match Text.dropPrefix? "set".toList name.toList with
  | some (c :: _) => Text.isUppercase c
  | _ => false

/-- Whether the innermost class is known to have a supertype. -/
def hasKnownSupertype (cx : Context) : Bool :=
  ((cx.scopes.qualifiedClassName cx.tree).bind cx.resolver).any TypeInfo.hasSupertype

/-- Reports the fields of a declaration that are visible outside the package and not final. -/
def checkField (o : Options) (t : Tree) (i : NodeId) : Verdict :=
  if t.hasModifier i "final" || !(t.hasModifier i "public" || t.hasModifier i "protected") then
    .pass
  else .report ((t.namedDeclarators i).map fun (_, anchor, name) =>
    t.finding anchor
      ("Field '" ++ name ++ "' of @" ++ o.marker ++
        " class must be final or not visible outside the package")
      (some ("Make '" ++ name ++ "' final, or private with an accessor")))

/-- Reports a setter. -/
def checkMethod (o : Options) (cx : Context) (i : NodeId) : Verdict :=
  let t := cx.tree
  .require (t.nameNode i) (.missing "method name" t i) fun anchor =>
    match t.token anchor with
    | none => .pass
    | some name =>
      if !isSetterName name then .pass
      else if (t.annotationNamed i "Override").isSome && hasKnownSupertype cx then .pass
      else .report [t.finding anchor
        ("Setter '" ++ name ++ "' is not allowed in @" ++ o.marker ++ " class")
        (some "Return a modified copy instead (e.g. a `with...` method)")]

/-- Checks a field or method of a marked class. -/
def judge (o : Options) (cx : Context) (i : NodeId) : Verdict :=
  if !isMarkedMember o cx i then .pass
  else match cx.tree.kind i with
    | .fieldDef => checkField o cx.tree i
    | .methodDef => checkMethod o cx i
    | _ => .pass

/-- The rule. -/
def rule (o : Options) : Rule where
  name := name
  code := code
  description := "Classes marked immutable must not expose mutable fields or setters"
  severity := o.severity
  kinds := [.fieldDef, .methodDef]
  problems := if (Text.trim o.marker).isEmpty then [name ++ ": option 'marker' is empty"] else []
  check := .ofNodes (judge o)

end SdkLint.ImmutableFields
