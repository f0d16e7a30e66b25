import SdkLint.Rule.Basic
import SdkLint.Rules.BannedApi
import SdkLint.Rules.Expression

/-!
# Logging conventions

Code logs through the SDK's own logger: other logging packages are not imported, a logger field is
final and named for being static or not, and a logger is created for the class that holds it.
-/

namespace SdkLint.Logging

def name : String := "logging-hygiene"

def code : String := "AP010"

/-- The options of the rule. -/
structure Options where
  /-- The logger type of the SDK. -/
  loggerType : String := "ClientLogger"
  bannedPackages : List String := ["org.slf4j", "org.apache.logging.log4j", "java.util.logging"]
  severity : Severity := .error
deriving DecidableEq, Repr, Inhabited

/-- The first banned package that an imported name is or lies in. -/
def bannedPackage (o : Options) (imported : String) : Option String :=
  o.bannedPackages.find? fun package =>
    BannedApi.isAtOrBelow package.toList imported.toList

/-- Whether the declared type of a node is the logger type. -/
def hasLoggerType (o : Options) (t : Tree) (i : NodeId) : Bool :=
  (t.typeToken i).any fun type => simpleName type == o.loggerType

/-- Reports the import of a banned package. -/
def checkImport (o : Options) (t : Tree) (i : NodeId) : Verdict :=
  let target := (t.token i).getD ""
  match bannedPackage o target with
  | some package => .report [t.finding i
      ("Import of '" ++ target ++ "' is not allowed; '" ++ package ++
        "' is not the SDK logging framework")
      (some ("Log through " ++ o.loggerType))]
  | none => .pass

/-- Reports logger fields that are not final or not named as they should be. -/
def checkField (o : Options) (t : Tree) (i : NodeId) : Verdict :=
  if !hasLoggerType o t i then .pass
  else
    let isStatic := t.hasModifier i "static"
    let expected := if isStatic then "LOGGER" else "logger"
    let kind := if isStatic then "Static" else "Instance"
    .report ((t.namedDeclarators i).flatMap fun (_, anchor, name) =>
      (if t.hasModifier i "final" then []
      else [t.finding anchor (o.loggerType ++ " field '" ++ name ++ "' must be final")]) ++
      (if name == expected then []
      else [t.finding anchor (kind ++ " " ++ o.loggerType ++ " field '" ++ name ++
        "' must be named '" ++ expected ++ "'")]))

/-- Reports a logger that is created for another class than the innermost one. -/
def checkConstruction (o : Options) (cx : Context) (i : NodeId) : Verdict :=
  let t := cx.tree
  if !hasLoggerType o t i then .pass
  else
    .require (t.child i .argumentList) (.missing "argument list" t i) fun args =>
      match (t.operands args).head?, cx.scopes.enclosingClass.bind t.name with
      | some first, some owner =>
        match Text.beforeSuffix? ".class" (Text.trim (t.text first)) with
        | none => .pass
        | some written =>
          let named := simpleName written
          if named == owner then .pass
          else .report [t.finding first
            (o.loggerType ++ " is created for '" ++ named ++ "' inside class '" ++ owner ++ "'")
            (some ("Use `new " ++ o.loggerType ++ "(" ++ owner ++ ".class)`"))]
      | _, _ => .pass

/-- Checks an import, a field declaration or the creation of an object. -/
def judge (o : Options) (cx : Context) (i : NodeId) : Verdict :=
  match cx.tree.kind i with
  | .importDecl => checkImport o cx.tree i
  | .fieldDef => checkField o cx.tree i
  | .creation => checkConstruction o cx i
  | _ => .pass

/-- The rule. -/
def rule (o : Options) : Rule where
  name := name
  code := code
  description := "Logging must go through the SDK logger with consistent fields"
  severity := o.severity
  kinds := [.importDecl, .fieldDef, .creation]
  problems :=
    if (Text.trim o.loggerType).isEmpty then [name ++ ": option 'logger_type' is empty"] else []
  check := .ofNodes (judge o)

end SdkLint.Logging
