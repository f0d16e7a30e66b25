import SdkLint.Cause.Flow
import SdkLint.Cause.Policy
import SdkLint.Rule.Basic

/-!
# Exceptions thrown through the logger

What a throw statement throws must come from a logger factory.  Two sorts of variables may be thrown
as well: the exception that a catch clause around the statement has caught, and a local that holds
the result of a factory.  Static code, constructors, initializers and declarations marked as
generated are exempt, for they have no logger.
-/

namespace SdkLint.LoggerThrow

def name : String := "throw-from-logger"

def code : String := "AP005"

/-- Whether the code around the current place has no logger to go through. -/
def isExempt (policy : ExceptionPolicy) (cx : Context) : Bool :=
  let t := cx.tree
  match cx.scopes.enclosingCallable with
  | none => true
  | some (callable, kind) =>
    kind == .constructor || t.hasModifier callable "static" ||
      (cx.scopes.enclosingClasses.any fun owner => t.hasModifier owner "static") ||
      t.hasAnnotationSuffix (callable :: cx.scopes.enclosingClasses) policy.generatedSuffixes

/-- Whether an expression reads the exception that a catch clause around a statement has caught.
Clauses outside of a class body or lambda around the statement do not count. -/
def rethrowsCaught (t : Tree) (statement expr : NodeId) : Bool :=
  let around := (t.ancestors statement).takeWhile fun a =>
    t.kind a != .classBody && t.kind a != .lambda
  (around.filter fun a => t.kind a == .catchClause).any fun clause =>
    match CauseFlow.clauseParts t clause with
    | some (caught, body) => (CauseFlow.trace t body caught).rethrowsCaught t expr
    | none => false

/-- The value that a declarator or an assignment gives to a name. -/
def valueFor (t : Tree) (name : Option String) (i : NodeId) : Option NodeId :=
  match t.kind i with
  | .varDeclarator => if t.name i == name then t.initializer i else none
  | .assign =>
    (t.children i).head?.bind fun target =>
      if t.kind target == .ident && t.token target == name then (t.children i).getLast? else none
  | _ => none

/-- Whether an expression is a variable that a callable fills from a factory. -/
def holdsFactoryResult (policy : ExceptionPolicy) (t : Tree) (callable expr : NodeId) : Bool :=
  t.kind expr == .ident &&
    (t.descendants callable).any fun i =>
      (valueFor t (t.token expr) i).any fun value => policy.isFactoryCall t (t.unwrap value)

/-- Reports a throw statement that throws anything else. -/
def judge (policy : ExceptionPolicy) (cx : Context) (i : NodeId) : Verdict :=
  let t := cx.tree
  if policy.factories.isEmpty then .pass
  else
    .require (t.thrownExpression i) (.missing "thrown expression" t i) fun expr =>
      if policy.isFactoryCall t expr || isExempt policy cx then .pass
      else if rethrowsCaught t i expr then .pass
      else if cx.scopes.enclosingCallable.any fun (callable, _) =>
        holdsFactoryResult policy t callable expr then .pass
      else .report [t.finding i "Exception must be thrown through the client logger"
        (some ("Wrap it in one of: " ++ policy.factoryList))]

/-- The rule. -/
def rule (policy : ExceptionPolicy) : Rule where
  name := name
  code := code
  description := "Exceptions must be thrown through a sanctioned logger factory"
  kinds := [.throwStmt]
  problems := policy.factoryProblems name
  check := .ofNodes (judge policy)

end SdkLint.LoggerThrow
