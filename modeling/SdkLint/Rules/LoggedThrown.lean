import SdkLint.Cause.Policy
import SdkLint.Rule.Basic
import SdkLint.Rules.Expression

/-!
# Logged exceptions are thrown

A factory logs an exception and hands it back to be thrown.  Its result must not be discarded, and
if it is stored in a variable, some throw statement of the same callable must throw that variable.
What is handed on otherwise is not followed.
-/

namespace SdkLint.LoggedThrown

def name : String := "logged-exception-thrown"

def code : String := "AP006"

/-- What becomes of the result of a call. -/
inductive Fate where
  | thrown
  /-- Returned, passed on or otherwise used as a value. -/
  | handedOff
  | discarded
  | stored (name : String)
deriving DecidableEq, Repr

/-- A value with the parentheses and casts around it, and what it stands in, going up along
`above`. -/
def settle (t : Tree) (value : NodeId) : (above : List NodeId) → Option (NodeId × NodeId)
  | [] => none
  | parent :: rest => if t.isTransparent parent then settle t parent rest else some (value, parent)

/-- What becomes of the result of a call. -/
def fateOf (t : Tree) (call : NodeId) : Fate :=
  match settle t call (t.ancestors call) with
  | none => .handedOff
  | some (value, parent) =>
    match t.kind parent with
    | .throwStmt => .thrown
    | .exprStmt => .discarded
    | .varDeclarator =>
      match t.name parent with
      | some name => .stored name
      | none => .handedOff
    | .assign =>
      match (t.children parent).head? with
      | none => .handedOff
      | some target =>
        if target == value then .handedOff
        else match t.targetName target with
          | some name => .stored name
          | none => .handedOff
    | _ => .handedOff

/-- Whether some throw statement below a node throws a variable. -/
def isThrownIn (t : Tree) (scope : NodeId) (name : String) : Bool :=
  (t.descendants scope).any fun i =>
    t.kind i == .throwStmt && (t.thrownExpression i).bind t.targetName == some name

/-- Reports a factory call whose result is never thrown. -/
def judge (policy : ExceptionPolicy) (cx : Context) (i : NodeId) : Verdict :=
  let t := cx.tree
  if !policy.isFactoryCall t i then .pass
  else
    let factory := (t.token i).getD ""
    match fateOf t i with
    | .thrown | .handedOff => .pass
    | .discarded => .report [t.finding i
        ("Result of '" ++ factory ++ "' is discarded; the logged exception must be thrown")
        (some ("Write `throw logger." ++ factory ++ "(...)`"))]
    | .stored name =>
      match cx.scopes.enclosingCallable with
      | none => .pass
      | some (callable, _) =>
        if isThrownIn t callable name then .pass
        else .report [t.finding i
          ("Exception from '" ++ factory ++ "' is stored in '" ++ name ++ "' but never thrown")
          (some ("Throw '" ++ name ++ "' or do not log it as an error"))]

/-- The rule. -/
def rule (policy : ExceptionPolicy) : Rule where
  name := name
  code := code
  description := "Exceptions built through a logger factory must be thrown"
  kinds := [.methodCall]
  problems := policy.factoryProblems name
  check := .ofNodes (judge policy)

end SdkLint.LoggedThrown
