import SdkLint.Cause.Policy
import SdkLint.Rule.Basic
import SdkLint.Rules.Expression

/-!
# Exceptions thrown directly

An exception that is constructed in a throw statement must be one of those that the policy allows
there, or be known to descend from one of them.
-/

namespace SdkLint.DirectThrow

def name : String := "no-direct-throw"

def code : String := "AP004"

/-- The number of superclasses that are looked at. -/
def chainLimit : Nat := 16

/-- Whether a type as written may stand for one that descends from an allowed exception. -/
def isAllowedByHierarchy (policy : ExceptionPolicy) (cx : Context) (written : String) : Bool :=
  (cx.scopes.typeCandidates written).any fun candidate =>
    (superclassChain cx.resolver candidate chainLimit).any fun ancestor =>
      policy.allowedDirect.contains (simpleName ancestor)

/-- Reports a throw statement that constructs an exception which is not allowed. -/
def judge (policy : ExceptionPolicy) (cx : Context) (i : NodeId) : Verdict :=
  let t := cx.tree
  .require (t.thrownExpression i) (.missing "thrown expression" t i) fun expr =>
    if t.kind expr != .creation then .pass
    else
      .require (t.typeToken expr) (.missing "constructed type" t expr) fun written =>
        let simple := simpleName written
        if policy.allowedDirect.contains simple || isAllowedByHierarchy policy cx written then .pass
        else .report [t.finding i ("Directly throwing '" ++ simple ++ "' is not allowed")
          (some ("Throw through the logger: `throw logger." ++ policy.recommendedFactory ++
            "(new " ++ simple ++ "(...))`"))]

/-- The rule. -/
def rule (policy : ExceptionPolicy) : Rule where
  name := name
  code := code
  description := "Exceptions must be built through a logger factory, not thrown directly"
  kinds := [.throwStmt]
  check := .ofNodes (judge policy)

end SdkLint.DirectThrow
