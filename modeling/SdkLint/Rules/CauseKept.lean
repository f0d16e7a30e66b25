import SdkLint.Cause.Flow
import SdkLint.Cause.Policy
import SdkLint.Rule.Basic

/-!
# The cause is kept

An exception that is thrown anywhere in the body of a catch clause must mention the exception caught
there, or something made from it.
-/

namespace SdkLint.CauseKept

def name : String := "use-caught-exception-cause"

def code : String := "AP007"

/-- Reports the throw statements of a catch clause that drop the caught exception. -/
def judge (policy : ExceptionPolicy) (cx : Context) (i : NodeId) : Verdict :=
  let t := cx.tree
  .require ((t.child i .catchParam).bind t.name) (.missing "catch parameter" t i) fun caught =>
    .require (t.child i .block) (.missing "catch body" t i) fun body =>
      .report (((CauseFlow.trace t body caught).unrelatedThrows t).map fun statement =>
        t.finding statement
          ("Exception thrown in catch block does not use the caught exception '" ++ caught ++
            "' as its cause")
          (some ("Pass '" ++ caught ++ "' as the cause, e.g. `throw logger." ++
            policy.recommendedFactory ++ "(new RuntimeException(\"...\", " ++ caught ++ "))`")))

/-- The rule. -/
def rule (policy : ExceptionPolicy) : Rule where
  name := name
  code := code
  description := "Exceptions thrown in a catch block must carry the caught exception as cause"
  kinds := [.catchClause]
  check := .ofNodes (judge policy)

end SdkLint.CauseKept
