import SdkLint.Text.Pieces
import SdkLint.Tree.Query

/-!
# Exception policies

Which exceptions may be thrown as they are, which logger methods log an exception and hand it back,
and which annotations exempt a declaration.  The rules about exceptions share these options.
-/

namespace SdkLint

/-- The options that the rules about exceptions share. -/
structure ExceptionPolicy where
  /-- Simple names of the exceptions that may be constructed in a throw statement. -/
  allowedDirect : List String :=
    ["IllegalArgumentException", "NullPointerException", "IllegalStateException",
     "UnsupportedOperationException", "IndexOutOfBoundsException"]
  /-- Names of the logger methods that log an exception and return it. -/
  factories : List String :=
    ["logExceptionAsError", "logExceptionAsWarning", "logThrowableAsError",
     "logThrowableAsWarning"]
  /-- Endings of the annotation names that exempt a declaration. -/
  generatedSuffixes : List String := ["Generated", "ServiceInterface"]
deriving DecidableEq, Repr, Inhabited

namespace ExceptionPolicy

/-- Whether a node calls a factory. -/
def isFactoryCall (policy : ExceptionPolicy) (t : Tree) (i : NodeId) : Bool :=
  t.kind i == .methodCall && (t.token i).any policy.factories.contains

/-- The factory that messages recommend. -/
def recommendedFactory (policy : ExceptionPolicy) : String :=
  policy.factories.head?.getD "logExceptionAsError"

/-- The factories as messages list them. -/
def factoryList (policy : ExceptionPolicy) : String :=
  Text.join ", " policy.factories

/-- What is wrong with the policy for a rule that looks for factory calls. -/
def factoryProblems (policy : ExceptionPolicy) (rule : String) : List String :=
  if policy.factories.isEmpty then
    [rule ++ ": option 'sanctioned_factories' is empty; the rule has nothing to check"]
  else []

end ExceptionPolicy

end SdkLint
