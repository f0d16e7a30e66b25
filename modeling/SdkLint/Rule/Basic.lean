import SdkLint.Finding.Basic
import SdkLint.Rule.Context

/-!
# Rules

A rule has a name and a code, the kinds of nodes it wants to see, and a check: a state machine that
is started afresh for every file and called when the walk enters a node, when it leaves it and once
at the end.  Every call gives a `Verdict`: the findings, in order, and possibly a failure.  A
failure never stops the walk.
-/

namespace SdkLint

/-! ## Verdicts -/

/-- Why a rule could not deal with a node. -/
inductive Failure where
  /-- The node lacks something; the rule goes on with the next one. -/
  | malformed (detail : String)
  /-- The rule itself is broken; it sits out the rest of the file. -/
  | internal (detail : String)
deriving DecidableEq, Repr, Inhabited

namespace Failure

/-- What a failure says to the user. -/
def message : Failure → String
  | .malformed detail => "malformed input: " ++ detail
  | .internal detail => "internal error: " ++ detail

/-- The failure of a rule that misses something below a node. -/
def missing (what : String) (t : Tree) (i : NodeId) : Failure :=
  let p := t.position i
  .malformed ("expected " ++ what ++ " under " ++ (t.kind i).name ++ " at " ++ toString p.line ++
    ":" ++ toString p.column)

end Failure

/-- The outcome of one call of a rule. -/
structure Verdict where
  findings : List Finding := []
  failure : Option Failure := none
deriving DecidableEq, Repr, Inhabited

namespace Verdict

/-- Nothing to report. -/
def pass : Verdict :=
  {}

/-- A call that only fails. -/
def fail (failure : Failure) : Verdict :=
  { failure := some failure }

/-- Findings and no failure. -/
def report (findings : List Finding) : Verdict :=
  { findings }

/-- The findings of one part of a check, then those of the next, which a failure keeps from being
done. -/
def andThen (v w : Verdict) : Verdict :=
  match v.failure with
  | some _ => v
  | none => { findings := v.findings ++ w.findings, failure := w.failure }

/-- Goes on with a value that a node may lack. -/
def require {α : Type} (value : Option α) (failure : Failure) (next : α → Verdict) : Verdict :=
  match value with
  | some a => next a
  | none => fail failure

end Verdict

/-- A finding about the text of a node. -/
def Tree.finding (t : Tree) (i : NodeId) (message : String) (help : Option String := none) :
    Finding :=
  { position := t.position i, span := t.span i, message, help }

/-! ## Checks and rules -/

/-- A state machine that checks one file. -/
structure Check where
  State : Type
  start : State
  enter : Context → NodeId → State → State × Verdict := fun _ _ s => (s, .pass)
  leave : Context → NodeId → State → State × Verdict := fun _ _ s => (s, .pass)
  finish : Context → State → State × Verdict := fun _ s => (s, .pass)

/-- The check that looks at every node by itself, on the way in. -/
def Check.ofNodes (judge : Context → NodeId → Verdict) : Check where
  State := Unit
  start := ()
  enter := fun cx i _ => ((), judge cx i)

/-- A rule. -/
structure Rule where
  name : String
  code : String
  description : String := ""
  /-- The severity of its findings, unless the configuration says otherwise. -/
  severity : Severity := .error
  /-- Whether allowing a finding takes a reason. -/
  requiresReason : Bool := severity == .error
  /-- The kinds of nodes that the rule is called for. -/
  kinds : List NodeKind
  /-- What is wrong with the options of the rule. -/
  problems : List String := []
  check : Check

end SdkLint
