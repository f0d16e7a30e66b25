import SdkLint.Finding.Directive
import SdkLint.Rule.Dispatch

/-!
# Walking a file

One walk around the tree of a file runs all rules.  Coming to a node, the scopes are brought up to
date first, and then every rule that asked for the node's kind is called, in the order of the rules;
leaving it, the rules are called first.  After the walk every rule is called once more.  A rule that
fails internally is not called again.

The walk keeps the stops that are still to be made on a stack (`walkOn`), so that deep trees do not
make it deep.

Main definitions:

- `ActiveRule`: a rule with its severity for this run.
- `ActiveRule.emit`, `ActiveRule.absorb`: what becomes of a finding and of a failure.
- `Running`: a rule with its state in this file, none once it is switched off.
- `HookCall`: one call of a rule, with what it was shown and what it answered.
- `WalkState`: the walk so far.
- `walk`: the violations of a file, in the order of their places, with counts and the calls made.
-/

namespace SdkLint

/-! ## Findings and failures become violations -/

/-- A rule together with the severity that its findings get. -/
structure ActiveRule where
  rule : Rule
  severity : Severity

/-- A rule at its own severity. -/
def Rule.active (rule : Rule) : ActiveRule :=
  { rule, severity := rule.severity }

/-- Where a finding about a file lies. -/
def Finding.location (finding : Finding) (file : FileContext) : Location where
  file := file.relativePath
  line := finding.position.line
  column := finding.position.column
  offset := finding.span.start
  length := finding.span.length

namespace ActiveRule

/-- The violation for a finding of a rule. -/
def reported (r : ActiveRule) (file : FileContext) (finding : Finding) : Violation where
  code := r.rule.code
  rule := r.rule.name
  severity := r.severity
  location := finding.location file
  message := finding.message
  suggestion := finding.help

/-- The violation for an allowed finding of a rule that demands a reason and is given none. -/
def missingReason (r : ActiveRule) (location : Location) : Violation where
  code := r.rule.code
  rule := r.rule.name
  severity := .warning
  location := location
  message := "Allow directive for '" ++ r.rule.name ++ "' is missing required reason"
  suggestion := some "Add reason=\"...\" to explain why this exception is necessary"

/-- What becomes of a finding: allowed ones are dropped, or reported for want of a reason. -/
def emit (r : ActiveRule) (file : FileContext) (finding : Finding) : Option Violation :=
  match Directive.check file.content.toList finding.position.line r.rule.name r.rule.code with
  | .allowed reason =>
    if r.rule.requiresReason && reason.isNone then some (r.missingReason (finding.location file))
    else none
  | .denied => some (r.reported file finding)

/-- What becomes of a failure at a place. -/
def absorb (r : ActiveRule) (file : FileContext) (position : Position) (failure : Failure) :
    Violation :=
  let (severity, message) := match failure with
    | .malformed _ => (Severity.info, " skipped a node: " ++ failure.message)
    | .internal _ =>
      (Severity.warning,
        " failed and was disabled for the rest of this file: " ++ failure.message)
  { code := r.rule.code
    rule := r.rule.name
    severity
    location := { file := file.relativePath, line := position.line, column := position.column }
    message := r.rule.name ++ message }

/-- The violations that a verdict of a rule about a node gives rise to: what becomes of its findings,
and then of its failure. -/
def violationsOf (r : ActiveRule) (file : FileContext) (t : Tree) (node : NodeId)
    (verdict : Verdict) : List Violation :=
  verdict.findings.filterMap (r.emit file) ++
    (verdict.failure.map (r.absorb file (t.position node))).toList

end ActiveRule

/-! ## Calls -/

/-- An occasion on which rules are called. -/
inductive Hook where
  | enter (node : NodeId)
  | leave (node : NodeId)
  | finish
deriving DecidableEq, Repr

/-- The node that an occasion is about; the end is about the root. -/
def Hook.node : Hook → NodeId
  | .enter i => i
  | .leave i => i
  | .finish => Tree.root

/-- The occasion that a stop of the walk is. -/
def Visit.hook : Visit → Hook
  | .enter i => .enter i
  | .leave i => .leave i

/-- What a check answers on an occasion, and its state afterwards. -/
def Check.respond (check : Check) (cx : Context) (state : check.State) :
    Hook → check.State × Verdict
  | .enter i => check.enter cx i state
  | .leave i => check.leave cx i state
  | .finish => check.finish cx state

/-- Whether a verdict switches its rule off for the rest of the file. -/
def Verdict.isFatal (verdict : Verdict) : Bool :=
  match verdict.failure with
  | some (.internal _) => true
  | _ => false

/-- A rule at work on a file. -/
structure Running where
  active : ActiveRule
  /-- The state of its check, none once the rule is switched off. -/
  state : Option active.rule.check.State

/-- A rule about to start on a file. -/
def ActiveRule.running (r : ActiveRule) : Running where
  active := r
  state := some r.rule.check.start

/-- Calls a rule on an occasion, unless it is switched off.  An internal failure switches it off. -/
def Running.call (cx : Context) (hook : Hook) (r : Running) : Option (Running × Verdict) :=
  r.state.map fun state =>
    let (next, verdict) := r.active.rule.check.respond cx state hook
    ({ r with state := if verdict.isFatal then none else some next }, verdict)

/-! ## The walk -/

/-- One call of a rule. -/
structure HookCall where
  /-- The place of the rule in the list of rules. -/
  rule : Nat
  hook : Hook
  /-- The scopes that the rule was shown. -/
  scopes : ScopeStack
  /-- What it answered. -/
  verdict : Verdict
deriving DecidableEq, Repr

/-- The number of open scopes at the time of a call. -/
def HookCall.depth (call : HookCall) : Nat :=
  call.scopes.depth

/-- The walk so far. -/
structure WalkState where
  scopes : ScopeStack := {}
  rules : List Running
  violations : Array Violation := #[]
  calls : Array HookCall := #[]
  entered : Nat := 0
  left : Nat := 0

/-- The things that stay the same during a walk. -/
structure WalkInput where
  file : FileContext
  tree : Tree
  resolver : TypeResolver

/-- What rules may look at, given the scopes. -/
def WalkInput.context (input : WalkInput) (scopes : ScopeStack) : Context where
  file := input.file
  tree := input.tree
  scopes := scopes
  resolver := input.resolver

namespace WalkState

/-- The walk before its first stop. -/
def start (rules : List ActiveRule) : WalkState :=
  { rules := rules.map ActiveRule.running }

/-- Calls the rule at a place of the list on an occasion, unless it is switched off. -/
def callRule (input : WalkInput) (hook : Hook) (s : WalkState) (place : Nat) : WalkState :=
  match s.rules[place]? with
  | none => s
  | some r =>
    match r.call (input.context s.scopes) hook with
    | none => s
    | some (next, verdict) =>
      { s with
        rules := s.rules.set place next
        violations :=
          s.violations ++ r.active.violationsOf input.file input.tree hook.node verdict
        calls := s.calls.push { rule := place, hook, scopes := s.scopes, verdict } }

/-- Calls the rules at some places of the list, one after the other. -/
def callRules (input : WalkInput) (hook : Hook) (places : List Nat) (s : WalkState) : WalkState :=
  places.foldl (callRule input hook) s

/-- Makes one stop of the walk. -/
def visit (input : WalkInput) (d : Dispatch) (s : WalkState) : Visit → WalkState
  | .enter i =>
    callRules input (.enter i) (d.subscribers (input.tree.kind i))
      { s with scopes := s.scopes.enter input.tree i, entered := s.entered + 1 }
  | .leave i =>
    let s := callRules input (.leave i) (d.subscribers (input.tree.kind i)) s
    { s with scopes := s.scopes.leave input.tree i, left := s.left + 1 }

end WalkState

/-- Makes the stops of an agenda from the first one on.  The stops that a stop brings about are made
before the rest of the agenda. -/
def walkOn (input : WalkInput) (d : Dispatch) (agenda : List Visit) (s : WalkState) : WalkState :=
  match agenda with
  | [] => s
  | v :: rest => walkOn input d (input.tree.following v ++ rest) (s.visit input d v)
termination_by (agenda.flatMap input.tree.stretch).length
decreasing_by
  have := input.tree.length_stretches_following v rest
  omega

/-- Numbers of nodes of a walk. -/
structure WalkStats where
  nodes : Nat
  entered : Nat
  left : Nat
deriving DecidableEq, Repr, Inhabited

/-- The outcome of the walk around one file. -/
structure FileReport where
  /-- The violations in the order of their places. -/
  violations : List Violation
  stats : WalkStats
  calls : List HookCall
deriving DecidableEq, Repr

/-- The table of the rules of a walk. -/
def dispatch (rules : List ActiveRule) : Dispatch :=
  .ofKinds (rules.map fun r => r.rule.kinds)

/-- The walk around a tree up to the end, before the violations are put in order. -/
def runWalk (rules : List ActiveRule) (input : WalkInput) : WalkState :=
  let walked := walkOn input (dispatch rules) [.enter Tree.root] (.start rules)
  walked.callRules input .finish (List.range rules.length)

/-- Walks around a tree once, with all rules starting afresh. -/
def walk (rules : List ActiveRule) (input : WalkInput) : FileReport :=
  let final := runWalk rules input
  { violations := Violation.sort final.violations.toList
    stats := { nodes := input.tree.size, entered := final.entered, left := final.left }
    calls := final.calls.toList }

end SdkLint
