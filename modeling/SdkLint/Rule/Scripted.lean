import SdkLint.Rule.Walk

/-!
# Rules given as data

A scripted rule says in a list of actions what it does when it is called: on which occasion, at
which nodes, and whether it reports something or fails.  `Scripted.trace` tells the calls of a walk
in order, each with the number of calls that its rule has seen by then.
-/

namespace SdkLint.Scripted

/-- The sorts of occasions. -/
inductive Occasion where
  | enter
  | leave
  | finish
deriving DecidableEq, Repr, Inhabited

/-- What an action does. -/
inductive Deed where
  /-- Reports a message at the node. -/
  | report (message : String)
  /-- Reports a message with a hint at the node. -/
  | help (message hint : String)
  /-- Reports a message at a place of its own. -/
  | reportAt (position : Position) (span : Span) (message : String)
  /-- Fails for malformed input. -/
  | malformed (detail : String)
  /-- Fails internally. -/
  | internal (detail : String)
  /-- Fails for want of something below the node. -/
  | missing (what : String)
  /-- Reports the path of the file and whether it is a test. -/
  | path
  /-- Reports whether a type is known. -/
  | resolve (type : String)
deriving DecidableEq, Repr, Inhabited

/-- What a rule does on an occasion, at nodes of a kind and with a token if these are given. -/
structure Action where
  occasion : Occasion
  kind : Option NodeKind := none
  token : Option String := none
  deed : Deed
deriving DecidableEq, Repr, Inhabited

/-- Whether an action applies to a node on an occasion. -/
def Action.applies (a : Action) (t : Tree) (occasion : Occasion) (i : NodeId) : Bool :=
  a.occasion == occasion && a.kind.all (· == t.kind i) &&
    (a.token.isNone || a.token == t.token i)

/-- The outcome of a deed at a node. -/
def Deed.perform (cx : Context) (i : NodeId) : Deed → Verdict
  | .report message => .report [cx.tree.finding i message]
  | .help message hint => .report [cx.tree.finding i message (some hint)]
  | .reportAt position span message => .report [{ position, span, message }]
  | .malformed detail => .fail (.malformed detail)
  | .internal detail => .fail (.internal detail)
  | .missing what => .fail (.missing what cx.tree i)
  | .path => .report [cx.tree.finding i
      (cx.file.relativePath ++ " test=" ++ toString cx.file.isTest)]
  | .resolve type => .report [cx.tree.finding i
      (type ++ " known=" ++ toString (cx.resolver type).isSome)]

/-- Performs the actions that apply, in order, until one fails. -/
def perform (actions : List Action) (occasion : Occasion) (cx : Context) (i : NodeId) : Verdict :=
  (actions.filter fun a => a.applies cx.tree occasion i).foldl
    (fun verdict a => verdict.andThen (a.deed.perform cx i)) .pass

/-- The check that performs some actions. -/
def check (actions : List Action) : Check where
  State := Unit
  start := ()
  enter := fun cx i _ => ((), perform actions .enter cx i)
  leave := fun cx i _ => ((), perform actions .leave cx i)
  finish := fun cx _ => ((), perform actions .finish cx Tree.root)

/-- One line of a trace. -/
structure TraceEntry where
  code : String
  hook : Hook
  depth : Nat
  /-- The number of calls of the rule so far, this one included. -/
  count : Nat
deriving DecidableEq, Repr

/-- The calls of a walk, each with the number of calls of its rule up to it. -/
def trace (rules : List ActiveRule) (calls : List HookCall) : List TraceEntry :=
  let step (acc : List TraceEntry × List Nat) (call : HookCall) : List TraceEntry × List Nat :=
    let (entries, counts) := acc
    let count := counts.getD call.rule 0 + 1
    let code := (rules[call.rule]?.map fun r => r.rule.code).getD ""
    ({ code, hook := call.hook, depth := call.depth, count } :: entries,
      counts.set call.rule count)
  (calls.foldl step ([], rules.map fun _ => 0)).1.reverse

end SdkLint.Scripted
