import SdkLint.Text.Lines

/-!
# Allow directives

A comment that begins with `apilint: allow(…)` allows what the named rules would report on its own
line and on the line after it.  Rules are named by name or code, and `all` names every rule; a
reason may follow in quotes:

* `// apilint: allow(enforce-final-fields) reason="set by the test harness"`
* `/* apilint: allow(AP004, AP005) */`
-/

namespace SdkLint

/-- A directive as read from a line. -/
structure Directive where
  /-- The names and codes it lists, in order. -/
  rules : List String
  reason : Option String
deriving DecidableEq, Repr, Inhabited

/-- Whether a finding is allowed, and the reason that is given for it. -/
inductive Allowance where
  | denied
  | allowed (reason : Option String)
deriving DecidableEq, Repr, Inhabited

namespace Directive

open Text

/-- What follows the first comment opener of a line: `//` wherever it stands, or else `/*`. -/
def commentText? (line : List Char) : Option (List Char) :=
  match cutAt ['/', '/'] line with
  | some (_, after) => some after
  | none => (cutAt ['/', '*'] line).map Prod.snd

/-- A comment without its slashes and stars at the beginning and its end marker. -/
def stripComment (text : List Char) : List Char :=
  let inner := trimBoth (text.dropWhile fun c => c == '/' || c == '*')
  trimBoth ((dropSuffix? ['*', '/'] inner).getD inner)

/-- The quoted reason that follows a list of rules. -/
def reasonOf (rest : List Char) : Option String :=
  match dropPrefix? "reason=".toList (trimBoth rest) with
  | none => none
  | some value =>
    match trimBoth value with
    | '"' :: quoted =>
      if quoted.contains '"' then some (String.ofList (quoted.takeWhile (· != '"'))) else none
    | _ => none

/-- The rules that a list between parentheses names. -/
def rulesOf (list : List Char) : List String :=
  (((splitOn ',' list).map trimBoth).filter (!·.isEmpty)).map String.ofList

/-- The directive of a line, if its comment holds one that names a rule. -/
def parse (line : List Char) : Option Directive := do
  let comment := stripComment (← commentText? line)
  let directive := trimBoth (← dropPrefix? "apilint:".toList comment)
  let content ← dropPrefix? "allow(".toList directive
  if content.contains ')' then
    let list := content.takeWhile (· != ')')
    let rest := content.drop (list.length + 1)
    let rules := rulesOf list
    if rules.isEmpty then none else some { rules, reason := reasonOf rest }
  else none

/-- Whether a directive allows the rule with a name and code. -/
def covers (d : Directive) (name code : String) : Bool :=
  d.rules.contains "all" || d.rules.contains name || d.rules.contains code

/-- Whether a rule may report on a line (counted from one) of a text: the first directive that
covers the rule on the line before or on the line itself allows it. -/
def check (content : List Char) (line : Nat) (name code : String) : Allowance :=
  if line = 0 then .denied
  else
    let window := ((lines content).drop (line - 2)).take (line - (line - 2))
    let covering := window.findSome? fun text =>
      match parse text with
      | some d => if d.covers name code then some d else none
      | none => none
    match covering with
    | some d => .allowed d.reason
    | none => .denied

end Directive

end SdkLint
