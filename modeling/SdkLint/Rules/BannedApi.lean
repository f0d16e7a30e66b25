import SdkLint.Rule.Basic

/-!
# Banned names

Imports, type references, qualified names, field accesses and calls that spell a banned name are
reported.  An entry covers the name itself and everything below it, segment by segment; an entry
that ends in `*` covers whatever begins with what stands before the star.  Calls are compared with
whole entries.
-/

namespace SdkLint.BannedApi

def name : String := "blacklisted-api"

def code : String := "AP008"

/-- The message unless the configuration has another. -/
def defaultMessage : String := "'\x7bname\x7d' is a blacklisted API and must not be used"

/-- The options of the rule. -/
structure Options where
  bannedNames : List String := []
  /-- The message, with a place for the entry. -/
  message : String := defaultMessage
  severity : Severity := .error
deriving DecidableEq, Repr, Inhabited

/-! ## Entries -/

/-- Whether a text is a name or lies below it: the name followed by nothing or by a dot. -/
def isAtOrBelow (entry text : List Char) : Bool :=
  match Text.dropPrefix? entry text with
  | some [] => true
  | some (c :: _) => c == '.'
  | none => false

/-- Whether an entry bans a text. -/
def covers (entry text : String) : Bool :=
  match Text.dropSuffix? ['*'] entry.toList with
  | some package => package.isPrefixOf text.toList
  | none => isAtOrBelow entry.toList text.toList

/-- A source text without blanks, up to its type arguments. -/
def normalized (text : String) : String :=
  String.ofList ((Text.squeeze text.toList).takeWhile (· != '<'))

/-- The first entry that covers a text. -/
def covering (o : Options) (text : String) : Option String :=
  o.bannedNames.find? fun entry => covers entry text

/-! ## The check -/

/-- The entry that a node offends against. -/
def hit (o : Options) (t : Tree) (i : NodeId) : Option String :=
  let parentKind := (t.parent i).map t.kind
  match t.kind i with
  | .importDecl => (t.token i).bind (covering o)
  | .typeName =>
    (t.token i).bind fun token =>
      let written := normalized token
      if written.toList.contains '.' then covering o written else none
  | .qualifiedName =>
    if parentKind == some .importDecl || parentKind == some .packageDecl then none
    else covering o (normalized (t.text i))
  | .fieldAccess =>
    if parentKind == some .fieldAccess then none else covering o (normalized (t.text i))
  | .methodCall =>
    match (t.children i).head?, t.token i with
    | some receiver, some called =>
      if t.kind receiver == .argumentList then none
      else if t.token receiver == some called && t.kind receiver == .ident then none
      else
        let target := normalized (t.text receiver) ++ "." ++ called
        o.bannedNames.find? fun entry => entry == target
    | _, _ => none
  | _ => none

/-- Reports a node that offends against an entry. -/
def judge (o : Options) (cx : Context) (i : NodeId) : Verdict :=
  if o.bannedNames.isEmpty then .pass
  else match hit o cx.tree i with
    | some entry => .report [cx.tree.finding i (Text.replace "\x7bname\x7d" entry o.message)]
    | none => .pass

/-- What is wrong with the options. -/
def problems (o : Options) : List String :=
  (if o.bannedNames.isEmpty then
    [name ++ ": option 'banned_names' is unset or empty; the rule has nothing to check"]
  else []) ++
  (if (Text.trim o.message).isEmpty then [name ++ ": option 'message' is empty"] else [])

/-- The rule. -/
def rule (o : Options) : Rule where
  name := name
  code := code
  description := "Forbids use of configured APIs"
  severity := o.severity
  kinds := [.importDecl, .typeName, .qualifiedName, .fieldAccess, .methodCall]
  problems := problems o
  check := .ofNodes (judge o)

end SdkLint.BannedApi
