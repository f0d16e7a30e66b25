import SdkLint.Rule.Basic
import SdkLint.Rules.Expression

/-!
# Fields that should be final

A field that is only written while the object is constructed should be declared final.

Candidates are the fields of classes and enums that are not final, transient or volatile and carry
no annotation by which a framework fills them.  Writes are assignments, increments and decrements in
methods and constructors; a write goes to a field of the innermost class for `this.x` and for `o.x`
with a local `o` of that class, and for a bare `x` that is no parameter or local to the innermost
class that has a candidate of that name.

The check keeps a frame of candidates for every type declaration that the walk is in, and the frames
of those it has left.  The findings are made at the end.
-/

namespace SdkLint.FinalFields

def name : String := "enforce-final-fields"

def code : String := "AP001"

/-- The options of the rule. -/
structure Options where
  /-- Annotations that exempt a field. -/
  exemptAnnotations : List String :=
    ["JsonProperty", "JsonSetter", "JsonAnySetter", "JsonAlias", "JacksonXmlProperty",
     "XmlElement", "XmlAttribute"]
  severity : Severity := .error
deriving DecidableEq, Repr, Inhabited

/-! ## Candidates and frames -/

/-- A field that might have to be final, with what is known about it so far. -/
structure Candidate where
  name : String
  /-- The identifier that names the field. -/
  anchor : NodeId
  initialized : Bool
  constructorWrite : Bool := false
  methodWrite : Bool := false
deriving DecidableEq, Repr, Inhabited

/-- The candidates of one type declaration. -/
structure Frame where
  owner : NodeId
  fields : List Candidate
deriving DecidableEq, Repr, Inhabited

/-- Whether a field declaration declares candidates. -/
def isCandidate (o : Options) (t : Tree) (field : NodeId) : Bool :=
  !(["final", "transient", "volatile"].any (t.hasModifier field)) &&
    !((t.annotations field).any fun a => (t.annotationName a).any o.exemptAnnotations.contains)

/-- The candidates of a type declaration. -/
def candidatesOf (o : Options) (t : Tree) (owner : NodeId) : List Candidate :=
  if t.kind owner == .classDef || t.kind owner == .enumDef then
    let fields := (t.members owner).filter fun m => t.kind m == .fieldDef && isCandidate o t m
    (fields.flatMap t.namedDeclarators).map fun (declarator, anchor, name) =>
      { name, anchor, initialized := (t.initializer declarator).isSome }
  else []

/-- Applies a change to the last element of a list that satisfies a test. -/
def modifyLast {α : Type} (p : α → Bool) (f : α → α) : List α → List α
  | [] => []
  | x :: xs =>
    if xs.any p then x :: modifyLast p f xs
    else if p x then f x :: xs
    else x :: xs

/-- Notes that a field is written in a callable of some sort. -/
def Candidate.written (kind : CallableKind) (c : Candidate) : Candidate :=
  match kind with
  | .constructor => { c with constructorWrite := true }
  | .method => { c with methodWrite := true }

/-- Whether a frame has a candidate of a name. -/
def Frame.has (frame : Frame) (name : String) : Bool :=
  frame.fields.any fun c => c.name == name

/-- Notes a write to the last candidate of a name. -/
def Frame.write (kind : CallableKind) (name : String) (frame : Frame) : Frame :=
  { frame with
    fields := modifyLast (fun c => c.name == name) (Candidate.written kind) frame.fields }

/-! ## Targets of writes -/

/-- How a write names a field. -/
inductive Target where
  /-- A field of the innermost class. -/
  | own (name : String)
  /-- A field of the innermost class that has a candidate of the name. -/
  | bare (name : String)
deriving DecidableEq, Repr

/-- Whether a name is a local that is declared before an offset with the innermost class as its
type. -/
def isOwnInstance (cx : Context) (name : String) (offset : Nat) : Bool :=
  match cx.scopes.localDeclaredBefore cx.tree name offset,
    cx.scopes.enclosingClass.bind cx.tree.name with
  | some decl, some owner => decl.typeName.any fun type => simpleName type == owner
  | _, _ => false

/-- The field that an assignment target names, if it may name one. -/
def resolveTarget (cx : Context) (i : NodeId) : Option Target :=
  let t := cx.tree
  match t.kind i, t.token i with
  | .ident, some name =>
    if !cx.scopes.isParameter t name && !cx.scopes.isLocal t name then some (.bare name) else none
  | .fieldAccess, some field =>
    (t.children i).head?.bind fun object =>
      if t.kind object == .thisRef then some (.own field)
      else if t.kind object == .ident then
        (t.token object).bind fun local_ =>
          if isOwnInstance cx local_ (t.span i).start then some (.own field) else none
      else none
  | _, _ => none

/-! ## The check -/

/-- The frames around the current place, innermost first, and those that are done with. -/
structure State where
  opened : List Frame := []
  closed : List Frame := []
deriving DecidableEq, Repr, Inhabited

/-- Notes a write in the first frame that has a candidate of the name. -/
def writeFirst (kind : CallableKind) (name : String) : List Frame → List Frame
  | [] => []
  | frame :: rest =>
    if frame.has name then frame.write kind name :: rest else frame :: writeFirst kind name rest

/-- Notes a write to a target in a callable of some sort. -/
def State.write (kind : CallableKind) (s : State) : Target → State
  | .own name =>
    match s.opened with
    | [] => s
    | frame :: rest => { s with opened := frame.write kind name :: rest }
  | .bare name => { s with opened := writeFirst kind name s.opened }

/-- Notes the write that an assignment, increment or decrement with some target makes. -/
def recordWrite (cx : Context) (target : NodeId) (s : State) : State :=
  match cx.scopes.enclosingCallable, resolveTarget cx target with
  | some (_, kind), some target => s.write kind target
  | _, _ => s

/-- Opens the frame of a type declaration, or notes a write. -/
def enter (o : Options) (cx : Context) (i : NodeId) (s : State) : State × Verdict :=
  let t := cx.tree
  match t.kind i with
  | .assign | .update =>
    match (t.operands i).head? with
    | some target => (recordWrite cx target s, .pass)
    | none => (s, .fail (.missing "write target" t i))
  | kind =>
    if kind.isTypeDeclaration then
      ({ s with opened := { owner := i, fields := candidatesOf o t i } :: s.opened }, .pass)
    else (s, .pass)

/-- Closes the frame of a type declaration, which has to be the innermost one. -/
def leave (cx : Context) (i : NodeId) (s : State) : State × Verdict :=
  if (cx.tree.kind i).isTypeDeclaration then
    let p := cx.tree.position i
    let failure := Failure.internal ("class frames out of sync at " ++ toString p.line ++ ":" ++
      toString p.column)
    match s.opened with
    | [] => (s, .fail failure)
    | frame :: rest =>
      if frame.owner == i then ({ opened := rest, closed := s.closed ++ [frame] }, .pass)
      else ({ s with opened := rest }, .fail failure)
  else (s, .pass)

/-- What there is to say about a candidate once all writes are known. -/
def judge (t : Tree) (c : Candidate) : Option Finding :=
  let help := some ("Declare '" ++ c.name ++ "' as final")
  if c.constructorWrite && !c.methodWrite then
    some (t.finding c.anchor
      ("Field '" ++ c.name ++ "' is only assigned in constructors and should be final") help)
  else if c.initialized && !c.constructorWrite && !c.methodWrite then
    some (t.finding c.anchor
      ("Field '" ++ c.name ++
        "' is initialized at its declaration and never reassigned; it should be final") help)
  else none

/-- Judges the candidates of all closed frames. -/
def finish (cx : Context) (s : State) : State × Verdict :=
  ({ s with closed := [] },
    .report ((s.closed.flatMap Frame.fields).filterMap (judge cx.tree)))

/-- The rule. -/
def rule (o : Options) : Rule where
  name := name
  code := code
  description := "Fields only assigned in constructors should be final"
  severity := o.severity
  kinds := [.classDef, .enumDef, .interfaceDef, .recordDef, .annotationTypeDef, .assign, .update]
  check := { State, start := {}, enter := enter o, leave, finish }

end SdkLint.FinalFields
