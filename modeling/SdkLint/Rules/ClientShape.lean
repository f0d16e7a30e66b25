import SdkLint.Rule.Basic
import SdkLint.Rules.Expression

/-!
# The shape of service clients

A class that is marked as a service client is built through a builder, is named for being
synchronous or not, and keeps its fields final.  A method that is marked as a service operation
names the sort of its result, and returns the wrapper that the table of return types has for that
sort and for the flavor of the client.
-/

namespace SdkLint.ClientShape

def name : String := "service-client-shape"

def code : String := "AP003"

/-- The parameter type that carries the context of one call. -/
def contextType : String := "Context"

/-- The ending of the names of operations that return the response envelope. -/
def withResponse : String := "WithResponse"

/-! ## Return types -/

/-- The sorts of results of a service operation. -/
inductive ReturnKind where
  | single
  | collection
  | longRunning
deriving DecidableEq, Repr, Inhabited

namespace ReturnKind

def all : List ReturnKind :=
  [.single, .collection, .longRunning]

/-- The constant that names a sort in the source. -/
def constant : ReturnKind → String
  | .single => "SINGLE"
  | .collection => "COLLECTION"
  | .longRunning => "LONG_RUNNING_OPERATION"

/-- The sort that a constant names. -/
def ofConstant? (text : String) : Option ReturnKind :=
  all.find? fun kind => kind.constant == text

end ReturnKind

/-- The wrapper that each flavor of client returns for each sort of result. -/
structure ReturnTypes where
  asyncSingle : String := "Mono"
  syncSingle : String := "Response"
  asyncCollection : String := "PagedFlux"
  syncCollection : String := "PagedIterable"
  asyncLongRunning : String := "PollerFlux"
  syncLongRunning : String := "SyncPoller"
deriving DecidableEq, Repr, Inhabited

namespace ReturnTypes

/-- The expected wrapper. -/
def expected (table : ReturnTypes) (isAsync : Bool) : ReturnKind → String
  | .single => if isAsync then table.asyncSingle else table.syncSingle
  | .collection => if isAsync then table.asyncCollection else table.syncCollection
  | .longRunning => if isAsync then table.asyncLongRunning else table.syncLongRunning

/-- Whether a wrapper is one of asynchronous results. -/
def isAsyncWrapper (table : ReturnTypes) (wrapper : String) : Bool :=
  [table.asyncSingle, table.asyncCollection, table.asyncLongRunning, "Flux"].contains wrapper

/-- The table with one entry replaced; a key that names no entry changes nothing. -/
def set (table : ReturnTypes) (key value : String) : ReturnTypes :=
  match key with
  | "async_single" => { table with asyncSingle := value }
  | "sync_single" => { table with syncSingle := value }
  | "async_collection" => { table with asyncCollection := value }
  | "sync_collection" => { table with syncCollection := value }
  | "async_long_running" => { table with asyncLongRunning := value }
  | "sync_long_running" => { table with syncLongRunning := value }
  | _ => table

end ReturnTypes

/-- The options of the rule. -/
structure Options where
  /-- The annotation that marks clients. -/
  marker : String := "ServiceClient"
  /-- The annotation that marks operations. -/
  operationMarker : String := "ServiceMethod"
  syncSuffix : String := "Client"
  asyncSuffix : String := "AsyncClient"
  returnTypes : ReturnTypes := {}
  severity : Severity := .error
deriving DecidableEq, Repr, Inhabited

/-- Whether a class is a client, and then whether it is an asynchronous one. -/
def clientFlavor (o : Options) (t : Tree) (i : NodeId) : Option Bool :=
  (t.annotationNamed i o.marker).map fun marker =>
    (t.annotationValue marker "isAsync").any fun value => Text.trim (t.text value) == "true"

/-! ## Classes -/

/-- Reports a client whose name does not end as its flavor asks. -/
def checkClass (o : Options) (t : Tree) (i : NodeId) (isAsync : Bool) : Verdict :=
  .require (t.nameNode i) (.missing "class name" t i) fun anchor =>
    let name := (t.token anchor).getD ""
    let endsAsync := Text.endsWith o.asyncSuffix name
    if isAsync then
      if endsAsync then .pass
      else .report [t.finding anchor ("Asynchronous service client '" ++ name ++
        "' must be named with the '" ++ o.asyncSuffix ++ "' suffix")]
    else if endsAsync then
      .report [t.finding anchor ("Service client '" ++ name ++ "' ends with '" ++ o.asyncSuffix ++
        "' but is not marked isAsync = true")]
    else if Text.endsWith o.syncSuffix name then .pass
    else .report [t.finding anchor ("Synchronous service client '" ++ name ++
      "' must be named with the '" ++ o.syncSuffix ++ "' suffix")]

/-! ## Operations -/

/-- What stands between the first `<` and the last `>` of a type as written. -/
def typeArgument (written : String) : Option String :=
  let cs := written.toList
  let inner := (cs.dropWhile (· != '<')).drop 1
  if cs.contains '<' && inner.contains '>' then
    some (String.ofList (Text.trimBoth ((inner.reverse.dropWhile (· != '>')).drop 1).reverse))
  else none

/-- The first parameter that carries the context of a call. -/
def contextParameter (t : Tree) (method : NodeId) : Option NodeId :=
  (t.child method .parameters).bind fun list =>
    (t.childrenOf list .parameter).find? fun p =>
      (t.typeToken p).any fun type => simpleName type == contextType

/-- An operation of a client, as the checks of its return type see it. -/
structure Operation where
  isAsync : Bool
  method : NodeId
  /-- The identifier that names the method. -/
  anchor : NodeId
  name : String
  kind : ReturnKind
  returnType : NodeId
  /-- The return type as written. -/
  written : String
  /-- The simple name of the return type. -/
  wrapper : String
deriving DecidableEq, Repr

/-- Reports a return type that is not the expected one.  A synchronous operation with a single
result may return it plain. -/
def checkWrapper (o : Options) (t : Tree) (op : Operation) : List Finding :=
  let expected := o.returnTypes.expected op.isAsync op.kind
  if (!op.isAsync && op.kind == .single) || Text.startsWith expected op.wrapper then []
  else
    let flavor := if op.isAsync then "asynchronous" else "synchronous"
    [t.finding op.returnType (op.kind.constant ++ " " ++ flavor ++ " service method '" ++ op.name ++
      "' must return " ++ expected ++ ", found '" ++ op.written ++ "'")]

/-- Reports a name that does not tell whether the response envelope is returned. -/
def checkEnvelope (o : Options) (t : Tree) (op : Operation) : List Finding :=
  let envelope := o.returnTypes.syncSingle
  let returnsEnvelope := op.wrapper == envelope ||
    (op.wrapper == o.returnTypes.asyncSingle &&
      (typeArgument op.written).any fun inner => simpleName inner == envelope)
  let named := Text.endsWith withResponse op.name
  if named && !returnsEnvelope then
    [t.finding op.anchor ("Service method '" ++ op.name ++ "' is named '" ++ withResponse ++
      "' but does not return " ++ envelope)]
  else if !named && returnsEnvelope then
    [t.finding op.anchor ("Service method '" ++ op.name ++ "' returns " ++ envelope ++
      " and must be named with the '" ++ withResponse ++ "' suffix")]
  else []

/-- Reports a context parameter where none belongs, and a missing one. -/
def checkContext (o : Options) (t : Tree) (op : Operation) : List Finding :=
  let envelope := o.returnTypes.syncSingle
  match contextParameter t op.method with
  | some param =>
    if op.isAsync || o.returnTypes.isAsyncWrapper op.wrapper then
      [t.finding param ("Asynchronous service method '" ++ op.name ++ "' must not take a " ++
        contextType ++ " parameter")]
    else []
  | none =>
    if !op.isAsync && op.kind == .single && op.wrapper == envelope then
      [t.finding op.anchor ("Synchronous service method '" ++ op.name ++ "' returning " ++
        envelope ++ " must take a " ++ contextType ++ " parameter")]
    else []

/-- Checks a method with an operation marker. -/
def checkOperation (o : Options) (t : Tree) (isAsync : Bool) (method anchor marker : NodeId) :
    Verdict :=
  let name := (t.token anchor).getD ""
  let named : List Finding :=
    if Text.contains "Async" name then
      [t.finding anchor ("Service method '" ++ name ++ "' must not contain 'Async' in its name")]
    else []
  Verdict.andThen (.report named) <|
    .require (t.annotationValue marker "returns") (.missing "'returns' element" t marker)
      fun returns =>
        let constant := t.enumConstant returns
        let p := t.position returns
        let unknown := Failure.malformed ("unknown service method return kind '" ++ constant ++
          "' at " ++ toString p.line ++ ":" ++ toString p.column)
        .require (ReturnKind.ofConstant? constant) unknown fun kind =>
          .require (t.declaredType method) (.missing "return type" t method) fun returnType =>
            let written := (t.token returnType).getD ""
            let op : Operation :=
              { isAsync, method, anchor, name, kind, returnType, written
                wrapper := simpleName written }
            .report (checkWrapper o t op ++ checkEnvelope o t op ++ checkContext o t op)

/-! ## Members -/

/-- Checks a constructor, field or method of a client. -/
def checkMember (o : Options) (t : Tree) (i : NodeId) (isAsync : Bool) : Verdict :=
  match t.kind i with
  | .ctorDef =>
    if t.hasModifier i "public" || t.hasModifier i "protected" then
      .report [t.finding ((t.nameNode i).getD i)
        "Service client constructors must not be public or protected"
        (some
          "Make the constructor package-private and construct clients through the builder")]
    else .pass
  | .fieldDef =>
    if t.hasModifier i "static" || t.hasModifier i "final" then .pass
    else .report ((t.namedDeclarators i).map fun (_, anchor, name) =>
      t.finding anchor ("Instance field '" ++ name ++ "' of a service client must be final"))
  | .methodDef =>
    .require (t.nameNode i) (.missing "method name" t i) fun anchor =>
      let builder : List Finding :=
        if t.token anchor == some "builder" && t.hasModifier i "public" && t.hasModifier i "static"
        then [t.finding anchor "Service client must not expose a public static builder() method"
          (some "Create clients through a separate builder class")]
        else []
      Verdict.andThen (.report builder) <|
        match t.annotationNamed i o.operationMarker with
        | some marker => checkOperation o t isAsync i anchor marker
        | none => .pass
  | _ => .pass

/-- Checks a class, or a member of the innermost class. -/
def judge (o : Options) (cx : Context) (i : NodeId) : Verdict :=
  let t := cx.tree
  if t.kind i == .classDef then
    match clientFlavor o t i with
    | some isAsync => checkClass o t i isAsync
    | none => .pass
  else
    match cx.scopes.enclosingClass with
    | none => .pass
    | some owner =>
      if t.kind owner != .classDef || !t.isMemberOf i owner then .pass
      else match clientFlavor o t owner with
        | some isAsync => checkMember o t i isAsync
        | none => .pass

/-- The options that must not be empty and are. -/
def problems (o : Options) : List String :=
  ([("marker", o.marker), ("operation_marker", o.operationMarker), ("sync_suffix", o.syncSuffix),
    ("async_suffix", o.asyncSuffix)].filter fun (_, value) => (Text.trim value).isEmpty).map
    fun (key, _) => name ++ ": option '" ++ key ++ "' is empty"

/-- The rule. -/
def rule (o : Options) : Rule where
  name := name
  code := code
  description := "Service clients must follow the SDK client shape"
  severity := o.severity
  kinds := [.classDef, .ctorDef, .methodDef, .fieldDef]
  problems := problems o
  check := .ofNodes (judge o)

end SdkLint.ClientShape
