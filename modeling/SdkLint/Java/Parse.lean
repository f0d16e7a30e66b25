import SdkLint.Files.Path
import SdkLint.Java.Concrete
import SdkLint.Tree.Builder

/-!
# From concrete trees to syntax trees

Constructs become nodes of the syntax tree with the kind that the rules know them by; keywords and
punctuation are dropped, except that modifier keywords become `modifier` leaves.  `Shape` says what
one concrete node contributes; a loop over an agenda of tasks takes a whole tree apart and drives the
builder.

Main definitions:

- `shapeOf`: what a node contributes, given the grammar's name of its parent.
- `buildOn`: the loop over the agenda.
- `convert`: the syntax tree of a concrete tree that has no errors.
- `parse`: the syntax tree of a text, or the place of its first syntax error.
-/

namespace SdkLint.Java

/-! ## What a node contributes -/

/-- What a concrete node contributes to the syntax tree. -/
inductive Shape where
  /-- Nothing, and nothing from below it either. -/
  | skip
  /-- One node without children. -/
  | leaf (kind : NodeKind) (token : String)
  /-- One node over what its children contribute. -/
  | interior (kind : NodeKind) (token : Option String)
deriving DecidableEq, Repr

/-- Constructs that keep their children and have no token. -/
def plainKinds : List (String × NodeKind) :=
  [("program", .compilationUnit), ("package_declaration", .packageDecl),
   ("class_declaration", .classDef), ("interface_declaration", .interfaceDef),
   ("enum_declaration", .enumDef), ("record_declaration", .recordDef),
   ("annotation_type_declaration", .annotationTypeDef), ("class_body", .classBody),
   ("interface_body", .classBody), ("enum_body", .classBody),
   ("enum_body_declarations", .classBody), ("annotation_type_body", .classBody),
   ("modifiers", .modifiers), ("annotation_argument_list", .argumentList),
   ("argument_list", .argumentList), ("element_value_pair", .elementValuePair),
   ("field_declaration", .fieldDef), ("constant_declaration", .fieldDef),
   ("method_declaration", .methodDef), ("constructor_declaration", .ctorDef),
   ("compact_constructor_declaration", .ctorDef), ("static_initializer", .initializerBlock),
   ("formal_parameters", .parameters), ("inferred_parameters", .parameters),
   ("formal_parameter", .parameter), ("spread_parameter", .parameter),
   ("receiver_parameter", .parameter), ("catch_formal_parameter", .catchParam),
   ("block", .block), ("constructor_body", .block),
   ("local_variable_declaration", .localVarDecl), ("variable_declarator", .varDeclarator),
   ("throw_statement", .throwStmt), ("try_statement", .tryStmt),
   ("try_with_resources_statement", .tryStmt), ("catch_clause", .catchClause),
   ("object_creation_expression", .creation), ("lambda_expression", .lambda),
   ("return_statement", .returnStmt), ("expression_statement", .exprStmt),
   ("enhanced_for_statement", .forEach)]

/-- Constructs that become a leaf whose token is their text. -/
def leafKinds : List (String × NodeKind) :=
  [("dimensions", .dimensions), ("identifier", .ident), ("this", .thisRef),
   ("type_identifier", .typeName), ("scoped_type_identifier", .typeName),
   ("generic_type", .typeName), ("array_type", .typeName), ("integral_type", .typeName),
   ("floating_point_type", .typeName), ("boolean_type", .typeName), ("void_type", .typeName),
   ("scoped_identifier", .qualifiedName), ("string_literal", .stringLit),
   ("text_block", .stringLit), ("decimal_integer_literal", .literal),
   ("hex_integer_literal", .literal), ("octal_integer_literal", .literal),
   ("binary_integer_literal", .literal), ("decimal_floating_point_literal", .literal),
   ("hex_floating_point_literal", .literal), ("character_literal", .literal),
   ("true", .literal), ("false", .literal), ("null_literal", .literal),
   ("line_comment", .comment), ("block_comment", .comment)]

/-- The name that an import declaration brings in, ending in `.*` for imports on demand. -/
def importTarget (c : Concrete) (source : String) : String :=
  let names := c.children.filter fun child =>
    child.info.kind == "scoped_identifier" || child.info.kind == "identifier"
  let target := match names.getLast? with
    | some child => child.info.text source
    | none => ""
  if c.children.any fun child => child.info.kind == "asterisk" then target ++ ".*" else target

/-- The operator of an increment or decrement. -/
def updateOperator (c : Concrete) : Option String :=
  (c.children.find? fun child =>
    !child.info.named && (child.info.kind == "++" || child.info.kind == "--")).map fun child =>
      child.info.kind

/-- The shape of a construct.  What has no kind of its own is `other`. -/
def namedShape (c : Concrete) (source : String) : Shape :=
  match c.info.kind with
  | "import_declaration" => .interior .importDecl (some (importTarget c source))
  | "marker_annotation" | "annotation" => .interior .annotationUse (c.fieldText "name" source)
  | "assignment_expression" => .interior .assign (c.fieldText "operator" source)
  | "update_expression" => .interior .update (updateOperator c)
  | "method_invocation" => .interior .methodCall (c.fieldText "name" source)
  | "field_access" => .interior .fieldAccess (c.fieldText "field" source)
  | kind =>
    match plainKinds.lookup kind, leafKinds.lookup kind with
    | some kind, _ => .interior kind none
    | none, some kind => .leaf kind (c.info.text source)
    | none, none => .interior .other none

/-- The shape of a keyword or punctuation: a modifier in a modifier list and in front of a static
initializer, nothing elsewhere. -/
def anonymousShape (parentKind : Option String) (keyword : String) : Shape :=
  if parentKind == some "modifiers" ||
      parentKind == some "static_initializer" && keyword == "static"
  then .leaf .modifier keyword
  else .skip

/-- What a node contributes, given the grammar's name of its parent. -/
def shapeOf (parentKind : Option String) (c : Concrete) (source : String) : Shape :=
  if c.info.named then namedShape c source else anonymousShape parentKind c.info.kind

/-! ## Building -/

/-- Something still to be done while a concrete tree is taken apart. -/
inductive Task where
  /-- To build what a concrete tree contributes, given the grammar's name of its parent. -/
  | build (parentKind : Option String) (c : Concrete)
  /-- To close the innermost open node. -/
  | close

/-- The number of tasks that a task brings about at most, itself included: every node of a concrete
tree is built and closed. -/
def Task.size : Task → Nat
  | .build _ c => 2 * c.size
  | .close => 1

/-- The number of tasks that an agenda brings about at most. -/
def agendaSize (agenda : List Task) : Nat :=
  agenda.foldr (fun task n => task.size + n) 0

theorem agendaSize_cons (task : Task) (rest : List Task) :
    agendaSize (task :: rest) = task.size + agendaSize rest :=
  rfl

/-- Replacing the task to build a construct by the tasks to build its children and to close it leaves
one task less. -/
theorem agendaSize_children (parentKind : Option String) (c : Concrete) (rest : List Task) :
    agendaSize (c.children.map (.build parentKind) ++ .close :: rest) + 1 =
      2 * c.size + agendaSize rest := by
  rw [c.size_eq]
  induction c.children with
  | nil =>
    rw [List.map_nil, List.nil_append, agendaSize_cons, Task.size, Concrete.sizes, List.foldr_nil]
    omega
  | cons child children ih =>
    rw [List.map_cons, List.cons_append, agendaSize_cons, Task.size, Concrete.sizes_cons]
    omega

/-- Opens a node for a construct. -/
def Concrete.openNode (c : Concrete) (kind : NodeKind) (token : Option String) (b : Builder) :
    Builder :=
  let opened := b.start kind c.info.span c.info.position
  match token with
  | some text => opened.token text
  | none => opened

/-- Does the tasks of an agenda from the first one on.  The tasks that a construct brings about are
done before the rest of the agenda, so that deep trees do not make it deep. -/
def buildOn (source : String) (agenda : List Task) (b : Builder) : Builder :=
  match agenda with
  | [] => b
  | .close :: rest => buildOn source rest b.close
  | .build parentKind c :: rest =>
    match shapeOf parentKind c source with
    | .skip => buildOn source rest b
    | .leaf kind token => buildOn source rest (b.leaf kind token c.info.span c.info.position)
    | .interior kind token =>
      buildOn source (c.children.map (.build (some c.info.kind)) ++ .close :: rest)
        (c.openNode kind token b)
termination_by agendaSize agenda
decreasing_by
  all_goals rw [agendaSize_cons, Task.size]
  · omega
  · have := c.size_eq
    omega
  · have := c.size_eq
    omega
  · have := agendaSize_children (some c.info.kind) c rest
    omega

/-- Why a text has no syntax tree. -/
inductive ParseError where
  /-- The text is no Java at the given place. -/
  | syntaxError (position : Position)
  /-- The building steps describe no tree. -/
  | build (error : BuildError)
deriving DecidableEq, Repr

/-- What a parse error says to the user. -/
def ParseError.message : ParseError → String
  | .syntaxError p => "syntax error at " ++ toString p.line ++ ":" ++ toString p.column
  | .build error => error.message

/-- The syntax tree of a concrete tree that has no errors. -/
def convert (root : Concrete) (source : String) : Except BuildError Tree :=
  (buildOn source [.build none root] .new).finish source

/-- The syntax tree of a source text, given its concrete tree. -/
def parse (root : Concrete) (source : String) : Except ParseError Tree :=
  if root.info.hasError then .error (.syntaxError root.errorPosition)
  else match convert root source with
    | .ok tree => .ok tree
    | .error error => .error (.build error)

/-! ## Files -/

/-- The name of the language. -/
def languageId : String :=
  "java"

/-- Extensions of the files that hold the language. -/
def extensions : List String :=
  [".java"]

/-- Whether a path leads to a file that holds the language, going by its extension. -/
def handles (path : String) : Bool :=
  (Path.extension? path).any fun e => extensions.contains ("." ++ e)

end SdkLint.Java
