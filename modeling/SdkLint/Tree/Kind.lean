/-!
# Kinds of syntax nodes

The closed set of Java constructs that the rules tell apart.  Everything else is `other`, and keeps
its children.  `NodeKind.name` is the spelling used in messages and listings.
-/

namespace SdkLint

/-- What a node of the syntax tree stands for. -/
inductive NodeKind where
  /-- The root of a source file. -/
  | compilationUnit
  /-- A package declaration. -/
  | packageDecl
  /-- An import declaration; the token is the imported name. -/
  | importDecl
  /-- A class declaration. -/
  | classDef
  /-- An interface declaration. -/
  | interfaceDef
  /-- An enum declaration. -/
  | enumDef
  /-- A record declaration. -/
  | recordDef
  /-- An annotation type declaration. -/
  | annotationTypeDef
  /-- The member list of a type declaration or an anonymous class. -/
  | classBody
  /-- The modifier list of a declaration. -/
  | modifiers
  /-- One modifier keyword; the token is the keyword. -/
  | modifier
  /-- An annotation; the token is its name as written. -/
  | annotationUse
  /-- A `key = value` entry of an annotation's argument list. -/
  | elementValuePair
  /-- A field declaration, with one or several declarators. -/
  | fieldDef
  /-- A method declaration. -/
  | methodDef
  /-- A constructor declaration. -/
  | ctorDef
  /-- A static initializer. -/
  | initializerBlock
  /-- A formal parameter list. -/
  | parameters
  /-- One formal parameter. -/
  | parameter
  /-- The parameter of a catch clause. -/
  | catchParam
  /-- A statement block, constructor bodies included. -/
  | block
  /-- A local variable declaration. -/
  | localVarDecl
  /-- A declared name with its optional initializer. -/
  | varDeclarator
  /-- The array dimensions attached to a declarator. -/
  | dimensions
  /-- A simple or compound assignment; the token is the operator. -/
  | assign
  /-- An increment or decrement; the token is the operator. -/
  | update
  /-- A throw statement. -/
  | throwStmt
  /-- A try statement, with or without resources. -/
  | tryStmt
  /-- A catch clause. -/
  | catchClause
  /-- An object creation. -/
  | creation
  /-- A method invocation; the token is the method's name. -/
  | methodCall
  /-- A field access; the token is the field's name. -/
  | fieldAccess
  /-- A bare identifier; the token is the name. -/
  | ident
  /-- The current object. -/
  | thisRef
  /-- A type reference; the token is the type as written. -/
  | typeName
  /-- A dotted name in package, import and annotation positions. -/
  | qualifiedName
  /-- A lambda expression. -/
  | lambda
  /-- A return statement. -/
  | returnStmt
  /-- An expression statement. -/
  | exprStmt
  /-- The arguments of a call or an annotation. -/
  | argumentList
  /-- A string literal or text block; the token includes the quotes. -/
  | stringLit
  /-- Any other literal; the token is its text. -/
  | literal
  /-- A line or block comment; the token is its text. -/
  | comment
  /-- An enhanced for loop. -/
  | forEach
  /-- Any construct without a kind of its own. -/
  | other
deriving DecidableEq, Repr, Inhabited

namespace NodeKind

/-- Every kind, in the order of declaration. -/
def all : List NodeKind :=
  [.compilationUnit, .packageDecl, .importDecl, .classDef, .interfaceDef, .enumDef,
   .recordDef, .annotationTypeDef, .classBody, .modifiers, .modifier, .annotationUse,
   .elementValuePair, .fieldDef, .methodDef, .ctorDef, .initializerBlock, .parameters,
   .parameter, .catchParam, .block, .localVarDecl, .varDeclarator, .dimensions, .assign,
   .update, .throwStmt, .tryStmt, .catchClause, .creation, .methodCall, .fieldAccess,
   .ident, .thisRef, .typeName, .qualifiedName, .lambda, .returnStmt, .exprStmt,
   .argumentList, .stringLit, .literal, .comment, .forEach, .other]

/-- The spelling of a kind in messages. -/
def name : NodeKind → String
  | .compilationUnit => "CompilationUnit"
  | .packageDecl => "PackageDecl"
  | .importDecl => "ImportDecl"
  | .classDef => "ClassDef"
  | .interfaceDef => "InterfaceDef"
  | .enumDef => "EnumDef"
  | .recordDef => "RecordDef"
  | .annotationTypeDef => "AnnotationTypeDef"
  | .classBody => "ClassBody"
  | .modifiers => "Modifiers"
  | .modifier => "Modifier"
  | .annotationUse => "Annotation"
  | .elementValuePair => "ElementValuePair"
  | .fieldDef => "FieldDef"
  | .methodDef => "MethodDef"
  | .ctorDef => "CtorDef"
  | .initializerBlock => "Initializer"
  | .parameters => "Parameters"
  | .parameter => "Parameter"
  | .catchParam => "CatchParam"
  | .block => "Block"
  | .localVarDecl => "LocalVarDecl"
  | .varDeclarator => "VarDeclarator"
  | .dimensions => "Dimensions"
  | .assign => "Assign"
  | .update => "Update"
  | .throwStmt => "Throw"
  | .tryStmt => "Try"
  | .catchClause => "Catch"
  | .creation => "New"
  | .methodCall => "MethodCall"
  | .fieldAccess => "FieldAccess"
  | .ident => "Ident"
  | .thisRef => "This"
  | .typeName => "TypeName"
  | .qualifiedName => "QualifiedName"
  | .lambda => "Lambda"
  | .returnStmt => "Return"
  | .exprStmt => "ExprStmt"
  | .argumentList => "ArgumentList"
  | .stringLit => "StringLit"
  | .literal => "Literal"
  | .comment => "Comment"
  | .forEach => "ForEach"
  | .other => "Other"

/-- The kind with a given spelling. -/
def ofName? (text : String) : Option NodeKind :=
  all.find? fun kind => kind.name == text

/-- Class-like declarations. -/
def isTypeDeclaration : NodeKind → Bool
  | .classDef | .interfaceDef | .enumDef | .recordDef | .annotationTypeDef => true
  | _ => false

/-- Methods and constructors. -/
def isCallable : NodeKind → Bool
  | .methodDef | .ctorDef => true
  | _ => false

/-- Kinds whose nodes open a lexical scope: the file, type declarations, callables and blocks. -/
def opensScope (kind : NodeKind) : Bool :=
  kind == .compilationUnit || kind == .block || kind.isTypeDeclaration || kind.isCallable

/-- No two kinds share a spelling, so `ofName?` reads back what `name` writes. -/
theorem ofName?_name (kind : NodeKind) : ofName? kind.name = some kind := by
  cases kind <;> decide

end NodeKind

end SdkLint
