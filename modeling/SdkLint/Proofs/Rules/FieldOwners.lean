import SdkLint.Proofs.Scope.Resolution
import SdkLint.Proofs.Tree.Building
import SdkLint.Proofs.Walk.Scopes
import SdkLint.Rules.ClientShape
import SdkLint.Rules.FinalFields
import SdkLint.Rules.ImmutableFields

/-!
# Whose field a field is

The scopes of a walk and the rule about final fields list the members of a type declaration from the
type declaration downwards.  The rules about immutable classes and about clients come to a field
first, and test whether it is a member of the innermost type declaration around it.  For a type
declaration with one body at most both take the same fields for its own.  The fields of an anonymous
class or of an enum constant belong to no type declaration in either way.

Main definition:

- `MembersAgree`: everything that reads the members of a type declaration in a walk reads the same.

Main results:

- Theorem `Tree.find?_ancestors_of_isMemberOf`: going up from a member by the test leads to its type
  declaration.
- Theorem `members_agree`: members agree for every type declaration with one body at most.
-/

namespace SdkLint

variable {t : Tree} {owner : NodeId}

/-! ## Scopes -/

/-- The scope of a type declaration begins with the fields that the test takes for its members, and
the components of a record. -/
theorem Tree.fieldSymbols_eq (howner : t.kind owner ≠ .classBody)
    (hbody : (t.childrenOf owner .classBody).length ≤ 1) :
    t.fieldSymbols owner =
      t.namedSymbols .field ((t.fieldsOf owner).flatMap fun m => t.childrenOf m .varDeclarator) ++
        t.namedSymbols .field (t.parameterNodes owner) := by
  rw [fieldSymbols, filter_members howner hbody]
  rfl

/-- Entering a type declaration opens a scope with its fields. -/
theorem ScopeStack.symbols_enter (s : ScopeStack)
    (howner : (t.kind owner).isTypeDeclaration = true) :
    (s.enter t owner).scopes.head?.map (fun scope => (scope.node, scope.symbols)) =
      some (owner, (t.fieldSymbols owner).reverse) := by
  have hkind : (t.kind owner).scopeKind? = some .typeDeclaration :=
    scopeKind?_eq_typeDeclaration.2 howner
  have hopens : (t.kind owner).opensScope = true := by
    rw [← NodeKind.isSome_scopeKind?, hkind]
    rfl
  have hown : t.declaredSymbols owner = t.fieldSymbols owner := by
    rw [(Tree.declaredSymbols_of_opensScope hopens).1, Tree.ownSymbols, if_pos howner]
  have hnode := congrArg Prod.fst
    (frame_foldl_declare (t.fieldSymbols owner) { kind := .typeDeclaration, node := owner })
  rw [scopes_enter, hkind, hown, scopes_declare rfl, List.head?_cons, Option.map_some,
    Scope.symbols_foldl_declare, List.append_nil]
  exact congrArg (fun node => some (node, _)) hnode

/-! ## Rules -/

namespace FinalFields

/-- The candidates that some fields declare. -/
def candidatesAmong (o : Options) (t : Tree) (fields : List NodeId) : List Candidate :=
  ((fields.filter (isCandidate o t)).flatMap t.namedDeclarators).map
    fun (declarator, anchor, name) =>
      { name, anchor, initialized := (t.initializer declarator).isSome }

/-- The frame of a type declaration has the candidates among the fields that the test takes for its
members. -/
theorem opened_enter (o : Options) (cx : Context) (s : State)
    (howner : (cx.tree.kind owner).isTypeDeclaration = true)
    (hbody : (cx.tree.childrenOf owner .classBody).length ≤ 1) :
    (enter o cx owner s).1.opened =
      { owner
        fields := if cx.tree.kind owner = .classDef ∨ cx.tree.kind owner = .enumDef then
          candidatesAmong o cx.tree (cx.tree.fieldsOf owner) else [] } :: s.opened := by
  have hfields : candidatesOf o cx.tree owner =
      if cx.tree.kind owner = .classDef ∨ cx.tree.kind owner = .enumDef then
        candidatesAmong o cx.tree (cx.tree.fieldsOf owner) else [] := by
    rw [candidatesOf, candidatesAmong, ← Tree.filter_members (Tree.kind_ne_classBody howner) hbody,
      List.filter_filter]
    simp only [Bool.or_eq_true, beq_iff_eq, Bool.and_comm]
  have hopened : (enter o cx owner s).1.opened =
      { owner, fields := candidatesOf o cx.tree owner } :: s.opened := by
    unfold enter
    cases hkind : cx.tree.kind owner <;> simp_all [NodeKind.isTypeDeclaration]
  rw [hopened, hfields]

end FinalFields

section Tests

variable {cx : Context} {field : NodeId}

/-- Whether the rule about immutable classes looks at the members of a type declaration. -/
def ImmutableFields.isMarked (o : Options) (t : Tree) (owner : NodeId) : Bool :=
  (t.kind owner == .classDef || t.kind owner == .enumDef || t.kind owner == .recordDef) &&
    (t.annotationNamed owner o.marker).isSome

theorem ImmutableFields.judge_of_enclosingClass (o : Options)
    (hkind : cx.tree.kind field = .fieldDef) (hclass : cx.scopes.enclosingClass = some owner) :
    judge o cx field =
      if cx.tree.isMemberOf field owner && isMarked o cx.tree owner then
        checkField o cx.tree field
      else .pass := by
  have hmarked : isMarkedMember o cx field =
      (cx.tree.isMemberOf field owner && isMarked o cx.tree owner) := by
    rw [isMarkedMember, hclass, Option.any_some, isMarked, Bool.and_right_comm, Bool.and_comm]
  rw [judge, hmarked, hkind]
  cases cx.tree.isMemberOf field owner && isMarked o cx.tree owner <;> rfl

/-- What the rule about clients answers about a member of a class. -/
def ClientShape.judgeMember (o : Options) (t : Tree) (owner member : NodeId) : Verdict :=
  match clientFlavor o t owner with
  | some isAsync => checkMember o t member isAsync
  | none => .pass

theorem ClientShape.judge_of_enclosingClass (o : Options)
    (hkind : cx.tree.kind field = .fieldDef) (hclass : cx.scopes.enclosingClass = some owner) :
    judge o cx field =
      if cx.tree.isMemberOf field owner && cx.tree.kind owner == .classDef then
        judgeMember o cx.tree owner field
      else .pass := by
  have hfield : (cx.tree.kind field == .classDef) = false := by
    rw [hkind]
    decide
  simp only [judge, hfield, hclass, Bool.false_eq_true, if_false, judgeMember]
  cases cx.tree.isMemberOf field owner with
  | false => simp
  | true =>
    cases howner : cx.tree.kind owner == .classDef with
    | false => simp [bne, howner]
    | true =>
      simp only [bne, howner, Bool.not_true, Bool.or_false, Bool.and_self, if_true]
      cases clientFlavor o cx.tree owner <;> rfl

end Tests

/-! ## Agreement -/

/-- Going up from a member by the test, the first node that is no class body is the type declaration
that it belongs to. -/
theorem Tree.find?_ancestors_of_isMemberOf {m : NodeId} (h : t.isMemberOf m owner = true)
    (howner : t.kind owner ≠ .classBody) :
    (t.ancestors m).find? (fun j => t.kind j != .classBody) = some owner := by
  obtain ⟨body, hup, hkind, howns | ⟨outer, houp, houter, howns⟩⟩ := (isMemberOf_iff howner).1 h
  · rw [ancestors_of_parent hup, lineage_of_parent howns, lineage]
    simp [hkind, howner]
  · rw [ancestors_of_parent hup, lineage_of_parent houp, lineage_of_parent howns, lineage]
    simp [hkind, houter, howner]

/-- Everything that reads the members of a type declaration in a walk reads the same. -/
structure MembersAgree (rules : List ActiveRule) (input : WalkInput) (owner : NodeId) : Prop where
  /-- The list and the test agree on everything but bodies. -/
  mem_iff : ∀ m, input.tree.kind m ≠ .classBody →
    (m ∈ input.tree.members owner ↔ input.tree.isMemberOf m owner = true)
  /-- Members are listed once, in the order of the tree. -/
  inOrder : (input.tree.members owner).Pairwise (· < ·)
  /-- The scope of the type declaration begins with the named declarators of the fields that the
  test takes for members, and the components of a record. -/
  declared : ∀ s : ScopeStack,
    (s.enter input.tree owner).scopes.head?.map (fun scope => (scope.node, scope.symbols)) =
      some (owner,
        (input.tree.namedSymbols .field ((input.tree.fieldsOf owner).flatMap fun m =>
            input.tree.childrenOf m .varDeclarator) ++
          input.tree.namedSymbols .field (input.tree.parameterNodes owner)).reverse)
  /-- The rule about final fields collects the candidates among these fields. -/
  collected : ∀ o scopes state,
    (FinalFields.enter o (input.context scopes) owner state).1.opened =
      { owner
        fields :=
          if input.tree.kind owner = .classDef ∨ input.tree.kind owner = .enumDef then
            FinalFields.candidatesAmong o input.tree (input.tree.fieldsOf owner)
          else [] } :: state.opened
  /-- Rules that come to a listed field are shown its type declaration as the innermost one. -/
  around : ∀ call ∈ (walk rules input).calls, ∀ field, call.hook = .enter field →
    input.tree.kind field = .fieldDef → field ∈ input.tree.members owner →
    call.scopes.enclosingClass = some owner
  /-- Of the fields around which it is the innermost type declaration, the rule about immutable
  classes looks at those that are listed. -/
  immutable : ∀ call ∈ (walk rules input).calls, ∀ field, call.hook = .enter field →
    input.tree.kind field = .fieldDef → call.scopes.enclosingClass = some owner → ∀ o,
    ImmutableFields.judge o (input.context call.scopes) field =
      if field ∈ input.tree.members owner ∧ ImmutableFields.isMarked o input.tree owner then
        ImmutableFields.checkField o input.tree field
      else .pass
  /-- So does the rule about clients. -/
  client : ∀ call ∈ (walk rules input).calls, ∀ field, call.hook = .enter field →
    input.tree.kind field = .fieldDef → call.scopes.enclosingClass = some owner → ∀ o,
    ClientShape.judge o (input.context call.scopes) field =
      if field ∈ input.tree.members owner ∧ input.tree.kind owner = .classDef then
        ClientShape.judgeMember o input.tree owner field
      else .pass
  /-- What stands in the body of an anonymous class or of an enum constant, or in a body inside such
  a body, is neither listed nor taken for a member. -/
  apart : ∀ m holder,
    (input.tree.ancestors m).find? (fun j => input.tree.kind j != .classBody) = some holder →
    (input.tree.kind holder).isTypeDeclaration = false →
    m ∉ input.tree.members owner ∧ input.tree.isMemberOf m owner = false

/-- Members agree for every type declaration with one body at most. -/
theorem members_agree (rules : List ActiveRule) (input : WalkInput) {owner : NodeId}
    (howner : (input.tree.kind owner).isTypeDeclaration = true)
    (hbody : (input.tree.childrenOf owner .classBody).length ≤ 1) :
    MembersAgree rules input owner := by
  have hne := Tree.kind_ne_classBody howner
  have hiff : ∀ m, input.tree.kind m ≠ .classBody →
      (m ∈ input.tree.members owner ↔ input.tree.isMemberOf m owner = true) :=
    fun m hm => Tree.mem_members_iff hne hbody hm
  have hfield : ∀ m, input.tree.kind m = .fieldDef →
      (m ∈ input.tree.members owner ↔ input.tree.isMemberOf m owner = true) :=
    fun m hm => hiff m (by rw [hm]; decide)
  refine
    { mem_iff := hiff
      inOrder := input.tree.pairwise_members owner
      declared := fun s => ?_
      collected := fun o scopes state => FinalFields.opened_enter o (input.context scopes) state
        howner hbody
      around := ?_
      immutable := ?_
      client := ?_
      apart := ?_ }
  · rw [s.symbols_enter howner, Tree.fieldSymbols_eq hne hbody]
  · intro call hcall field hhook hkind hmem
    have hshown := walk_shown rules input call hcall
    rw [hhook] at hshown
    rw [(ScopeStack.around_of_frames hshown).enclosingClass, ← List.head?_filter]
    exact Tree.head?_typesAround_of_mem_members hmem howner (by rw [hkind]; rfl)
  · intro call _ field _ hkind hclass o
    rw [ImmutableFields.judge_of_enclosingClass o hkind hclass]
    simp [WalkInput.context, hfield field hkind]
  · intro call _ field _ hkind hclass o
    rw [ClientShape.judge_of_enclosingClass o hkind hclass]
    simp [WalkInput.context, hfield field hkind]
  · intro m holder hholder htype
    have hother : some holder ≠ some owner := by
      intro heq
      rw [Option.some.inj heq, howner] at htype
      cases htype
    rw [← hholder] at hother
    refine ⟨fun hmem => hother (Tree.find?_ancestors_of_mem_members hmem hne), ?_⟩
    rw [Bool.eq_false_iff]
    exact fun hmember => hother (Tree.find?_ancestors_of_isMemberOf hmember hne)

/-- A marked enum with a field in its declaration section.  Its one constant and an anonymous class
in the initializer of the field have fields of their own. -/
def enumWithBodies : Outline :=
  let marked : Outline :=
    .sketch .modifiers none [.sketch .annotationUse (some "Immutable") []]
  let field (name : String) (initializer : List Outline) : Outline :=
    .sketch .fieldDef none [.sketch .varDeclarator none (.sketchName name :: initializer)]
  let constant : Outline :=
    .sketch .other none [.sketchName "A", .sketch .classBody none [field "y" []]]
  let creation : Outline := .sketch .creation none [.sketch .classBody none [field "z" []]]
  .sketch .enumDef none
    [marked, .sketchName "E",
      .sketch .classBody none [constant, .sketch .classBody none [field "x" [creation]]]]

def enumInput : WalkInput where
  file := .ofPath "E.java" "" ""
  tree := enumWithBodies.toTree ""
  resolver := fun _ => none

/-- The field of the declaration section is a member of the enum.  The field of the constant and the
one of the anonymous class are not. -/
theorem enumInput_membersAgree :
    (enumInput.tree.kind 0).isTypeDeclaration = true ∧
      (enumInput.tree.childrenOf 0 .classBody).length ≤ 1 ∧
      MembersAgree [(ImmutableFields.rule {}).active, (ClientShape.rule {}).active] enumInput 0 ∧
      enumInput.tree.members 0 = [5, 12] ∧ enumInput.tree.fieldsOf 0 = [12] ∧
      ((List.range enumInput.tree.size).filter fun i => enumInput.tree.kind i == .fieldDef) =
        [8, 12, 17] := by
  have htype : (enumInput.tree.kind 0).isTypeDeclaration = true := by decide +kernel
  have hbody : (enumInput.tree.childrenOf 0 .classBody).length ≤ 1 := by decide +kernel
  exact ⟨htype, hbody, members_agree _ enumInput htype hbody, by decide +kernel,
    by decide +kernel, by decide +kernel⟩

end SdkLint
