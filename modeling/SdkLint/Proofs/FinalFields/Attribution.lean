import Mathlib.Data.List.Nodup
import SdkLint.Proofs.Scope.Surroundings
import SdkLint.Proofs.Tree.Members
import SdkLint.Proofs.Tree.Tour
import SdkLint.Rules.FinalFields

/-!
# Which field a write goes to

What the rule about final fields should find, as a function of the tree alone: the declarators that
are candidates, the declarator that a write is attributed to, and what there is to say about a
declarator given the writes attributed to it.

Main definitions:

- `IsCandidateDeclarator`, `declaratorsOf`, `candidateDeclarators`: the candidates, those of a type
  declaration and those of a tree.
- `attribution`: the declarator that a write goes to, and the sort of callable that it stands in.
- `expected`: the finding about a declarator.

Main results:

- Theorem `owner_unique`: a declarator belongs to one type declaration.
- Theorem `mem_lineage_of_attribution`: writes go to fields of the type declarations around them.
- Theorems `mem_candidateDeclarators` and `nodup_candidateDeclarators`: the candidates of a tree are
  listed once each.
-/

namespace SdkLint.FinalFields

/-! ## Candidates -/

/-- Whether a declarator has a name. -/
def isNamed (t : Tree) (d : NodeId) : Bool :=
  (t.name d).isSome && (t.nameNode d).isSome

/-- The candidates among the declarators of a type declaration. -/
def declaratorsOf (o : Options) (t : Tree) (owner : NodeId) : List NodeId :=
  if t.kind owner == .classDef || t.kind owner == .enumDef then
    let fields := (t.members owner).filter fun m => t.kind m == .fieldDef && isCandidate o t m
    fields.flatMap fun m => (t.childrenOf m .varDeclarator).filter (isNamed t)
  else []

/-- The candidates of a tree, in the order in which their type declarations end. -/
def candidateDeclarators (o : Options) (t : Tree) : List NodeId :=
  (t.leaving Tree.root).flatMap (declaratorsOf o t)

/-- A named declarator of a field that is a member of a class or an enum, is not final, transient or
volatile and carries no annotation that exempts it. -/
def IsCandidateDeclarator (o : Options) (t : Tree) (d : NodeId) : Prop :=
  ∃ owner field, (t.kind owner = .classDef ∨ t.kind owner = .enumDef) ∧
    field ∈ t.members owner ∧ t.kind field = .fieldDef ∧ isCandidate o t field = true ∧
    d ∈ t.children field ∧ isNamed t d = true ∧ t.kind d = .varDeclarator

/-! ## Writes -/

/-- The last candidate of a name of a type declaration. -/
def lastNamed (o : Options) (t : Tree) (name : String) (owner : NodeId) : Option NodeId :=
  ((declaratorsOf o t owner).filter fun d => t.name d == some name).getLast?

/-- Whether a callable has a parameter or a local of a name. -/
def declaresName (t : Tree) (callable : NodeId) (name : String) : Bool :=
  ((t.parameterNodes callable).filterMap t.name).contains name ||
    (t.localsBelow callable).any fun l => l.name == name

/-- Whether the last local of a name that a callable declares before an offset has a type
declaration as its type. -/
def isInstanceOf (t : Tree) (callable owner : NodeId) (name : String) (offset : Nat) : Bool :=
  match (t.localsBelow callable).reverse.find? fun l => l.name == name && l.offset < offset,
    t.name owner with
  | some decl, some owner => decl.typeName.any fun type => simpleName type == owner
  | _, _ => false

/-- The field that an assignment target inside a callable and a type declaration names, if it may
name one. -/
def targetOf (t : Tree) (callable : NodeId) (owner : Option NodeId) (i : NodeId) : Option Target :=
  match t.kind i, t.token i with
  | .ident, some name => if !declaresName t callable name then some (.bare name) else none
  | .fieldAccess, some field =>
    (t.children i).head?.bind fun object =>
      if t.kind object == .thisRef then some (.own field)
      else if t.kind object == .ident then
        (t.token object).bind fun instance_ =>
          if owner.any fun owner => isInstanceOf t callable owner instance_ (t.span i).start then
            some (.own field)
          else none
      else none
  | _, _ => none

/-- The candidate that a target means, given the type declarations around it, innermost first. -/
def Target.declarator (o : Options) (t : Tree) (owners : List NodeId) : Target → Option NodeId
  | .own name => owners.head?.bind (lastNamed o t name)
  | .bare name => owners.findSome? (lastNamed o t name)

/-- The candidate that a node writes, and the sort of callable that the write stands in. -/
def attribution (o : Options) (t : Tree) (w : NodeId) : Option (NodeId × CallableKind) :=
  if t.kind w == .assign || t.kind w == .update then
    match (t.operands w).head?, t.callableAround w with
    | some target, some (callable, kind) =>
      ((targetOf t callable (t.typesAround w).head? target).bind
        (Target.declarator o t (t.typesAround w))).map fun d => (d, kind)
    | _, _ => none
  else none

/-- The sort of callable that a node stands in, if it writes a declarator. -/
def sortAt (o : Options) (t : Tree) (d w : NodeId) : Option CallableKind :=
  match attribution o t w with
  | some (d', kind) => if d' = d then some kind else none
  | none => none

/-- The sorts of callables in which some nodes write a declarator. -/
def sortsAmong (o : Options) (t : Tree) (nodes : List NodeId) (d : NodeId) : List CallableKind :=
  nodes.filterMap (sortAt o t d)

/-- The finding about a candidate.  It should be final if it is written in constructors and not in
methods, or if it is initialized and never written. -/
def expected (o : Options) (t : Tree) (d : NodeId) : Option Finding :=
  let name := (t.name d).getD ""
  let anchor := (t.nameNode d).getD d
  let sorts := sortsAmong o t (List.range t.size) d
  let help := some ("Declare '" ++ name ++ "' as final")
  if .constructor ∈ sorts ∧ .method ∉ sorts then
    some (t.finding anchor
      ("Field '" ++ name ++ "' is only assigned in constructors and should be final") help)
  else if (t.initializer d).isSome ∧ sorts = [] then
    some (t.finding anchor
      ("Field '" ++ name ++
        "' is initialized at its declaration and never reassigned; it should be final") help)
  else none

variable {o : Options} {t : Tree}

/-! ## Candidates are listed once -/

theorem mem_declaratorsOf {owner d : Nat} :
    d ∈ declaratorsOf o t owner ↔
      (t.kind owner = .classDef ∨ t.kind owner = .enumDef) ∧
        ∃ field ∈ t.members owner, t.kind field = .fieldDef ∧ isCandidate o t field = true ∧
          d ∈ t.children field ∧ isNamed t d = true ∧ t.kind d = .varDeclarator := by
  unfold declaratorsOf
  by_cases howner : t.kind owner = .classDef ∨ t.kind owner = .enumDef
  · rw [if_pos (by simpa using howner)]
    simp [howner, Tree.childrenOf, and_assoc]
  · rw [if_neg (by simpa using howner)]
    simp [howner]

theorem isNamed_of_mem_declaratorsOf {owner d : Nat} (h : d ∈ declaratorsOf o t owner) :
    isNamed t d = true := by
  obtain ⟨-, field, -, -, -, -, hnamed, -⟩ := mem_declaratorsOf.1 h
  exact hnamed

/-- A declarator belongs to one type declaration. -/
theorem owner_unique {owner owner' d : Nat} (h : d ∈ declaratorsOf o t owner)
    (h' : d ∈ declaratorsOf o t owner') : owner = owner' := by
  obtain ⟨hkind, field, hfield, -, -, hd, -⟩ := mem_declaratorsOf.1 h
  obtain ⟨hkind', field', hfield', -, -, hd', -⟩ := mem_declaratorsOf.1 h'
  have hsame : field = field' :=
    Option.some.inj ((t.mem_children.1 hd).symm.trans (t.mem_children.1 hd'))
  have hfind := Tree.find?_ancestors_of_mem_members hfield (by rcases hkind with h | h <;> simp [h])
  have hfind' := Tree.find?_ancestors_of_mem_members hfield'
    (by rcases hkind' with h | h <;> simp [h])
  rw [hsame] at hfind
  exact Option.some.inj (hfind.symm.trans hfind')

theorem nodup_declaratorsOf (o : Options) (t : Tree) (owner : Nat) :
    (declaratorsOf o t owner).Nodup := by
  unfold declaratorsOf
  split
  · refine List.nodup_flatMap.2 ⟨fun m _ => ((t.nodup_children m).filter _).filter _, ?_⟩
    refine ((t.nodup_members owner).filter _).imp fun {m m'} hne d hd hd' => hne ?_
    have hup : ∀ m, d ∈ (t.childrenOf m .varDeclarator).filter (isNamed t) →
        t.parent d = some m := fun m hd =>
      t.mem_children.1 (List.mem_of_mem_filter (List.mem_of_mem_filter hd))
    exact Option.some.inj ((hup m hd).symm.trans (hup m' hd'))
  · exact List.nodup_nil

/-- The candidates of a tree are the declarators that should be. -/
theorem mem_candidateDeclarators {d : Nat} :
    d ∈ candidateDeclarators o t ↔ IsCandidateDeclarator o t d := by
  rw [candidateDeclarators, List.mem_flatMap]
  constructor
  · rintro ⟨owner, -, h⟩
    obtain ⟨hkind, field, hfield, hrest⟩ := mem_declaratorsOf.1 h
    exact ⟨owner, field, hkind, hfield, hrest⟩
  · rintro ⟨owner, field, hkind, hfield, hrest⟩
    refine ⟨owner, ?_, mem_declaratorsOf.2 ⟨hkind, field, hfield, hrest⟩⟩
    rw [Tree.mem_leaving_iff]
    exact Tree.root_mem_lineage (Tree.lt_size_of_kind (by rcases hkind with h | h <;> simp [h]))

/-- No candidate of a tree is listed twice. -/
theorem nodup_candidateDeclarators (o : Options) (t : Tree) :
    (candidateDeclarators o t).Nodup := by
  refine List.nodup_flatMap.2 ⟨fun owner _ => nodup_declaratorsOf o t owner, ?_⟩
  refine (t.nodup_leaving Tree.root).imp fun {owner owner'} hne d hd hd' => ?_
  exact hne (owner_unique hd hd')

/-! ## Writes stay inside the type declaration -/

theorem mem_of_lastNamed {name : String} {owner d : Nat} (h : lastNamed o t name owner = some d) :
    d ∈ declaratorsOf o t owner :=
  List.mem_of_mem_filter (List.mem_of_getLast? h)

theorem Target.mem_of_declarator {owners : List Nat} {target : Target} {d : Nat}
    (h : target.declarator o t owners = some d) :
    ∃ owner ∈ owners, d ∈ declaratorsOf o t owner := by
  cases target with
  | own name =>
      obtain ⟨owner, howner, hd⟩ := Option.bind_eq_some_iff.1 h
      exact ⟨owner, List.mem_of_head? howner, mem_of_lastNamed hd⟩
  | bare name =>
      obtain ⟨owner, howner, hd⟩ := List.exists_of_findSome?_eq_some h
      exact ⟨owner, howner, mem_of_lastNamed hd⟩

/-- Only assignments, increments and decrements write. -/
theorem kind_of_attribution {w : Nat} {written : NodeId × CallableKind}
    (h : attribution o t w = some written) : t.kind w = .assign ∨ t.kind w = .update := by
  unfold attribution at h
  split at h
  · rename_i hkind
    simpa using hkind
  · cases h

/-- Only nodes of the tree write. -/
theorem lt_size_of_write {w : Nat} (h : t.kind w = .assign ∨ t.kind w = .update) : w < t.size :=
  Tree.lt_size_of_kind (by rcases h with h | h <;> simp [h])

/-- Writes go to fields of the type declarations around them. -/
theorem mem_lineage_of_attribution {owner d w : Nat} {kind : CallableKind}
    (hd : d ∈ declaratorsOf o t owner) (h : attribution o t w = some (d, kind)) :
    owner ∈ t.lineage w := by
  unfold attribution at h
  split at h
  · split at h
    · obtain ⟨d', hd', heq⟩ := Option.map_eq_some_iff.1 h
      obtain ⟨rfl, -⟩ := Prod.mk.inj heq
      obtain ⟨target, -, htarget⟩ := Option.bind_eq_some_iff.1 hd'
      obtain ⟨owner', howner', hmem⟩ := Target.mem_of_declarator htarget
      rw [owner_unique hd hmem]
      exact List.mem_of_mem_filter howner'
    · cases h
  · cases h

end SdkLint.FinalFields
