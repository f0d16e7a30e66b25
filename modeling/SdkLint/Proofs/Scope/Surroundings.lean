import Mathlib.Data.List.Basic
import SdkLint.Proofs.Tree.Members
import SdkLint.Scope.Stack

/-!
# Scopes around a node

The nodes above a node tell which scopes are open there.  A stack with exactly these scopes answers
every question about the surroundings from the tree alone.

Main definitions:

- `Tree.framesAlong`: the scopes that the nodes of a list open, without their symbols.
- `Tree.typesAround`, `Tree.callableAround`: the type declarations and the callable around a node.
- `ScopeStack.Around`: a stack that shows the surroundings of a node.

Main results:

- Theorems `frames_enter` and `frames_leave`: what entering and leaving a node does to the scopes.
- Theorem `around_of_frames`: a stack with the scopes of a node shows its surroundings.
- Theorem `Tree.head?_typesAround_of_mem_members`: around a member there is its type declaration.
-/

namespace SdkLint

/-- What is found first by a test that holds more often is found first. -/
theorem find?_of_imp {α : Type*} {p q : α → Bool} {l : List α} {a : α}
    (h : l.find? p = some a) (hq : q a = true) (himp : ∀ b, q b = true → p b = true) :
    l.find? q = some a := by
  obtain ⟨-, before, after, hl, hbefore⟩ := List.find?_eq_some_iff_append.1 h
  refine List.find?_eq_some_iff_append.2 ⟨hq, before, after, hl, fun b hb => ?_⟩
  cases hqb : q b with
  | false => rfl
  | true =>
      have hpb := hbefore b hb
      rw [himp b hqb] at hpb
      cases hpb

/-! ## Surroundings in the tree -/

/-- The sort of callable that a kind stands for. -/
def NodeKind.callableKind? : NodeKind → Option CallableKind
  | .methodDef => some .method
  | .ctorDef => some .constructor
  | _ => none

/-- Whether a search for a callable ends at a node of a kind: nothing outside a type declaration or
a file is seen from inside. -/
def NodeKind.endsCallableSearch (kind : NodeKind) : Bool :=
  kind.isTypeDeclaration || kind.isCallable || kind == .compilationUnit

/-- A scope without its symbols: the node that opened it and its sort. -/
abbrev Frame := NodeId × ScopeKind

namespace Tree

variable (t : Tree)

/-- The scope that a node opens, if it opens one. -/
def frame? (i : NodeId) : Option Frame :=
  (t.kind i).scopeKind?.map fun kind => (i, kind)

/-- The scopes that some nodes open, in their order. -/
def framesAlong (nodes : List NodeId) : List Frame :=
  nodes.filterMap t.frame?

/-- The type declarations around a node, which may be one itself, innermost first. -/
def typesAround (i : NodeId) : List NodeId :=
  (t.lineage i).filter fun j => (t.kind j).isTypeDeclaration

/-- The nearest of some nodes that is a type declaration, a callable or the file, if it is a
callable. -/
def callableIn (nodes : List NodeId) : Option (NodeId × CallableKind) :=
  (nodes.find? fun j => (t.kind j).endsCallableSearch).bind fun j =>
    (t.kind j).callableKind?.map fun kind => (j, kind)

/-- The callable around a node, which may be one itself. -/
def callableAround (i : NodeId) : Option (NodeId × CallableKind) :=
  t.callableIn (t.lineage i)

variable {t}

theorem framesAlong_cons (i : Nat) (nodes : List Nat) :
    t.framesAlong (i :: nodes) = (t.frame? i).toList ++ t.framesAlong nodes := by
  rw [framesAlong, List.filterMap_cons]
  cases t.frame? i <;> rfl

theorem isSome_frame? (i : Nat) : (t.frame? i).isSome = (t.kind i).opensScope := by
  rw [frame?, Option.isSome_map, NodeKind.isSome_scopeKind?]

theorem frame?_eq_some {i : Nat} {frame : Frame} :
    t.frame? i = some frame ↔ frame.1 = i ∧ (t.kind i).scopeKind? = some frame.2 := by
  rw [frame?, Option.map_eq_some_iff]
  constructor
  · rintro ⟨kind, hkind, rfl⟩
    exact ⟨rfl, hkind⟩
  · rintro ⟨rfl, hkind⟩
    exact ⟨frame.2, hkind, rfl⟩

/-- The nodes of the scopes are those that open one. -/
theorem map_fst_framesAlong (nodes : List Nat) :
    (t.framesAlong nodes).map Prod.fst = nodes.filter fun j => (t.kind j).opensScope := by
  induction nodes with
  | nil => rfl
  | cons i nodes ih =>
      rw [framesAlong_cons, List.map_append, ih, List.filter_cons, ← isSome_frame?]
      rcases hframe : t.frame? i with _ | frame
      · simp
      · simp [(frame?_eq_some.1 hframe).1]

/-- A callable that is found among some nodes is one of them. -/
theorem mem_of_callableIn {nodes : List Nat} {callable : Nat} {kind : CallableKind}
    (h : t.callableIn nodes = some (callable, kind)) : callable ∈ nodes := by
  obtain ⟨j, hfind, hj⟩ := Option.bind_eq_some_iff.1 h
  obtain ⟨_, -, heq⟩ := Option.map_eq_some_iff.1 hj
  rw [← (Prod.mk.inj heq).1]
  exact List.mem_of_find?_eq_some hfind

/-- The search for a callable around a node goes on above it, unless it ends there. -/
theorem callableAround_eq_of_not_ends {i : Nat} (h : (t.kind i).endsCallableSearch = false) :
    t.callableAround i = t.callableIn (t.ancestors i) := by
  rw [callableAround, lineage, callableIn, List.find?_cons, h]
  rfl

/-- Between a node and the callable around it there is no type declaration. -/
theorem head?_typesAround_of_callableAround {i callable : Nat} {kind : CallableKind}
    (h : t.callableAround i = some (callable, kind)) :
    (t.typesAround i).head? = (t.typesAround callable).head? := by
  obtain ⟨j, hfind, hj⟩ := Option.bind_eq_some_iff.1 h
  obtain ⟨_, -, heq⟩ := Option.map_eq_some_iff.1 hj
  obtain ⟨rfl, -⟩ := Prod.mk.inj heq
  obtain ⟨-, before, above, hlineage, hbefore⟩ := List.find?_eq_some_iff_append.1 hfind
  have hnone : (before.filter fun j => (t.kind j).isTypeDeclaration) = [] := by
    rw [List.filter_eq_nil_iff]
    intro k hk htype
    have hends := hbefore k hk
    simp [NodeKind.endsCallableSearch, htype] at hends
  rw [typesAround, typesAround, lineage_of_append hlineage, hlineage, List.filter_append, hnone,
    List.nil_append]

/-- A type declaration is no class body. -/
theorem kind_ne_classBody {owner : Nat} (howner : (t.kind owner).isTypeDeclaration = true) :
    t.kind owner ≠ .classBody := by
  intro hbody
  rw [hbody] at howner
  cases howner

/-- The innermost type declaration around a member is the one that it belongs to. -/
theorem head?_typesAround_of_mem_members {owner member : Nat} (h : member ∈ t.members owner)
    (howner : (t.kind owner).isTypeDeclaration = true)
    (hmember : (t.kind member).isTypeDeclaration = false) :
    (t.typesAround member).head? = some owner := by
  have hup := find?_ancestors_of_mem_members h (kind_ne_classBody howner)
  rw [typesAround, List.head?_filter, lineage, List.find?_cons, hmember]
  refine find?_of_imp hup howner fun j hj => ?_
  cases hkind : t.kind j <;> simp_all [NodeKind.isTypeDeclaration]

end Tree

/-! ## Following the walk -/

/-- A scope without its symbols. -/
def Scope.frame (scope : Scope) : Frame :=
  (scope.node, scope.kind)

namespace ScopeStack

variable {t : Tree} {s : ScopeStack}

/-- The open scopes without their symbols, innermost first. -/
def frames (s : ScopeStack) : List Frame :=
  s.scopes.map Scope.frame

theorem frame_foldl_declare (entries : List (String × Symbol)) (scope : Scope) :
    (entries.foldl Scope.declare scope).frame = scope.frame := by
  induction entries generalizing scope with
  | nil => rfl
  | cons entry entries ih => exact ih _

/-- Declarations open and close no scope. -/
@[simp]
theorem frames_declare (s : ScopeStack) (entries : List (String × Symbol)) :
    (s.declare entries).frames = s.frames := by
  unfold declare frames
  rcases hscopes : s.scopes with _ | ⟨top, rest⟩
  · simp [hscopes]
  · simp [frame_foldl_declare]

/-- Entering a node puts its scope on top, if it opens one. -/
theorem frames_enter (i : Nat) : (s.enter t i).frames = (t.frame? i).toList ++ s.frames := by
  unfold enter
  extract_lets opened declared
  have hopened : opened.frames = (t.frame? i).toList ++ s.frames := by
    unfold opened Tree.frame?
    cases (t.kind i).scopeKind? <;> rfl
  have hdeclared : declared.frames = (t.frame? i).toList ++ s.frames :=
    (frames_declare opened _).trans hopened
  -- Packages and imports are put down beside the scopes.
  split
  · exact hdeclared
  · split <;> exact hdeclared
  · exact hdeclared

/-- Leaving a node takes its scope away, if it is on top. -/
theorem frames_leave {i : Nat} {nodes : List Nat} (h : s.frames = t.framesAlong (i :: nodes)) :
    (s.leave t i).frames = t.framesAlong nodes := by
  rw [Tree.framesAlong_cons] at h
  unfold leave
  split
  · rename_i hopens
    rw [← Tree.isSome_frame?, Option.isSome_iff_exists] at hopens
    obtain ⟨frame, hframe⟩ := hopens
    rw [hframe] at h
    simpa [frames] using congrArg List.tail h
  · rename_i hopens
    rw [← Tree.isSome_frame?, Option.not_isSome_iff_eq_none] at hopens
    rwa [hopens] at h

/-! ## What a stack shows -/

theorem enclosingClasses_eq (s : ScopeStack) :
    s.enclosingClasses =
      (s.frames.filter fun frame => frame.2 == .typeDeclaration).map Prod.fst := by
  rw [enclosingClasses, frames, List.filter_map, List.map_map]
  rfl

theorem scopeKind?_eq_typeDeclaration {kind : NodeKind} :
    kind.scopeKind? = some .typeDeclaration ↔ kind.isTypeDeclaration = true := by
  cases kind <;> decide

/-- The type declarations on the stack are those around the node. -/
theorem enclosingClasses_of_frames {nodes : List Nat} (h : s.frames = t.framesAlong nodes) :
    s.enclosingClasses = nodes.filter fun j => (t.kind j).isTypeDeclaration := by
  rw [enclosingClasses_eq, h]
  clear h
  induction nodes with
  | nil => rfl
  | cons i nodes ih =>
      rw [Tree.framesAlong_cons, List.filter_append, List.map_append, ih, List.filter_cons]
      rcases hframe : t.frame? i with _ | frame
      · have hnone : (t.kind i).scopeKind? = none := by simpa [Tree.frame?] using hframe
        have hno : ¬ (t.kind i).isTypeDeclaration = true := by
          rw [← scopeKind?_eq_typeDeclaration, hnone]
          exact fun h => by cases h
        simp [hno]
      · obtain ⟨hi, hkind⟩ := Tree.frame?_eq_some.1 hframe
        have hiff : frame.2 = .typeDeclaration ↔ (t.kind i).isTypeDeclaration = true := by
          rw [← scopeKind?_eq_typeDeclaration, hkind, Option.some_inj]
        by_cases htype : frame.2 = .typeDeclaration
        · simp [htype, hiff.1 htype, hi]
        · have hno : ¬ (t.kind i).isTypeDeclaration = true := fun h => htype (hiff.2 h)
          simp [htype, hno]

theorem endsCallableSearch_eq (kind : NodeKind) :
    kind.endsCallableSearch = kind.scopeKind?.any (· != .block) := by
  cases kind <;> rfl

theorem callableKind?_of_scopeKind? {kind : NodeKind} {sort : ScopeKind}
    (h : kind.scopeKind? = some sort) (node : Nat) (rest : List Scope)
    (symbols : List (String × Symbol)) (hblock : sort ≠ .block) :
    callableAmong ({ kind := sort, node, symbols } :: rest) =
      kind.callableKind?.map fun sort => (node, sort) := by
  cases kind <;> cases h <;> first | rfl | exact absurd rfl hblock

/-- The callable on the stack is the one around the node. -/
theorem enclosingCallable_of_frames {nodes : List Nat} (h : s.frames = t.framesAlong nodes) :
    s.enclosingCallable = t.callableIn nodes := by
  unfold enclosingCallable frames at *
  generalize s.scopes = scopes at h
  induction nodes generalizing scopes with
  | nil =>
      have hnil : scopes = [] := by simpa [Tree.framesAlong] using h
      rw [hnil]
      rfl
  | cons i nodes ih =>
      rw [Tree.framesAlong_cons, Tree.frame?] at h
      rw [Tree.callableIn, List.find?_cons, endsCallableSearch_eq]
      cases hkind : (t.kind i).scopeKind? with
      | none =>
          rw [hkind] at h
          exact ih scopes h
      | some sort =>
          rw [hkind] at h
          obtain ⟨⟨kind, node, symbols⟩, rest, rfl, hscope, hrest⟩ := List.map_eq_cons_iff.1 h
          obtain ⟨rfl, rfl⟩ : node = i ∧ kind = sort := by simpa [Scope.frame] using hscope
          -- The search passes blocks and ends at every other scope.
          by_cases hblock : kind = .block
          · rw [hblock]
            exact ih rest hrest
          · have hends : (kind != .block) = true := by simpa using hblock
            rw [callableKind?_of_scopeKind? hkind node rest symbols hblock, Option.any_some, hends]
            rfl

/-- The nodes of the open scopes, innermost first. -/
theorem map_node_of_frames {nodes : List Nat} (h : s.frames = t.framesAlong nodes) :
    s.scopes.map Scope.node = nodes.filter fun j => (t.kind j).opensScope := by
  rw [← Tree.map_fst_framesAlong, ← h, frames, List.map_map]
  rfl

/-- A stack that shows the surroundings of a node. -/
structure Around (t : Tree) (i : Nat) (s : ScopeStack) : Prop where
  /-- The scopes are those of the node and the nodes above it, nearest first. -/
  nodes : s.scopes.map Scope.node = (t.lineage i).filter fun j => (t.kind j).opensScope
  /-- Every scope is of the sort that its node opens. -/
  kinds : ∀ scope ∈ s.scopes, (t.kind scope.node).scopeKind? = some scope.kind
  /-- The class is the nearest type declaration. -/
  enclosingClass :
    s.enclosingClass = (t.lineage i).find? fun j => (t.kind j).isTypeDeclaration
  /-- The callable is the nearest type declaration, callable or file, if it is a callable. -/
  enclosingCallable : s.enclosingCallable = t.callableAround i

/-- A stack with the scopes of a node shows its surroundings. -/
theorem around_of_frames {i : Nat} (h : s.frames = t.framesAlong (t.lineage i)) :
    s.Around t i where
  nodes := map_node_of_frames h
  kinds := by
    intro scope hscope
    have hmem : scope.frame ∈ t.framesAlong (t.lineage i) := h ▸ List.mem_map_of_mem hscope
    obtain ⟨j, -, hj⟩ := List.mem_filterMap.1 hmem
    obtain ⟨rfl, hkind⟩ := Tree.frame?_eq_some.1 hj
    exact hkind
  enclosingClass := by
    rw [ScopeStack.enclosingClass, enclosingClasses_of_frames h, List.head?_filter]
  enclosingCallable := enclosingCallable_of_frames h

end ScopeStack

end SdkLint
