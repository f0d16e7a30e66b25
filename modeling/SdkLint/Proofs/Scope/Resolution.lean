import SdkLint.Proofs.Scope.Surroundings

/-!
# What names stand for

The declarations of a tree are attached to the nodes that open scopes.  A type declaration has its
fields and a callable its parameters from the beginning; local declarations, catch parameters, loop
variables and imports are attached to the nearest node above them that opens a scope, when the walk
comes to them.  A name stands for the last declaration of it that is attached to the innermost scope
with one.  The tables on the stack of scopes hold just the declarations attached so far.

Main definitions:

- `Tree.scopeAbove`: the nearest node above a node that opens a scope.
- `Tree.attached`: the declarations attached to a node by those before a given one.
- `Tree.resolve`: what a name stands for at a node.
- `ScopeStack.Holds`: a stack whose tables hold the declarations attached so far.

Main results:

- Theorems `ScopeStack.Holds.enter` and `ScopeStack.Holds.leave`: entering and leaving a node keep
  the tables complete.
- Theorem `ScopeStack.Holds.lookup_eq`: on a complete stack a name is looked up by its attached
  declarations.
-/

namespace SdkLint

/-! ## Attached declarations -/

namespace Tree

variable (t : Tree)

/-- The nearest node above a node that opens a scope. -/
def scopeAbove (i : NodeId) : Option NodeId :=
  (t.ancestors i).find? fun j => (t.kind j).opensScope

/-- What a node that opens a scope has in it from the beginning: the fields of a type declaration in
the order of its members, followed by the components of a record, or the parameters of a callable. -/
def ownSymbols (i : NodeId) : List (String × Symbol) :=
  if (t.kind i).isTypeDeclaration then t.fieldSymbols i
  else if (t.kind i).isCallable then t.namedSymbols .parameter (t.parameterNodes i)
  else []

/-- What a node brings into the scope around it: all variables of a local declaration, a catch
parameter, a loop variable, or the simple name of an imported type. -/
def broughtSymbols (i : NodeId) : List (String × Symbol) :=
  match t.kind i with
  | .localVarDecl => t.namedSymbols .localVar (t.childrenOf i .varDeclarator)
  | .catchParam | .forEach => t.namedSymbols .localVar [i]
  | .importDecl => t.importSymbols i
  | _ => []

/-- The declarations attached to a node that opens a scope, in order: its own, and then what the nodes
numbered below `k` bring whose scope it is, each as `brought` says. -/
def attached (brought : NodeId → List (String × Symbol)) (k : Nat) (scope : NodeId) :
    List (String × Symbol) :=
  t.ownSymbols scope ++
    ((List.range k).filter fun i => t.scopeAbove i == some scope).flatMap brought

/-- The symbol of the last declaration of a name. -/
def lastDeclared (name : String) (entries : List (String × Symbol)) : Option Symbol :=
  (entries.filter fun entry => entry.1 == name).getLast?.map Prod.snd

/-- What a name stands for at a node: the last declaration of it that is attached, by the node or one
before it, to the innermost scope with such a declaration. -/
def resolve (brought : NodeId → List (String × Symbol)) (n : NodeId) (name : String) :
    Option Symbol :=
  ((t.lineage n).filter fun j => (t.kind j).opensScope).findSome? fun scope =>
    lastDeclared name (t.attached brought (n + 1) scope)

variable {t}

/-- The last declaration is the first one to be met from the end. -/
theorem lookup_reverse (name : String) (entries : List (String × Symbol)) :
    entries.reverse.lookup name = lastDeclared name entries := by
  rw [lastDeclared, ← List.head?_reverse, ← List.filter_reverse]
  induction entries.reverse with
  | nil => rfl
  | cons entry rest ih =>
    obtain ⟨declared, symbol⟩ := entry
    by_cases hname : declared = name
    · simp [hname]
    · have hother : (name == declared) = false := by
        simpa using fun h : name = declared => hname h.symm
      rw [List.lookup_cons, hother, List.filter_cons_of_neg (by simpa using hname)]
      exact ih

/-- A node attaches what it brings to the scope above it, and nothing to any other one. -/
theorem attached_succ (brought : NodeId → List (String × Symbol)) (k : Nat) (scope : NodeId) :
    t.attached brought (k + 1) scope =
      t.attached brought k scope ++ if t.scopeAbove k = some scope then brought k else [] := by
  rw [attached, attached, List.range_succ, List.filter_append, List.flatMap_append,
    List.append_assoc]
  by_cases hscope : t.scopeAbove k = some scope
  · simp [hscope]
  · simp [hscope]

/-- Nothing is brought into a scope before the node that opens it. -/
theorem attached_self (brought : NodeId → List (String × Symbol)) (i : NodeId) :
    t.attached brought (i + 1) i = t.ownSymbols i := by
  have hnone : ((List.range (i + 1)).filter fun j => t.scopeAbove j == some i) = [] := by
    rw [List.filter_eq_nil_iff]
    intro j hj hscope
    have hfound : t.scopeAbove j = some i := by simpa using hscope
    have hlt : i < j := lt_of_mem_ancestors (List.mem_of_find?_eq_some hfound)
    have hle : j < i + 1 := List.mem_range.1 hj
    exact Nat.lt_irrefl i (Nat.lt_of_lt_of_le hlt (Nat.le_of_lt_succ hle))
  rw [attached, hnone, List.flatMap_nil, List.append_nil]

/-- A node that opens a scope declares what is its own. -/
theorem declaredSymbols_of_opensScope {i : NodeId} (h : (t.kind i).opensScope = true) :
    t.declaredSymbols i = t.ownSymbols i ∧ t.broughtSymbols i = [] := by
  unfold declaredSymbols ownSymbols broughtSymbols
  cases hkind : t.kind i <;> simp_all [NodeKind.opensScope, NodeKind.isTypeDeclaration,
    NodeKind.isCallable]

/-- Any other node declares what it brings into the scope around it. -/
theorem declaredSymbols_of_not_opensScope {i : NodeId} (h : (t.kind i).opensScope = false) :
    t.declaredSymbols i = t.broughtSymbols i := by
  unfold declaredSymbols broughtSymbols
  cases hkind : t.kind i <;> simp_all [NodeKind.opensScope, NodeKind.isTypeDeclaration,
    NodeKind.isCallable]

end Tree

/-! ## Complete tables -/

/-- Declarations are put in front of those that a scope has already. -/
theorem Scope.symbols_foldl_declare (entries : List (String × Symbol)) (scope : Scope) :
    (entries.foldl Scope.declare scope).symbols = entries.reverse ++ scope.symbols := by
  induction entries generalizing scope with
  | nil => rfl
  | cons entry entries ih =>
    rw [List.foldl_cons, ih, List.reverse_cons, List.append_assoc]
    rfl

namespace ScopeStack

variable {t : Tree} {s : ScopeStack} {i k : Nat}

/-- The tables of a stack hold what the nodes numbered below `k` have attached to its scopes, the
latest declarations first. -/
def Holds (t : Tree) (k : Nat) (s : ScopeStack) : Prop :=
  ∀ scope ∈ s.scopes, scope.symbols = (t.attached t.broughtSymbols k scope.node).reverse

/-- Entering a node opens its scope, if it has one, and then puts down what it declares. -/
theorem scopes_enter (i : Nat) : (s.enter t i).scopes =
    (ScopeStack.declare
      (match (t.kind i).scopeKind? with
        | some kind => { s with scopes := { kind, node := i } :: s.scopes }
        | none => s)
      (t.declaredSymbols i)).scopes := by
  unfold enter
  extract_lets opened declared
  split
  · rfl
  · split <;> rfl
  · rfl

/-- Declarations go into the innermost scope. -/
theorem scopes_declare {top : Scope} {rest : List Scope} (h : s.scopes = top :: rest)
    (entries : List (String × Symbol)) :
    (s.declare entries).scopes = entries.foldl Scope.declare top :: rest := by
  rw [declare, h]

theorem scopes_declare_of_none (h : s.scopes = []) (entries : List (String × Symbol)) :
    (s.declare entries).scopes = [] := by
  rw [declare, h]
  exact h

/-- Entering a node attaches what it declares. -/
theorem Holds.enter (h : s.Holds t i) (hframes : s.frames = t.framesAlong (t.ancestors i)) :
    (s.enter t i).Holds t (i + 1) := by
  have hnodes := map_node_of_frames hframes
  unfold Holds
  rw [scopes_enter]
  rcases hopens : (t.kind i).opensScope with _ | _
  · -- What the node brings goes into the scope above it, which is on top.
    have hkind : (t.kind i).scopeKind? = none := by
      rw [← Option.not_isSome_iff_eq_none, NodeKind.isSome_scopeKind?, hopens]
      decide
    rw [hkind, Tree.declaredSymbols_of_not_opensScope hopens]
    rcases hscopes : s.scopes with _ | ⟨top, rest⟩
    · intro scope hscope
      rw [scopes_declare_of_none hscopes] at hscope
      cases hscope
    · rw [hscopes, List.map_cons] at hnodes
      have htop : t.scopeAbove i = some top.node := by
        rw [Tree.scopeAbove, ← List.head?_filter, ← hnodes, List.head?_cons]
      have hnodup : (top.node :: rest.map Scope.node).Nodup := by
        rw [hnodes]
        exact (List.nodup_cons.1 (t.nodup_lineage i)).2.filter _
      rw [scopes_declare hscopes]
      intro scope hscope
      rcases List.mem_cons.1 hscope with rfl | hscope
      · have hnode : ((t.broughtSymbols i).foldl Scope.declare top).node = top.node :=
          congrArg Prod.fst (frame_foldl_declare (t.broughtSymbols i) top)
        rw [Scope.symbols_foldl_declare, hnode, Tree.attached_succ, if_pos htop,
          List.reverse_append, h top (by simp [hscopes])]
      · have hne : t.scopeAbove i ≠ some scope.node := by
          rw [htop]
          intro heq
          apply (List.nodup_cons.1 hnodup).1
          rw [Option.some.inj heq]
          exact List.mem_map_of_mem hscope
        rw [Tree.attached_succ, if_neg hne, List.append_nil]
        exact h scope (by simp [hscopes, hscope])
  · -- The node has a scope of its own and brings nothing into the one above it.
    obtain ⟨hown, hbrought⟩ := Tree.declaredSymbols_of_opensScope hopens
    obtain ⟨kind, hkind⟩ : ∃ kind, (t.kind i).scopeKind? = some kind := by
      rw [← Option.isSome_iff_exists, NodeKind.isSome_scopeKind?, hopens]
    rw [hkind, hown, scopes_declare rfl]
    intro scope hscope
    rcases List.mem_cons.1 hscope with rfl | hscope
    · have hnode : ((t.ownSymbols i).foldl Scope.declare { kind, node := i }).node = i :=
        congrArg Prod.fst (frame_foldl_declare (t.ownSymbols i) { kind, node := i })
      rw [Scope.symbols_foldl_declare, hnode, Tree.attached_self, List.append_nil]
    · rw [Tree.attached_succ, hbrought, ite_self, List.append_nil]
      exact h scope hscope

/-- Leaving a node attaches nothing. -/
theorem Holds.leave (h : s.Holds t k) : (s.leave t i).Holds t k := by
  unfold ScopeStack.leave
  split
  · intro scope hscope
    exact h scope (List.mem_of_mem_tail hscope)
  · exact h

/-- With complete tables a name is looked up by the declarations attached to the open scopes. -/
theorem Holds.lookup_eq (h : s.Holds t k) (name : String) :
    s.lookup name = (s.scopes.map Scope.node).findSome? fun scope =>
      Tree.lastDeclared name (t.attached t.broughtSymbols k scope) := by
  rw [lookup, List.findSome?_map]
  unfold Holds at h
  generalize s.scopes = scopes at h
  induction scopes with
  | nil => rfl
  | cons top rest ih =>
    have htop : top.symbol? name =
        Tree.lastDeclared name (t.attached t.broughtSymbols k top.node) := by
      rw [Scope.symbol?, h top List.mem_cons_self, Tree.lookup_reverse]
    have hrest := ih fun scope hscope => h scope (List.mem_cons_of_mem _ hscope)
    rw [List.findSome?_cons, List.findSome?_cons, hrest, htop]
    rfl

end ScopeStack

end SdkLint
