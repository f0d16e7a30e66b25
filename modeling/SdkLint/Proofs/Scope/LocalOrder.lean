import SdkLint.Proofs.Tree.Building
import SdkLint.Scope.Stack

/-!
# The order of the locals of a callable

The locals of a callable are collected node by node in pre-order, and the names that one node
declares are collected together when the node is met.  A local that is declared further inside of
such a node, in an initializer say, therefore comes after all names of the node, also after those
that stand behind it in the text.  Apart from this the locals are collected in the order of their
offsets.

Main definitions:

- `Tree.StartsInOrder`: the nodes of a tree begin where those before them begin, or later.
- `Tree.NestedBefore`: a local that is declared inside of the declaration of another one and in front
  of it.
- `LocalsInOrder`: the order of the locals of a callable, and what it means for the search for the
  latest one.

Main results:

- Theorem `Tree.pairwise_localsBelow`: the declaring nodes of the locals are in pre-order, nested
  declarations apart.
- Theorem `locals_inOrder`: so are the offsets of the locals, and the latest declaration before an
  offset is found but for nested ones.
-/

namespace SdkLint

namespace Tree

variable {t : Tree}

/-! ## The locals of one node -/

/-- The locals that some nodes declare, with their names and types as given. -/
def localsNamed (t : Tree) (name type : NodeId → Option String) (nodes : List NodeId) :
    List LocalDecl :=
  nodes.filterMap fun d => (name d).map fun x => ⟨x, d, type d, (t.span d).start⟩

theorem of_mem_localsNamed {name type : NodeId → Option String} {nodes : List NodeId}
    {l : LocalDecl} (h : l ∈ t.localsNamed name type nodes) :
    l.decl ∈ nodes ∧ l.offset = (t.span l.decl).start := by
  obtain ⟨d, hd, hl⟩ := List.mem_filterMap.1 h
  obtain ⟨x, -, rfl⟩ := Option.map_eq_some_iff.1 hl
  exact ⟨hd, rfl⟩

theorem pairwise_localsNamed {name type : NodeId → Option String} {nodes : List NodeId}
    (h : nodes.Pairwise (· < ·)) :
    (t.localsNamed name type nodes).Pairwise fun l m => l.decl < m.decl := by
  refine List.pairwise_filterMap.2 (h.imp ?_)
  intro d e hde l hl m hm
  obtain ⟨x, -, rfl⟩ := Option.map_eq_some_iff.1 hl
  obtain ⟨y, -, rfl⟩ := Option.map_eq_some_iff.1 hm
  exact hde

/-- The parameters of a lambda expression stand in its subtree, in increasing order. -/
theorem lambdaLocals_eq_named (t : Tree) (i : Nat) : ∃ name type nodes,
    t.lambdaLocals i = t.localsNamed name type nodes ∧ nodes.Pairwise (· < ·) ∧
      ∀ d ∈ nodes, d ∈ t.subtree i := by
  unfold lambdaLocals
  extract_lets params
  refine ⟨fun p => if t.kind p == .ident then t.token p else t.name p, t.typeToken, params, rfl, ?_⟩
  unfold params
  rcases hchildren : t.children i with _ | ⟨first, others⟩
  · exact ⟨List.Pairwise.nil, by simp⟩
  · have hfirst : t.parent first = some i := t.mem_children.1 (by simp [hchildren])
    have hbelow : ∀ d ∈ t.children first, d ∈ t.subtree i := by
      intro d hd
      rw [mem_subtree_iff, lineage_of_child hd, lineage_of_parent hfirst]
      simp
    have hself : first ∈ t.subtree i := by
      rw [mem_subtree_iff, lineage_of_parent hfirst]
      simp
    dsimp only
    split
    · exact ⟨List.pairwise_singleton _ _, by simpa using hself⟩
    · exact ⟨(t.pairwise_children first).filter _, fun d hd => hbelow d (List.mem_of_mem_filter hd)⟩
    · exact ⟨(t.pairwise_children first).filter _, fun d hd => hbelow d (List.mem_of_mem_filter hd)⟩
    · exact ⟨List.Pairwise.nil, by simp⟩

/-- The locals of a node are declared by nodes of its subtree, in increasing order. -/
theorem localsAt_eq_named (t : Tree) (i : Nat) : ∃ name type nodes,
    t.localsAt i = t.localsNamed name type nodes ∧ nodes.Pairwise (· < ·) ∧
      ∀ d ∈ nodes, d ∈ t.subtree i := by
  unfold localsAt
  have hself : i ∈ t.subtree i := List.mem_cons_self
  split
  · -- The declarators of a local declaration are children of it.
    refine ⟨t.name, fun _ => t.typeToken i, _, rfl, (t.pairwise_children i).filter _, ?_⟩
    intro d hd
    rw [mem_subtree_iff, lineage_of_child (List.mem_of_mem_filter hd)]
    simp
  -- Catch parameters and loop variables are declared by the node itself.
  iterate 2
    refine ⟨t.name, fun _ => ((t.descendants i).find? fun c => t.kind c == .typeName).bind t.token,
      [i], ?_, List.pairwise_singleton _ _, by simpa using hself⟩
    rw [localsNamed, List.filterMap_cons, List.filterMap_nil]
    cases t.name i <;> rfl
  · exact t.lambdaLocals_eq_named i
  · exact ⟨t.name, t.token, [], rfl, List.Pairwise.nil, by simp⟩

/-- A local of a node is declared in its subtree, and has the offset of the declaring node. -/
theorem of_mem_localsAt {i : Nat} {l : LocalDecl} (h : l ∈ t.localsAt i) :
    l.decl ∈ t.subtree i ∧ l.offset = (t.span l.decl).start := by
  obtain ⟨name, type, nodes, heq, -, hbelow⟩ := t.localsAt_eq_named i
  rw [heq] at h
  obtain ⟨hdecl, hoffset⟩ := of_mem_localsNamed h
  exact ⟨hbelow _ hdecl, hoffset⟩

theorem pairwise_localsAt (t : Tree) (i : Nat) :
    (t.localsAt i).Pairwise fun l m => l.decl < m.decl := by
  obtain ⟨name, type, nodes, heq, hpairwise, -⟩ := t.localsAt_eq_named i
  rw [heq]
  exact pairwise_localsNamed hpairwise

/-! ## The locals below a node -/

/-- `t.NestedBefore m l`: the local `m` is declared further inside of a node that declares `l`, and
stands in front of it, as the parameter `m` does in `F f = m -> m, l = null`. -/
def NestedBefore (t : Tree) (m l : LocalDecl) : Prop :=
  ∃ outer inner, l ∈ t.localsAt outer ∧ m ∈ t.localsAt inner ∧
    inner ∈ t.descendants outer ∧ m.decl < l.decl

/-- The nodes that locals are looked for at lie below the node, in increasing order. -/
theorem visible_sublist (t : Tree) (i : Nat) :
    ((t.children i).flatMap (t.visibleFrom t.hidesLocals)).Sublist (t.descendants i) := by
  rw [descendants_eq]
  apply List.Sublist.flatMap_right
  intro c _
  exact t.visibleFrom_sublist t.hidesLocals c

/-- A local below a node is declared by a node of the tree, and has the offset of that node. -/
theorem of_mem_localsBelow {i : Nat} {l : LocalDecl} (h : l ∈ t.localsBelow i) :
    l.decl < t.size ∧ l.offset = (t.span l.decl).start := by
  rw [localsBelow_eq_visible, List.mem_flatMap] at h
  obtain ⟨j, hj, hl⟩ := h
  obtain ⟨hdecl, hoffset⟩ := of_mem_localsAt hl
  have hup : i ∈ t.ancestors j := mem_descendants_iff.1 ((t.visible_sublist i).subset hj)
  have hbelow : l.decl ∈ t.descendants i := by
    have hlineage : i ∈ t.lineage l.decl :=
      mem_lineage_trans (List.mem_cons_of_mem _ hup) (mem_subtree_iff.1 hdecl)
    have hlt : i < l.decl :=
      Nat.lt_of_lt_of_le (lt_of_mem_ancestors hup) (le_of_mem_lineage (mem_subtree_iff.1 hdecl))
    exact mem_descendants_iff.2 (mem_ancestors_of_lt hlineage hlt)
  exact ⟨lt_size_of_mem_descendants hbelow, hoffset⟩

/-- Of two locals the one collected first is declared first, unless the other one is nested. -/
theorem pairwise_localsBelow (t : Tree) (i : Nat) :
    (t.localsBelow i).Pairwise fun l m => l.decl ≤ m.decl ∨ t.NestedBefore m l := by
  rw [localsBelow_eq_visible, List.pairwise_flatMap]
  constructor
  · intro a _
    refine (t.pairwise_localsAt a).imp ?_
    intro l m hlm
    exact Or.inl (Nat.le_of_lt hlm)
  · have hincreasing : (t.descendants i).Pairwise (· < ·) :=
      (List.pairwise_cons.1 (t.pairwise_subtree i)).2
    refine (hincreasing.sublist (t.visible_sublist i)).imp ?_
    intro a b hab l hl m hm
    by_cases hnested : m.decl < l.decl
    · -- The later node lies between the earlier one and a node below that.
      have ha : a ∈ t.lineage l.decl := mem_subtree_iff.1 (of_mem_localsAt hl).1
      have hb : b ≤ m.decl := le_of_mem_lineage (mem_subtree_iff.1 (of_mem_localsAt hm).1)
      have hbl : b ≤ l.decl := Nat.le_trans hb (Nat.le_of_lt hnested)
      have habove : a ∈ t.ancestors b :=
        mem_ancestors_of_lt (mem_lineage_of_le ha (Nat.le_of_lt hab) hbl) hab
      exact Or.inr ⟨a, b, hl, hm, mem_descendants_iff.2 habove, hnested⟩
    · exact Or.inl (Nat.le_of_not_lt hnested)

/-! ## Offsets -/

/-- The nodes of a tree begin, in pre-order, where those before them begin or later. -/
def StartsInOrder (t : Tree) : Prop :=
  ∀ i, i + 1 < t.size → (t.span i).start ≤ (t.span (i + 1)).start

theorem StartsInOrder.start_le (h : t.StartsInOrder) {i j : Nat} (hij : i ≤ j)
    (hj : j < t.size) : (t.span i).start ≤ (t.span j).start := by
  induction j with
  | zero =>
      obtain rfl : i = 0 := by omega
      exact Nat.le_refl _
  | succ j ih =>
      by_cases hlast : i = j + 1
      · rw [hlast]
      · have hbefore := ih (by omega) (by omega)
        have hstep := h j hj
        omega

/-- Where nodes begin in order, locals are collected in the order of their offsets, nested ones
apart. -/
theorem StartsInOrder.pairwise_offset (h : t.StartsInOrder) (i : Nat) :
    (t.localsBelow i).Pairwise fun l m => l.offset ≤ m.offset ∨ t.NestedBefore m l := by
  refine (t.pairwise_localsBelow i).imp_of_mem ?_
  intro l m hl hm hlm
  rcases hlm with hle | hnested
  · obtain ⟨-, hoffset⟩ := of_mem_localsBelow hl
    obtain ⟨hsize, hoffset'⟩ := of_mem_localsBelow hm
    rw [hoffset, hoffset']
    exact Or.inl (h.start_le hle hsize)
  · exact Or.inr hnested

end Tree

/-! ## The locals of a callable -/

section Callable

variable (t : Tree) (s : ScopeStack)

/-- The order of the locals of the callable that a stack shows.  Nested declarations apart, they are
sorted by their offsets, and the latest one of a name before an offset is found. -/
structure LocalsInOrder : Prop where
  /-- Of two locals the one that is listed first has the smaller offset, or the same one, unless the
  other one is nested in its declaration. -/
  sorted : (s.callableLocals t).Pairwise fun l m => l.offset ≤ m.offset ∨ t.NestedBefore m l
  /-- The local that is found has the name and lies before the offset.  Any other local like this has
  no greater offset, unless the one that is found is nested in its declaration. -/
  latest : ∀ name offset l, s.localDeclaredBefore t name offset = some l →
    (l ∈ s.callableLocals t ∧ l.name = name ∧ l.offset < offset) ∧
      ∀ m ∈ s.callableLocals t, m.name = name → m.offset < offset →
        m.offset ≤ l.offset ∨ t.NestedBefore l m
  /-- Nothing is found only if there is no such local. -/
  none_iff : ∀ name offset, s.localDeclaredBefore t name offset = none ↔
    ¬ ∃ l ∈ s.callableLocals t, l.name = name ∧ l.offset < offset
  /-- Without nested declarations the locals are sorted by their offsets. -/
  sorted_of_plain : (∀ l ∈ s.callableLocals t, ∀ m ∈ s.callableLocals t, ¬ t.NestedBefore m l) →
    (s.callableLocals t).Pairwise fun l m => l.offset ≤ m.offset
  /-- Without nested declarations of the name, the local that is found has the greatest offset. -/
  latest_of_plain : ∀ name offset l, s.localDeclaredBefore t name offset = some l →
    (∀ m ∈ s.callableLocals t, m.name = name → ¬ t.NestedBefore l m) →
      ∀ m ∈ s.callableLocals t, m.name = name → m.offset < offset → m.offset ≤ l.offset

variable {t s}

theorem pairwise_callableLocals (h : t.StartsInOrder) :
    (s.callableLocals t).Pairwise fun l m => l.offset ≤ m.offset ∨ t.NestedBefore m l := by
  unfold ScopeStack.callableLocals
  split
  · exact h.pairwise_offset _
  · exact List.Pairwise.nil

/-- The local that is found is the last one of those that match. -/
theorem exists_split_of_localDeclaredBefore {name : String} {offset : Nat} {l : LocalDecl}
    (h : s.localDeclaredBefore t name offset = some l) :
    (l.name = name ∧ l.offset < offset) ∧ ∃ before after,
      s.callableLocals t = before ++ l :: after ∧
        ∀ m ∈ after, m.name = name → ¬ m.offset < offset := by
  rw [ScopeStack.localDeclaredBefore, List.find?_eq_some_iff_append] at h
  obtain ⟨hmatch, after, before, hsplit, hafter⟩ := h
  refine ⟨by simpa using hmatch, before.reverse, after.reverse, ?_, ?_⟩
  · have hreverse := congrArg List.reverse hsplit
    simpa using hreverse
  · intro m hm hname hoffset
    have hno := hafter m (by simpa using hm)
    simp [hname, hoffset] at hno

theorem localDeclaredBefore_eq_none_iff {name : String} {offset : Nat} :
    s.localDeclaredBefore t name offset = none ↔
      ¬ ∃ l ∈ s.callableLocals t, l.name = name ∧ l.offset < offset := by
  rw [ScopeStack.localDeclaredBefore, List.find?_eq_none]
  constructor
  · rintro hnone ⟨l, hl, hname, hoffset⟩
    have hno := hnone l (by simpa using hl)
    simp [hname, hoffset] at hno
  · intro hnone l hl hmatch
    refine hnone ⟨l, by simpa using hl, ?_⟩
    simpa using hmatch

/-- Where nodes begin in order, so do the locals of every callable, nested declarations apart. -/
theorem locals_inOrder (t : Tree) (s : ScopeStack) (starts : t.StartsInOrder) :
    LocalsInOrder t s := by
  have hsorted := pairwise_callableLocals (s := s) starts
  have hlatest : ∀ name offset l, s.localDeclaredBefore t name offset = some l →
      (l ∈ s.callableLocals t ∧ l.name = name ∧ l.offset < offset) ∧
        ∀ m ∈ s.callableLocals t, m.name = name → m.offset < offset →
          m.offset ≤ l.offset ∨ t.NestedBefore l m := by
    intro name offset l hfound
    obtain ⟨⟨hname, hoffset⟩, before, after, hsplit, hafter⟩ :=
      exists_split_of_localDeclaredBefore hfound
    rw [hsplit] at hsorted ⊢
    obtain ⟨-, -, hbefore⟩ := List.pairwise_append.1 hsorted
    refine ⟨⟨by simp, hname, hoffset⟩, ?_⟩
    intro m hm hmname hmoffset
    rcases List.mem_append.1 hm with hm | hm
    · exact hbefore m hm l List.mem_cons_self
    · rcases List.mem_cons.1 hm with rfl | hm
      · exact Or.inl (Nat.le_refl _)
      · exact absurd hmoffset (hafter m hm hmname)
  constructor
  case sorted => exact hsorted
  case latest => exact hlatest
  case none_iff => exact fun _ _ => localDeclaredBefore_eq_none_iff
  case sorted_of_plain =>
    intro hplain
    refine hsorted.imp_of_mem ?_
    intro l m hl hm hlm
    exact hlm.resolve_right (hplain l hl m hm)
  case latest_of_plain =>
    intro name offset l hfound hplain m hm hname hoffset
    exact ((hlatest name offset l hfound).2 m hm hname hoffset).resolve_right (hplain m hm hname)

end Callable

/-- The tree of `void m() { F f = x -> x, x = null; }`, where the variable `x` is declared behind a
parameter of the same name that is nested in the declaration. -/
def nestingTree : Tree :=
  let leaf (kind : NodeKind) (start stop : Nat) (token : String) : Outline :=
    .node kind ⟨start, stop⟩ ⟨1, start + 1⟩ (some token) []
  let inner (kind : NodeKind) (start stop : Nat) (below : List Outline) : Outline :=
    .node kind ⟨start, stop⟩ ⟨1, start + 1⟩ none below
  (inner .methodDef 0 36
    [leaf .typeName 0 4 "void", leaf .ident 5 6 "m", inner .parameters 6 8 [],
      inner .block 9 36
        [inner .localVarDecl 11 34
          [leaf .typeName 11 12 "F",
            inner .varDeclarator 13 23
              [leaf .ident 13 14 "f",
                inner .lambda 17 23 [leaf .ident 17 18 "x", leaf .ident 22 23 "x"]],
            inner .varDeclarator 25 33
              [leaf .ident 25 26 "x", leaf .literal 29 33 "null"]]]]).toTree
    "void m() { F f = x -> x, x = null; }"

/-- The parameter is collected after the variable, and found in its place. -/
theorem nestingTree_inOrder :
    nestingTree.StartsInOrder ∧
      (let inside := ({} : ScopeStack).enter nestingTree 0
      inside.callableLocals nestingTree =
          [⟨"f", 7, some "F", 13⟩, ⟨"x", 12, some "F", 25⟩, ⟨"x", 10, none, 17⟩] ∧
        inside.localDeclaredBefore nestingTree "x" 36 = some ⟨"x", 10, none, 17⟩ ∧
        LocalsInOrder nestingTree inside) := by
  have hall : ∀ i ∈ List.range nestingTree.size,
      i + 1 < nestingTree.size → (nestingTree.span i).start ≤ (nestingTree.span (i + 1)).start := by
    decide +kernel
  have hstarts : nestingTree.StartsInOrder := by
    intro i hi
    exact hall i (List.mem_range.2 (Nat.lt_of_succ_lt hi)) hi
  exact ⟨hstarts, by decide +kernel, by decide +kernel, locals_inOrder _ _ hstarts⟩

end SdkLint
