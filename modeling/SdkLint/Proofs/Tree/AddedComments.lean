import Mathlib.Data.List.Sort
import SdkLint.Proofs.Tree.Order
import SdkLint.Tree.Query

/-!
# Comments among the arguments of an annotation

Two trees that differ in comments: the second has all nodes of the first, in their order, and
besides them only comments that stand in the list of arguments of one annotation, or behind the key
of one of the `key = value` pairs in this list.  Apart from these comments every node has the same
children in both trees, so that what looks for a kind of node other than comments finds the same.

Main definitions:

- `Tree.argumentNodes`: the nodes of an annotation that comments may be added to.
- `Tree.CommentsAdded`: what it means that a tree is another one with such comments.

Main results:

- Theorem `Tree.CommentsAdded.filter_children`: a filter that no added comment passes lets the same
  children through.
- Theorem `Tree.CommentsAdded.head?_children`: a pair begins with the same node.
- Theorem `Tree.CommentsAdded.second_child_eq`: the node behind the key of a pair is the same unless
  a comment was added there.
- Theorem `Tree.CommentsAdded.annotationNamed_eq`: an annotation is found under the same names.
-/

namespace SdkLint.Tree

/-- The nodes of an annotation that comments may be added to: its list of arguments and the pairs in
this list. -/
def argumentNodes (t : Tree) (a : NodeId) : List NodeId :=
  (t.child a .argumentList).toList.flatMap fun args => args :: t.childrenOf args .elementValuePair

/-- Whether a number stands for a node of `t` under a renumbering. -/
def Keeps (t : Tree) (f : Nat → Nat) (j : Nat) : Prop :=
  ∃ i < t.size, f i = j

instance (t : Tree) (f : Nat → Nat) (j : Nat) : Decidable (t.Keeps f j) :=
  inferInstanceAs (Decidable (∃ i, i < t.size ∧ f i = j))

/-- `t'` is `t` with comments added among the arguments of the annotation `a`.  The nodes of `t` are
renumbered by `f`. -/
structure CommentsAdded (t t' : Tree) (a : Nat) (f : Nat → Nat) : Prop where
  annotation : t.kind a = .annotationUse
  lt_size : ∀ i < t.size, f i < t'.size
  inOrder : ∀ j < t.size, ∀ i < j, f i < f j
  kind : ∀ i < t.size, t'.kind (f i) = t.kind i
  token : ∀ i < t.size, t'.token (f i) = t.token i
  parent : ∀ i < t.size, t'.parent (f i) = (t.parent i).map f
  /-- In a pair, comments stand behind the key. -/
  added : ∀ j < t'.size, ¬ t.Keeps f j → t'.kind j = .comment ∧
    ∃ p ∈ t.argumentNodes a, t'.parent j = some (f p) ∧
      (t.kind p = .elementValuePair → ∃ k ∈ t.children p, f k < j)
  /-- A comment changes the text of those nodes only that it lies below. -/
  text : ∀ i < t.size, (∀ j < t'.size, ¬ t.Keeps f j → f i ∉ t'.ancestors j) →
    t'.text (f i) = t.text i

variable {t t' : Tree} {a : Nat} {f : Nat → Nat}

theorem mem_argumentNodes_iff {p : Nat} :
    p ∈ t.argumentNodes a ↔ ∃ args, t.child a .argumentList = some args ∧
      (p = args ∨ p ∈ t.children args ∧ t.kind p = .elementValuePair) := by
  simp [argumentNodes, childrenOf]

theorem mem_argumentNodes_iff_of_child {args p : Nat} (hargs : t.child a .argumentList = some args) :
    p ∈ t.argumentNodes a ↔
      p = args ∨ p ∈ t.children args ∧ t.kind p = .elementValuePair := by
  simp [mem_argumentNodes_iff, hargs]

theorem lt_size_of_mem_argumentNodes {p : Nat} (hp : p ∈ t.argumentNodes a) : p < t.size := by
  obtain ⟨args, hargs, rfl | ⟨hp, _⟩⟩ := mem_argumentNodes_iff.1 hp
  · exact t.lt_size_of_mem_children (List.mem_of_find?_eq_some hargs)
  · exact t.lt_size_of_mem_children hp

namespace CommentsAdded

/-! ## Renumbered nodes -/

theorem keeps {i : Nat} (hi : i < t.size) : t.Keeps f (f i) :=
  ⟨i, hi, rfl⟩

variable (h : t.CommentsAdded t' a f)
include h

theorem annotation_lt_size : a < t.size :=
  lt_size_of_kind (by simp [h.annotation])

theorem le_of_le {i j : Nat} (hij : i ≤ j) (hj : j < t.size) : f i ≤ f j := by
  rcases Nat.eq_or_lt_of_le hij with rfl | hlt
  · exact Nat.le_refl _
  · exact Nat.le_of_lt (h.inOrder j hj i hlt)

/-- No two nodes are given one number. -/
theorem inj {i j : Nat} (hi : i < t.size) (hj : j < t.size) (heq : f i = f j) : i = j := by
  rcases Nat.lt_trichotomy i j with hlt | hij | hlt
  · exact absurd heq (Nat.ne_of_lt (h.inOrder j hj i hlt))
  · exact hij
  · exact absurd heq.symm (Nat.ne_of_lt (h.inOrder i hi j hlt))

/-! ## Children -/

/-- Parents and children are the same ones. -/
theorem mem_children_iff {p c : Nat} (hp : p < t.size) (hc : c < t.size) :
    f c ∈ t'.children (f p) ↔ c ∈ t.children p := by
  rw [t'.mem_children, t.mem_children, h.parent c hc]
  constructor
  · intro hmap
    obtain ⟨q, hq, heq⟩ := Option.map_eq_some_iff.1 hmap
    have hlt : q < t.size := Nat.lt_trans (t.parent_lt hq) hc
    rw [hq, h.inj hlt hp heq]
  · intro hparent
    rw [hparent, Option.map_some]

/-- A filter that no added comment passes lets the same children through. -/
theorem filter_children {p : Nat} (hp : p < t.size) {q r : Nat → Bool}
    (hkept : ∀ c ∈ t.children p, r (f c) = q c)
    (hadded : ∀ c ∈ t'.children (f p), ¬ t.Keeps f c → r c = false) :
    (t'.children (f p)).filter r = ((t.children p).filter q).map f := by
  have hleft : ((t'.children (f p)).filter r).Pairwise (· < ·) :=
    (t'.pairwise_children (f p)).filter r
  have hright : (((t.children p).filter q).map f).Pairwise (· < ·) := by
    refine List.pairwise_map.2 (((t.pairwise_children p).filter q).imp_of_mem ?_)
    intro c d _ hd hcd
    exact h.inOrder d (t.lt_size_of_mem_children (List.mem_of_mem_filter hd)) c hcd
  refine hleft.eq_of_mem_iff hright fun j => ?_
  rw [List.mem_filter, List.mem_map]
  constructor
  · rintro ⟨hj, hpasses⟩
    by_cases hkeeps : t.Keeps f j
    · obtain ⟨c, hc, rfl⟩ := hkeeps
      have hmem := (h.mem_children_iff hp hc).1 hj
      exact ⟨c, List.mem_filter.2 ⟨hmem, (hkept c hmem).symm.trans hpasses⟩, rfl⟩
    · rw [hadded j hj hkeeps] at hpasses
      cases hpasses
  · rintro ⟨c, hc, rfl⟩
    obtain ⟨hmem, hpasses⟩ := List.mem_filter.1 hc
    exact ⟨(h.mem_children_iff hp (t.lt_size_of_mem_children hmem)).2 hmem,
      (hkept c hmem).trans hpasses⟩

/-- A search that passes over added comments finds the same child. -/
theorem find?_children {p : Nat} (hp : p < t.size) {q r : Nat → Bool}
    (hkept : ∀ c ∈ t.children p, r (f c) = q c)
    (hadded : ∀ c ∈ t'.children (f p), ¬ t.Keeps f c → r c = false) :
    (t'.children (f p)).find? r = ((t.children p).find? q).map f := by
  rw [← List.head?_filter, h.filter_children hp hkept hadded, List.head?_map, List.head?_filter]

theorem kind_of_added {p c : Nat} (hc : c ∈ t'.children p) (hnot : ¬ t.Keeps f c) :
    t'.kind c = .comment :=
  (h.added c (t'.lt_size_of_mem_children hc) hnot).1

/-- What an added child says about its parent. -/
theorem of_added {p c : Nat} (hp : p < t.size) (hc : c ∈ t'.children (f p))
    (hnot : ¬ t.Keeps f c) :
    p ∈ t.argumentNodes a ∧ (t.kind p = .elementValuePair → ∃ k ∈ t.children p, f k < c) := by
  obtain ⟨_, q, hq, hparent, hbehind⟩ := h.added c (t'.lt_size_of_mem_children hc) hnot
  have heq : f p = f q := Option.some.inj ((t'.mem_children.1 hc).symm.trans hparent)
  have hpq : p = q := h.inj hp (lt_size_of_mem_argumentNodes hq) heq
  rw [hpq]
  exact ⟨hq, hbehind⟩

/-- In a pair nothing stands before the key. -/
theorem le_of_mem_children {p k c : Nat} {rest : List Nat} (hpair : t.kind p = .elementValuePair)
    (hchildren : t.children p = k :: rest) (hc : c ∈ t'.children (f p)) : f k ≤ c := by
  have hp : p < t.size := lt_size_of_kind (by simp [hpair])
  have hfirst : ∀ d ∈ t.children p, f k ≤ f d := by
    intro d hd
    have hsorted := t.pairwise_children p
    rw [hchildren] at hsorted hd
    have hlt : d < t.size := t.lt_size_of_mem_children (hchildren ▸ hd)
    rcases List.mem_cons.1 hd with rfl | hd
    · exact Nat.le_refl _
    · exact h.le_of_le (Nat.le_of_lt ((List.pairwise_cons.1 hsorted).1 d hd)) hlt
  by_cases hkeeps : t.Keeps f c
  · obtain ⟨d, hd, rfl⟩ := hkeeps
    exact hfirst d ((h.mem_children_iff hp hd).1 hc)
  · obtain ⟨d, hd, hlt⟩ := (h.of_added hp hc hkeeps).2 hpair
    exact Nat.le_of_lt (Nat.lt_of_le_of_lt (hfirst d hd) hlt)

/-- A pair begins with the same node. -/
theorem head?_children {p : Nat} (hpair : t.kind p = .elementValuePair) :
    (t'.children (f p)).head? = (t.children p).head?.map f := by
  have hp : p < t.size := lt_size_of_kind (by simp [hpair])
  rcases hchildren : t.children p with _ | ⟨k, rest⟩
  · -- Comments are added behind a key only, and there is none.
    have hnil : t'.children (f p) = [] := by
      refine List.eq_nil_iff_forall_not_mem.2 fun c hc => ?_
      by_cases hkeeps : t.Keeps f c
      · obtain ⟨d, hd, rfl⟩ := hkeeps
        have hmem := (h.mem_children_iff hp hd).1 hc
        rw [hchildren] at hmem
        cases hmem
      · obtain ⟨d, hd, _⟩ := (h.of_added hp hc hkeeps).2 hpair
        rw [hchildren] at hd
        cases hd
    rw [hnil]
    rfl
  · have hk : k ∈ t.children p := by simp [hchildren]
    have hmem : f k ∈ t'.children (f p) :=
      (h.mem_children_iff hp (t.lt_size_of_mem_children hk)).2 hk
    have hsorted := t'.pairwise_children (f p)
    rcases hchildren' : t'.children (f p) with _ | ⟨c, rest'⟩
    · rw [hchildren'] at hmem
      cases hmem
    · have hle : f k ≤ c := h.le_of_mem_children hpair hchildren (by simp [hchildren'])
      rw [hchildren'] at hmem hsorted
      rcases List.mem_cons.1 hmem with hfirst | hlater
      · rw [List.head?_cons, List.head?_cons, Option.map_some, hfirst]
      · have hlt : c < f k := (List.pairwise_cons.1 hsorted).1 (f k) hlater
        exact absurd hle (Nat.not_le_of_lt hlt)

/-- Behind the key of a pair, the nodes that are no added comments are the same. -/
theorem filter_tail_children {p : Nat} (hpair : t.kind p = .elementValuePair) :
    (t'.children (f p)).tail.filter (fun c => decide (t.Keeps f c)) =
      (t.children p).tail.map f := by
  have hp : p < t.size := lt_size_of_kind (by simp [hpair])
  have hfilter : (t'.children (f p)).filter (fun c => decide (t.Keeps f c)) =
      (t.children p).map f := by
    have hall := h.filter_children hp (q := fun _ => true) (r := fun c => decide (t.Keeps f c))
      (fun c hc => decide_eq_true (keeps (t.lt_size_of_mem_children hc)))
      (fun c _ hadded => decide_eq_false hadded)
    rwa [List.filter_true] at hall
  have hhead := h.head?_children hpair
  rcases hchildren : t.children p with _ | ⟨k, rest⟩
  · rw [hchildren, List.head?_nil, Option.map_none, List.head?_eq_none_iff] at hhead
    rw [hhead]
    rfl
  · have hk : k < t.size := t.lt_size_of_mem_children (by simp [hchildren] : k ∈ t.children p)
    obtain ⟨rest', hchildren'⟩ : ∃ rest', t'.children (f p) = f k :: rest' := by
      rw [hchildren] at hhead
      exact List.head?_eq_some_iff.1 hhead
    have hpasses : decide (t.Keeps f (f k)) = true := decide_eq_true (keeps hk)
    rw [hchildren, hchildren', List.filter_cons, if_pos hpasses, List.map_cons] at hfilter
    rw [hchildren', List.tail_cons, List.tail_cons]
    exact List.tail_eq_of_cons_eq hfilter

/-- A pair without an added comment right behind its key has the same node there. -/
theorem second_child_eq {p : Nat} (hpair : t.kind p = .elementValuePair)
    (hsecond : ∀ c, (t'.children (f p))[1]? = some c → t.Keeps f c) :
    (t'.children (f p))[1]? = (t.children p)[1]?.map f := by
  have htail := h.filter_tail_children hpair
  have hone : ∀ l : List Nat, l[1]? = l.tail.head? := by
    intro l
    rw [List.head?_eq_getElem?, List.getElem?_tail]
  rw [hone] at hsecond ⊢
  rw [hone]
  rcases hrest : (t'.children (f p)).tail with _ | ⟨c, rest⟩
  · rw [hrest, List.filter_nil] at htail
    rw [List.map_eq_nil_iff.1 htail.symm]
    rfl
  · have hpasses : decide (t.Keeps f c) = true := decide_eq_true (hsecond c (by simp [hrest]))
    rw [hrest, List.filter_cons, if_pos hpasses] at htail
    rw [← List.head?_map, ← htail, List.head?_cons, List.head?_cons]

/-! ## Searches by kind -/

/-- The same children are of a kind, unless it is that of comments. -/
theorem childrenOf_eq {p : Nat} (hp : p < t.size) {kind : NodeKind} (hkind : kind ≠ .comment) :
    t'.childrenOf (f p) kind = (t.childrenOf p kind).map f := by
  refine h.filter_children hp ?_ ?_
  · intro c hc
    rw [h.kind c (t.lt_size_of_mem_children hc)]
  · intro c hc hadded
    rw [h.kind_of_added hc hadded]
    simpa using hkind.symm

theorem child_eq {p : Nat} (hp : p < t.size) {kind : NodeKind} (hkind : kind ≠ .comment) :
    t'.child (f p) kind = (t.child p kind).map f := by
  have hfiltered := congrArg List.head? (h.childrenOf_eq hp hkind)
  rw [List.head?_map] at hfiltered
  rw [child, child, ← List.head?_filter, ← List.head?_filter]
  exact hfiltered

/-- An annotation is found under the same names. -/
theorem annotationNamed_eq {i : Nat} (hi : i < t.size) (name : String) :
    t'.annotationNamed (f i) name = (t.annotationNamed i name).map f := by
  rw [annotationNamed, annotationNamed, annotations, annotations, modifiers, modifiers,
    h.child_eq hi (by decide)]
  rcases hlist : t.child i .modifiers with _ | list
  · rfl
  · have hlt : list < t.size := t.lt_size_of_mem_children (List.mem_of_find?_eq_some hlist)
    simp only [Option.map_some, childrenOf, List.find?_filter]
    refine h.find?_children hlt ?_ ?_
    · intro c hc
      have hc := t.lt_size_of_mem_children hc
      rw [h.kind c hc, h.token c hc]
    · intro c hc hadded
      rw [h.kind_of_added hc hadded]
      rfl

end CommentsAdded

end SdkLint.Tree
