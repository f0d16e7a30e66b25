import SdkLint.Proofs.Tree.Order
import SdkLint.Rules.Expression

/-!
# Members of type declarations

A member stands in the body of its type declaration, or in a body inside this body.  Members are
listed from the type declaration downwards, and tested for from the member upwards.

Main definition:

- `Tree.fieldsOf`: the fields that the test takes for members of a type declaration.

Main results:

- Theorem `Tree.find?_ancestors_of_mem_members`: going up from a member leads to its type
  declaration.
- Theorem `Tree.pairwise_members`: members are listed in the order of the tree.
- Theorem `Tree.mem_members_iff`: the list and the test agree on everything but bodies.
- Theorem `Tree.filter_members`: so they do on the fields, which come in the same order.
-/

namespace SdkLint.Tree

variable {t : Tree}

/-! ## The list of members -/

theorem mem_members {owner m : Nat} : m ∈ t.members owner ↔
    ∃ body, t.child owner .classBody = some body ∧
      ∃ c ∈ t.children body, if t.kind c = .classBody then m ∈ t.children c else m = c := by
  unfold members
  cases t.child owner .classBody with
  | none => simp
  | some body =>
    rw [List.mem_flatMap]
    simp only [Option.some.injEq, exists_eq_left', beq_iff_eq]
    refine exists_congr fun c => and_congr_right fun _ => ?_
    split
    · rfl
    · exact List.mem_singleton

/-- Going up from a member, the first node that is no class body is the type declaration that it
belongs to. -/
theorem find?_ancestors_of_mem_members {owner m : Nat} (h : m ∈ t.members owner)
    (howner : t.kind owner ≠ .classBody) :
    (t.ancestors m).find? (fun j => t.kind j != .classBody) = some owner := by
  obtain ⟨body, hbody, c, hc, hm⟩ := mem_members.1 h
  have hkind : t.kind body = .classBody := by simpa using List.find?_some hbody
  have hup : t.ancestors body = t.lineage owner :=
    ancestors_of_parent (t.mem_children.1 (List.mem_of_find?_eq_some hbody))
  have hcup : t.ancestors c = t.lineage body := ancestors_of_parent (t.mem_children.1 hc)
  have hfound : (t.lineage body).find? (fun j => t.kind j != .classBody) = some owner := by
    simp [lineage, hup, hkind, howner]
  split at hm
  · -- The member stands in a body inside the body.
    rename_i hinner
    have hskip : (t.kind c != .classBody) = false := by simpa using hinner
    rw [ancestors_of_parent (t.mem_children.1 hm), lineage, hcup, List.find?_cons, hskip]
    exact hfound
  · rw [hm, hcup]
    exact hfound

/-- Members are listed in the order of the tree. -/
theorem pairwise_members (t : Tree) (owner : Nat) : (t.members owner).Pairwise (· < ·) := by
  unfold members
  rcases t.child owner .classBody with _ | body
  · exact List.Pairwise.nil
  · have hbelow : ∀ c m, m ∈ (if t.kind c == .classBody then t.children c else [c]) →
        m ∈ t.subtree c := by
      intro c m hm
      rw [mem_subtree_iff]
      split at hm
      · simp [lineage_of_child hm]
      · simp [List.mem_singleton.1 hm]
    rw [List.pairwise_flatMap]
    refine ⟨?_, ?_⟩
    · intro c _
      split
      · exact t.pairwise_children c
      · exact List.pairwise_singleton _ c
    · refine (t.pairwise_children body).imp_of_mem fun {c d} hc hd hcd m hm m' hm' => ?_
      exact lt_of_mem_subtree_siblings hc hd hcd (hbelow c m hm) (hbelow d m' hm')

/-- No member is listed twice. -/
theorem nodup_members (t : Tree) (owner : Nat) : (t.members owner).Nodup :=
  (t.pairwise_members owner).imp Nat.ne_of_lt

/-! ## The test for members -/

/-- A member by the test stands in a body of the type declaration, or in a body inside one. -/
theorem isMemberOf_iff {m owner : Nat} (howner : t.kind owner ≠ .classBody) :
    t.isMemberOf m owner = true ↔
      ∃ body, t.parent m = some body ∧ t.kind body = .classBody ∧
        (t.parent body = some owner ∨
          ∃ outer, t.parent body = some outer ∧ t.kind outer = .classBody ∧
            t.parent outer = some owner) := by
  unfold isMemberOf
  cases t.parent m with
  | none => simp
  | some body =>
    cases hup : t.parent body with
    | none => simp [hup]
    | some outer =>
      by_cases houter : t.kind outer = .classBody
      · have hne : outer ≠ owner := fun heq => howner (heq ▸ houter)
        simp [hup, houter, hne]
      · simp [hup, houter]

/-- Where there is one child of a kind at most, it is the first one of the kind. -/
theorem child_eq_some_iff {i c : Nat} {kind : NodeKind}
    (h : (t.childrenOf i kind).length ≤ 1) :
    t.child i kind = some c ↔ t.parent c = some i ∧ t.kind c = kind := by
  have hmem : c ∈ t.childrenOf i kind ↔ t.parent c = some i ∧ t.kind c = kind := by
    simp [childrenOf, mem_children]
  rw [← hmem, child, ← List.head?_filter]
  change (t.childrenOf i kind).head? = some c ↔ _
  generalize t.childrenOf i kind = found at h
  match found, h with
  | [], _ => simp
  | [d], _ => simp [eq_comm]

/-- The list and the test agree on everything but bodies. -/
theorem mem_members_iff {m owner : Nat} (howner : t.kind owner ≠ .classBody)
    (hbody : (t.childrenOf owner .classBody).length ≤ 1) (hm : t.kind m ≠ .classBody) :
    m ∈ t.members owner ↔ t.isMemberOf m owner = true := by
  rw [mem_members, isMemberOf_iff howner]
  simp only [child_eq_some_iff hbody, mem_children]
  constructor
  · rintro ⟨body, ⟨hup, hkind⟩, c, hc, hinside⟩
    split at hinside
    · rename_i hinner
      exact ⟨c, hinside, hinner, .inr ⟨body, hc, hkind, hup⟩⟩
    · exact ⟨body, hinside ▸ hc, hkind, .inl hup⟩
  · rintro ⟨body, hmup, hkind, hup | ⟨outer, hup, houter, houp⟩⟩
    · exact ⟨body, ⟨hup, hkind⟩, m, hmup, by rw [if_neg hm]⟩
    · exact ⟨outer, ⟨houp, houter⟩, body, hup, by rwa [if_pos hkind]⟩

/-! ## Fields -/

/-- The fields that the test takes for members of a type declaration, in the order of the tree. -/
def fieldsOf (t : Tree) (owner : NodeId) : List NodeId :=
  (List.range t.size).filter fun m => t.kind m == .fieldDef && t.isMemberOf m owner

theorem mem_fieldsOf {m owner : Nat} :
    m ∈ t.fieldsOf owner ↔ t.kind m = .fieldDef ∧ t.isMemberOf m owner = true := by
  rw [fieldsOf, List.mem_filter, List.mem_range, Bool.and_eq_true, beq_iff_eq]
  exact and_iff_right_of_imp fun h => lt_size_of_kind (by rw [h.1]; decide)

/-- The fields among the members that are listed are those that the test takes for members. -/
theorem filter_members {owner : Nat} (howner : t.kind owner ≠ .classBody)
    (hbody : (t.childrenOf owner .classBody).length ≤ 1) :
    (t.members owner).filter (fun m => t.kind m == .fieldDef) = t.fieldsOf owner := by
  have hlisted : ((t.members owner).filter fun m => t.kind m == .fieldDef).Pairwise (· < ·) :=
    (t.pairwise_members owner).filter _
  refine hlisted.eq_of_mem_iff (List.pairwise_lt_range.filter _) fun m => ?_
  rw [List.mem_filter, mem_fieldsOf, beq_iff_eq, and_comm]
  refine and_congr_right fun hfield => mem_members_iff howner hbody ?_
  rw [hfield]
  decide

end SdkLint.Tree
