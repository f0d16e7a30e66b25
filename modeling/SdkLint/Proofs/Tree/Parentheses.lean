import Mathlib.Logic.Function.Iterate
import SdkLint.Proofs.Tree.Order
import SdkLint.Rules.Expression

/-!
# Values in parentheses and casts

A value may stand in any number of parentheses and casts.  Looking through them from outside finds
the value, and what it stands in there is a pair of parentheses or a cast, unless there are none.

Main definitions:

- `Tree.Wraps`: a node is another one in parentheses and casts.
- `Tree.inside`: one round of looking through.

Main results:

- Theorem `Tree.wraps_unwrap`: looking through parentheses and casts finds what they are around.
- Theorem `Tree.Wraps.unwrap_eq`: it finds nothing else.
- Theorem `Tree.isTransparent_unwrap`: what is found is no pair of parentheses and no cast itself.
- Theorem `Tree.Wraps.exists_rounds`: it is found in finitely many rounds.
- Theorem `Tree.Wraps.parent_transparent`: what is found stands in parentheses or a cast.
- Theorem `Tree.getLast?_operands_of_parent`: a value in parentheses or a cast is what looking
  through them goes on with.
-/

namespace SdkLint.Tree

/-- `t.Wraps i j`: the node `i` is the node `j` in parentheses and casts, none, one or more. -/
inductive Wraps (t : Tree) : NodeId → NodeId → Prop
  | bare (i : NodeId) : Wraps t i i
  | around {i operand j : NodeId} : t.isTransparent i = true →
      (t.operands i).getLast? = some operand → Wraps t operand j → Wraps t i j

variable {t : Tree} {i j : Nat}

theorem kind_of_isTransparent (h : t.isTransparent i = true) : t.kind i = .other := by
  simp only [isTransparent, Bool.and_eq_true, beq_iff_eq] at h
  exact h.1.1

theorem not_isTransparent_of_kind (h : t.kind i ≠ .other) : t.isTransparent i = false :=
  Bool.eq_false_iff.2 fun htransparent => h (kind_of_isTransparent htransparent)

/-- Parentheses and casts have an operand. -/
theorem exists_operand (h : t.isTransparent i = true) :
    ∃ operand, (t.operands i).getLast? = some operand := by
  rcases hoperands : t.operands i with _ | ⟨first, rest⟩
  · simp [isTransparent, hoperands] at h
  · exact ⟨_, List.getLast?_cons⟩

theorem parent_of_operand {operand : Nat} (h : (t.operands i).getLast? = some operand) :
    t.parent operand = some i :=
  t.mem_children.1 (mem_children_of_mem_operands (List.mem_of_getLast? h))

theorem unwrap_of_not_isTransparent (h : t.isTransparent i = false) : t.unwrap i = i := by
  rw [unwrap, if_neg (Bool.eq_false_iff.1 h)]

theorem unwrap_of_operand {operand : Nat} (h : t.isTransparent i = true)
    (hoperand : (t.operands i).getLast? = some operand) : t.unwrap i = t.unwrap operand := by
  rw [unwrap, if_pos h]
  split
  · next inner hinner => rw [Option.some.inj (hinner.symm.trans hoperand)]
  · next hnone => cases hnone.symm.trans hoperand

/-- Looking through parentheses and casts finds what they are around. -/
theorem wraps_unwrap (t : Tree) (i : Nat) : t.Wraps i (t.unwrap i) := by
  induction i using t.childInduction with
  | node i ih =>
      rcases htransparent : t.isTransparent i with _ | _
      · rw [unwrap_of_not_isTransparent htransparent]
        exact .bare i
      · obtain ⟨operand, hoperand⟩ := exists_operand htransparent
        rw [unwrap_of_operand htransparent hoperand]
        exact .around htransparent hoperand
          (ih operand (t.mem_children.2 (parent_of_operand hoperand)))

/-- It finds whatever is no pair of parentheses and no cast itself. -/
theorem Wraps.unwrap_eq (h : t.Wraps i j) (hj : t.isTransparent j = false) : t.unwrap i = j := by
  induction h with
  | bare i => exact unwrap_of_not_isTransparent hj
  | around htransparent hoperand _ ih =>
      rw [unwrap_of_operand htransparent hoperand]
      exact ih hj

theorem Wraps.trans {k : Nat} (h : t.Wraps i j) (hinner : t.Wraps j k) : t.Wraps i k := by
  induction h with
  | bare => exact hinner
  | around htransparent hoperand _ ih => exact .around htransparent hoperand (ih hinner)

/-- What is found is no pair of parentheses and no cast. -/
@[simp]
theorem isTransparent_unwrap (t : Tree) (i : Nat) : t.isTransparent (t.unwrap i) = false := by
  induction i using t.childInduction with
  | node i ih =>
      rcases htransparent : t.isTransparent i with _ | _
      · rw [unwrap_of_not_isTransparent htransparent]
        exact htransparent
      · obtain ⟨operand, hoperand⟩ := exists_operand htransparent
        rw [unwrap_of_operand htransparent hoperand]
        exact ih operand (t.mem_children.2 (parent_of_operand hoperand))

@[simp]
theorem unwrap_unwrap (t : Tree) (i : Nat) : t.unwrap (t.unwrap i) = t.unwrap i :=
  unwrap_of_not_isTransparent (t.isTransparent_unwrap i)

/-- A node around another one is of its kind, unless it is a pair of parentheses or a cast. -/
theorem Wraps.kind (h : t.Wraps i j) : t.kind i = t.kind j ∨ t.kind i = .other := by
  cases h with
  | bare => exact Or.inl rfl
  | around htransparent _ _ => exact Or.inr (kind_of_isTransparent htransparent)

/-- Nothing around a node that is no comment is one. -/
theorem Wraps.kind_ne_comment (h : t.Wraps i j) (hj : t.kind j ≠ .comment) :
    t.kind i ≠ .comment := by
  rcases h.kind with hkind | hkind <;> rw [hkind]
  · exact hj
  · exact nofun

/-- What is in parentheses and casts stands in one of them, unless there are none. -/
theorem Wraps.parent_transparent (h : t.Wraps i j) :
    j = i ∨ ∃ p, t.parent j = some p ∧ t.isTransparent p = true := by
  induction h with
  | bare i => exact Or.inl rfl
  | around htransparent hoperand _ ih =>
      rcases ih with rfl | hparent
      · exact Or.inr ⟨_, parent_of_operand hoperand, htransparent⟩
      · exact Or.inr hparent

/-- A value in parentheses or a cast is their last operand, for the type of a cast comes first. -/
theorem getLast?_operands_of_parent {p : Nat} (h : t.isTransparent p = true)
    (hparent : t.parent i = some p) (hcomment : t.kind i ≠ .comment)
    (htype : t.kind i ≠ .typeName) : (t.operands p).getLast? = some i := by
  have hmem : i ∈ t.operands p :=
    List.mem_filter.2 ⟨t.mem_children.2 hparent, by simpa using hcomment⟩
  rw [isTransparent, Bool.and_eq_true] at h
  obtain ⟨-, hform⟩ := h
  split at hform
  · rename_i operand hoperands
    rw [hoperands, List.mem_singleton] at hmem
    rw [hoperands, List.getLast?_singleton, hmem]
  · rename_i first second hoperands
    rw [hoperands, List.mem_pair] at hmem
    have hne : i ≠ first := by
      rintro rfl
      exact htype (by simpa using hform)
    rw [hoperands, hmem.resolve_left hne]
    rfl
  · cases hform

/-! ## Rounds -/

/-- One round of looking through: the last operand of parentheses or a cast.  Anything else stays
as it is. -/
def inside (t : Tree) (i : NodeId) : NodeId :=
  if t.isTransparent i then (t.operands i).getLast?.getD i else i

theorem inside_of_operand {operand : Nat} (h : t.isTransparent i = true)
    (hoperand : (t.operands i).getLast? = some operand) : t.inside i = operand := by
  rw [inside, if_pos h, hoperand, Option.getD_some]

/-- What is in parentheses and casts is reached in finitely many rounds, all of which begin at
parentheses or a cast. -/
theorem Wraps.exists_rounds (h : t.Wraps i j) :
    ∃ rounds, t.inside^[rounds] i = j ∧ ∀ k < rounds, t.isTransparent (t.inside^[k] i) = true := by
  induction h with
  | bare i => exact ⟨0, rfl, fun k hk => absurd hk k.not_lt_zero⟩
  | @around i operand j htransparent hoperand _ ih =>
      obtain ⟨rounds, hrounds, hbefore⟩ := ih
      have hinside := inside_of_operand htransparent hoperand
      refine ⟨rounds + 1, ?_, ?_⟩
      · rw [Function.iterate_succ_apply, hinside, hrounds]
      · intro k hk
        cases k with
        | zero => exact htransparent
        | succ k =>
            rw [Function.iterate_succ_apply, hinside]
            exact hbefore k (Nat.lt_of_succ_lt_succ hk)

end SdkLint.Tree
