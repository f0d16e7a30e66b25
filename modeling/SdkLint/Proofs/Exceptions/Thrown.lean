import SdkLint.Proofs.Tree.Building
import SdkLint.Proofs.Tree.Parentheses
import SdkLint.Rules.LoggedThrown

/-!
# Calls whose result is thrown

Whether the result of a call is thrown can be asked from both ends.  Going up from the call through
parentheses and casts one arrives at a throw statement, or going down from a throw statement through
parentheses and casts one arrives at the call.  Both look past the same parentheses and casts,
comments in between included, so that the answers agree.

Main results:

- Theorem `LoggedThrown.settle_eq_some_iff`: where going up from a value ends.
- Theorem `LoggedThrown.fateOf_eq_thrown_iff`: a call is thrown if that is a throw statement.
- Theorem `thrown_from_both_ends`: both ends agree, and looking through parentheses and casts comes
  to an end.
-/

namespace SdkLint

variable {t : Tree} {call : Nat}

/-! ## From the call upwards -/

namespace LoggedThrown

/-- Going up from a value through the parentheses and casts around it is going up from the outermost
of them. -/
theorem settle_of_wraps {value : Nat} (h : t.Wraps value call) :
    settle t call (t.ancestors call) = settle t value (t.ancestors value) := by
  induction h with
  | bare => rfl
  | around htransparent hoperand _ ih =>
      rw [ih, Tree.ancestors_of_parent (Tree.parent_of_operand hoperand), Tree.lineage, settle,
        if_pos htransparent]

/-- Where going up from a value ends: it stands there in parentheses and casts, and in nothing
else. -/
theorem settle_eq_some_iff {value place : Nat} (hcomment : t.kind call ≠ .comment)
    (htype : t.kind call ≠ .typeName) :
    settle t call (t.ancestors call) = some (value, place) ↔
      t.Wraps value call ∧ t.parent value = some place ∧ t.isTransparent place = false := by
  constructor
  · intro h
    induction call using t.parentInduction with
    | root call hroot =>
        rw [Tree.ancestors_of_no_parent hroot] at h
        cases h
    | child call parent hparent ih =>
        rw [Tree.ancestors_of_parent hparent, Tree.lineage, settle] at h
        split at h
        · -- The parent is a pair of parentheses or a cast around the value.
          rename_i htransparent
          have hother := Tree.kind_of_isTransparent htransparent
          obtain ⟨hwraps, hplace⟩ := ih (by simp [hother]) (by simp [hother]) h
          have hlast := Tree.getLast?_operands_of_parent htransparent hparent hcomment htype
          exact ⟨hwraps.trans (.around htransparent hlast (.bare call)), hplace⟩
        · rename_i hopaque
          obtain ⟨rfl, rfl⟩ := Prod.mk.inj (Option.some.inj h)
          exact ⟨.bare call, hparent, Bool.eq_false_iff.2 hopaque⟩
  · rintro ⟨hwraps, hparent, hopaque⟩
    rw [settle_of_wraps hwraps, Tree.ancestors_of_parent hparent, Tree.lineage, settle,
      if_neg (Bool.eq_false_iff.1 hopaque)]

/-- The result of a call is thrown if going up from it ends at a throw statement. -/
theorem fateOf_eq_thrown_iff : fateOf t call = .thrown ↔
    ∃ value place, settle t call (t.ancestors call) = some (value, place) ∧
      t.kind place = .throwStmt := by
  rw [fateOf]
  rcases settle t call (t.ancestors call) with _ | ⟨value, place⟩
  · simp
  · constructor
    · intro h
      refine ⟨value, place, rfl, ?_⟩
      dsimp only at h
      split at h
      case h_1 hkind => exact hkind
      case h_2 => cases h
      case h_3 => split at h <;> cases h
      case h_4 =>
        split at h
        · cases h
        · split at h
          · cases h
          · split at h <;> cases h
      case h_5 => cases h
    · rintro ⟨_, _, hsettle, hkind⟩
      obtain ⟨rfl, rfl⟩ := Prod.mk.inj (Option.some.inj hsettle)
      simp only [hkind]

end LoggedThrown

/-! ## From the throw statement downwards -/

namespace Tree

/-- What a throw statement throws stands in it in parentheses and casts. -/
theorem wraps_of_thrownExpression {statement expr : Nat}
    (h : t.thrownExpression statement = some expr) :
    ∃ operand, t.parent operand = some statement ∧ t.Wraps operand expr := by
  obtain ⟨operand, hoperand, rfl⟩ := Option.map_eq_some_iff.1 h
  have hchild := mem_children_of_mem_operands (List.mem_of_head? hoperand)
  exact ⟨operand, t.mem_children.1 hchild, t.wraps_unwrap operand⟩

/-- A throw statement with one operand throws what this is around. -/
theorem thrownExpression_of_wraps {statement operand expr : Nat}
    (hoperands : t.operands statement = [operand]) (hwraps : t.Wraps operand expr)
    (hexpr : t.isTransparent expr = false) : t.thrownExpression statement = some expr := by
  rw [thrownExpression, hoperands, List.head?_cons, Option.map_some, hwraps.unwrap_eq hexpr]

end Tree

/-! ## Both ends -/

/-- If every throw statement has one operand, then the result of a call is thrown, seen from the
call, exactly if the call is what some throw statement throws.  In every tree, looking through
parentheses and casts goes on for finitely many rounds, as long as there are any, and what is found
is not to be looked through any more. -/
theorem thrown_from_both_ends (t : Tree) :
    ((∀ statement, t.kind statement = .throwStmt → (t.operands statement).length = 1) →
      ∀ call, t.kind call = .methodCall →
        (LoggedThrown.fateOf t call = .thrown ↔
          ∃ statement, t.kind statement = .throwStmt ∧
            t.thrownExpression statement = some call)) ∧
    ∀ i, (∃ rounds, t.inside^[rounds] i = t.unwrap i ∧
        ∀ k < rounds, t.isTransparent (t.inside^[k] i) = true) ∧
      t.isTransparent (t.unwrap i) = false ∧ t.unwrap (t.unwrap i) = t.unwrap i := by
  constructor
  · intro single call hcall
    have hcomment : t.kind call ≠ .comment := by simp [hcall]
    have htype : t.kind call ≠ .typeName := by simp [hcall]
    have hopaque : t.isTransparent call = false :=
      Tree.not_isTransparent_of_kind (by simp [hcall])
    rw [LoggedThrown.fateOf_eq_thrown_iff]
    constructor
    · rintro ⟨value, statement, hsettle, hkind⟩
      obtain ⟨hwraps, hparent, -⟩ := (LoggedThrown.settle_eq_some_iff hcomment htype).1 hsettle
      obtain ⟨operand, hoperands⟩ := List.length_eq_one_iff.1 (single statement hkind)
      have hmem : value ∈ t.operands statement := by
        refine List.mem_filter.2 ⟨t.mem_children.2 hparent, ?_⟩
        simpa using hwraps.kind_ne_comment hcomment
      rw [hoperands, List.mem_singleton] at hmem
      subst hmem
      exact ⟨statement, hkind, Tree.thrownExpression_of_wraps hoperands hwraps hopaque⟩
    · rintro ⟨statement, hkind, hthrown⟩
      obtain ⟨operand, hparent, hwraps⟩ := Tree.wraps_of_thrownExpression hthrown
      have hplace : t.isTransparent statement = false :=
        Tree.not_isTransparent_of_kind (by simp [hkind])
      have hsettle := (LoggedThrown.settle_eq_some_iff hcomment htype).2 ⟨hwraps, hparent, hplace⟩
      exact ⟨operand, statement, hsettle, hkind⟩
  · intro i
    exact ⟨(t.wraps_unwrap i).exists_rounds, t.isTransparent_unwrap i, t.unwrap_unwrap i⟩

/-- The tree of `throw (E) /* c */ (f(g()));`, where the result of `f` is thrown and that of `g` is
passed on. -/
def castingTree : Tree :=
  let node (kind : NodeKind) (start stop : Nat) (token : Option String) (below : List Outline) :
      Outline :=
    .node kind ⟨start, stop⟩ ⟨1, start + 1⟩ token below
  (node .throwStmt 0 27 none
    [node .other 6 26 none
      [node .typeName 7 8 (some "E") [], node .comment 10 17 (some "/* c */") [],
        node .other 18 26 none
          [node .methodCall 19 25 (some "f")
            [node .ident 19 20 (some "f") [],
              node .argumentList 20 25 none
                [node .methodCall 21 24 (some "g") [node .ident 21 22 (some "g") []]]]]]]).toTree
    "throw (E) /* c */ (f(g()));"

/-- Seen from both ends the call of `f` is thrown and the call of `g` is not. -/
theorem castingTree_thrown :
    (∀ statement, castingTree.kind statement = .throwStmt →
      (castingTree.operands statement).length = 1) ∧
    (castingTree.kind 5 = .methodCall ∧ LoggedThrown.fateOf castingTree 5 = .thrown ∧
      ∃ statement, castingTree.kind statement = .throwStmt ∧
        castingTree.thrownExpression statement = some 5) ∧
    castingTree.kind 8 = .methodCall ∧ LoggedThrown.fateOf castingTree 8 = .handedOff ∧
      ¬ ∃ statement, castingTree.kind statement = .throwStmt ∧
        castingTree.thrownExpression statement = some 8 := by
  have hall : ∀ statement ∈ List.range castingTree.size,
      castingTree.kind statement = .throwStmt →
        (castingTree.operands statement).length = 1 := by
    decide +kernel
  have single : ∀ statement, castingTree.kind statement = .throwStmt →
      (castingTree.operands statement).length = 1 := by
    intro statement hkind
    have hsize := Tree.lt_size_of_kind (t := castingTree) (i := statement) (by simp [hkind])
    exact hall statement (List.mem_range.2 hsize) hkind
  have hf : castingTree.kind 5 = .methodCall ∧
      LoggedThrown.fateOf castingTree 5 = .thrown := by
    decide +kernel
  have hg : castingTree.kind 8 = .methodCall ∧
      LoggedThrown.fateOf castingTree 8 = .handedOff := by
    decide +kernel
  have hagree := (thrown_from_both_ends castingTree).1 single
  refine ⟨single, ⟨hf.1, hf.2, (hagree 5 hf.1).1 hf.2⟩, hg.1, hg.2, fun hthrown => ?_⟩
  have hboth := (hagree 8 hg.1).2 hthrown
  rw [hg.2] at hboth
  cases hboth

end SdkLint
