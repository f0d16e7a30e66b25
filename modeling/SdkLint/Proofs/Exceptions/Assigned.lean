import SdkLint.Proofs.Exceptions.Rethrown

/-!
# Assigned exceptions keep their cause

A trace follows a reference to the innermost assignment or declarator that it stands on the right
of, through any expressions in between.  The slots written there become aliases, so that statements
which throw them are not reported.  The climb ends at the innermost one: of a chain of assignments
only the last target becomes an alias.

Main definitions:

- `writtenBy`: what an assignment or a declarator writes.
- `RightOf`: a reference stands on the right of an assignment or a declarator.
- `Mentions`: an expression reads a slot.

Main results:

- Theorem `targetAbove_of_passed`: going up past nodes that neither write nor end a value leads to
  the node above them.
- Theorem `RightOf.assignmentTarget_eq`: a reference is assigned to the target of the innermost
  assignment or declarator that it stands on the right of.
- Theorem `assigned_alias_kept`: the slots written there are aliases, and throwing them is not
  reported.
-/

namespace SdkLint

/-- Whether a value is not followed past a node of a kind. -/
def NodeKind.endsValue : NodeKind → Bool
  | .block | .exprStmt | .throwStmt | .returnStmt | .lambda | .classBody | .catchClause | .tryStmt
  | .forEach => true
  | _ => false

/-- Whether nodes of a kind write a value. -/
def NodeKind.writesValue : NodeKind → Bool
  | .assign | .varDeclarator => true
  | _ => false

namespace CauseFlow

/-! ## References on the right -/

/-- What an assignment or a declarator writes: its first child, its name. -/
def writtenBy (t : Tree) (a : NodeId) : Option NodeId :=
  match t.kind a with
  | .assign => (t.children a).head?
  | .varDeclarator => t.nameNode a
  | _ => none

/-- The nodes above a node and below one further up. -/
def nodesBetween (t : Tree) (i a : NodeId) : List NodeId :=
  (t.ancestors i).takeWhile (· != a)

/-- A reference inside a body stands on the right of an assignment or a declarator inside the body:
not in what is written, and with nothing in between that ends a value. -/
structure RightOf (t : Tree) (body r a target : NodeId) : Prop where
  reference : r ∈ references t body
  above : a ∈ t.ancestors r
  inside : body ∈ t.ancestors a
  written : writtenBy t a = some target
  right : target ∉ t.lineage r
  unbroken : ∀ j ∈ nodesBetween t r a, (t.kind j).endsValue = false

/-- An expression reads a slot. -/
def Mentions (t : Tree) (locals : List String) (expr : NodeId) (slot : Slot) : Prop :=
  ∃ i ∈ t.subtree expr, t.kind i = .ident ∧ t.isValueReference i = true ∧
    slot ∈ slotsOf t locals i

variable {t : Tree} {body r a target : Nat} {caught : String}

theorem ancestors_eq_append (h : a ∈ t.ancestors r) :
    ∃ above, t.ancestors r = nodesBetween t r a ++ a :: above := by
  unfold nodesBetween
  generalize t.ancestors r = nodes at h
  induction nodes with
  | nil => cases h
  | cons j nodes ih =>
      by_cases hj : j = a
      · exact ⟨nodes, by simp [hj]⟩
      · obtain ⟨above, habove⟩ := ih ((List.mem_cons.1 h).resolve_left (Ne.symm hj))
        refine ⟨above, ?_⟩
        rw [List.takeWhile_cons_of_pos (by simpa using hj), List.cons_append, ← habove]

/-- The body does not stand between a reference and a node inside the body. -/
theorem RightOf.body_notMem (h : RightOf t body r a target) : body ∉ nodesBetween t r a := by
  intro hmem
  obtain ⟨above, hancestors⟩ := ancestors_eq_append h.above
  obtain ⟨before, after, hbetween⟩ := List.append_of_mem hmem
  have hlineage : t.lineage r = (r :: before) ++ body :: (after ++ a :: above) := by
    rw [Tree.lineage, hancestors, hbetween, List.append_assoc]
    rfl
  have hup : a ∈ t.lineage body := by
    rw [Tree.lineage_of_append hlineage]
    simp
  exact Nat.not_le_of_lt (Tree.lt_of_mem_ancestors h.inside) (Tree.le_of_mem_lineage hup)

/-! ## Going up -/

/-- A value is followed past a node that neither writes nor ends it. -/
theorem targetAbove_cons {j child : Nat} {rest : List Nat} (whole : Bool) (hbody : j ≠ body)
    (hends : (t.kind j).endsValue = false) (hwrites : (t.kind j).writesValue = false) :
    targetAbove t body child whole (j :: rest) =
      targetAbove t body j (whole && t.isTransparent j) rest := by
  rw [targetAbove, if_neg (by simpa using hbody)]
  generalize t.kind j = kind at hends hwrites
  cases kind <;> first
    | rfl
    | exact absurd hends (by decide)
    | exact absurd hwrites (by decide)

/-- A value that stands on the right of an assignment or a declarator arrives there. -/
theorem targetAbove_of_written {child : Nat} {above : List Nat} (whole : Bool) (hbody : a ≠ body)
    (hwritten : writtenBy t a = some target) (hne : target ≠ child) :
    targetAbove t body child whole (a :: above) = some (target, whole) := by
  rw [targetAbove, if_neg (by simpa using hbody)]
  unfold writtenBy at hwritten
  split at hwritten
  · rename_i hkind
    simp [hkind, hwritten, hne]
  · rename_i hkind
    simp [hkind, hwritten, hne]
  · cases hwritten

/-- Going up past nodes that neither write nor end a value leads to the node above them. -/
theorem targetAbove_of_passed {between above : List Nat} {child : Nat} (whole : Bool)
    (hpassed : ∀ j ∈ between, j ≠ body ∧ (t.kind j).endsValue = false ∧
      (t.kind j).writesValue = false)
    (hbody : a ≠ body) (hwritten : writtenBy t a = some target) (hne : target ∉ child :: between) :
    ∃ arrives, targetAbove t body child whole (between ++ a :: above) = some (target, arrives) := by
  induction between generalizing child whole with
  | nil => exact ⟨whole, targetAbove_of_written whole hbody hwritten (List.ne_of_not_mem_cons hne)⟩
  | cons j between ih =>
      obtain ⟨hj, hends, hwrites⟩ := hpassed j List.mem_cons_self
      rw [List.cons_append, targetAbove_cons whole hj hends hwrites]
      exact ih _ (fun k hk => hpassed k (List.mem_cons_of_mem _ hk))
        (List.not_mem_of_not_mem_cons hne)

/-- A reference to a field is followed from the field access around it. -/
theorem accessOf_eq (t : Tree) (r : Nat) :
    accessOf t r = r ∨ t.parent r = some (accessOf t r) ∧ t.kind (accessOf t r) = .fieldAccess := by
  unfold accessOf
  cases hparent : t.parent r with
  | none => exact Or.inl rfl
  | some p =>
      by_cases hmember : t.isMemberName r = true
      · have hkind : t.kind p = .fieldAccess := by
          simp [Tree.isMemberName, hparent] at hmember
          exact hmember.1.1
        simp [hmember, hkind]
      · simp [hmember]

/-- Above the expression that a reference stands for, the nodes up to one that is no field access
are some of those above the reference. -/
theorem ancestors_accessOf {between above : List Nat} (h : t.ancestors r = between ++ a :: above)
    (ha : t.kind a ≠ .fieldAccess) :
    ∃ between', t.ancestors (accessOf t r) = between' ++ a :: above ∧ between' ⊆ between ∧
      accessOf t r :: between' ⊆ t.lineage r := by
  rcases accessOf_eq t r with hself | ⟨hparent, hkind⟩
  · rw [hself]
    refine ⟨between, h, List.Subset.refl _, ?_⟩
    rw [Tree.lineage, h, List.cons_subset]
    exact ⟨List.mem_cons_self, fun j hj => by simp [hj]⟩
  · rw [Tree.ancestors_of_parent hparent, Tree.lineage] at h
    cases between with
    | nil =>
        obtain ⟨rfl, -⟩ := List.cons.inj h
        exact absurd hkind ha
    | cons access between =>
        rw [List.cons_append, List.cons.injEq] at h
        obtain ⟨rfl, habove⟩ := h
        refine ⟨between, habove, List.subset_cons_self _ _, fun j hj => ?_⟩
        rw [Tree.lineage, Tree.ancestors_of_parent hparent, Tree.lineage, habove]
        rcases List.mem_cons.1 hj with rfl | hj
        · simp
        · simp [hj]

/-- A reference is assigned to the target of the innermost assignment or declarator that it stands
on the right of. -/
theorem RightOf.assignmentTarget_eq (h : RightOf t body r a target)
    (innermost : ∀ j ∈ nodesBetween t r a, (t.kind j).writesValue = false) :
    ∃ whole, assignmentTarget t body r = some (target, whole) := by
  have ha : t.kind a ≠ .fieldAccess := by
    intro hkind
    have hwritten := h.written
    simp [writtenBy, hkind] at hwritten
  obtain ⟨above, hancestors⟩ := ancestors_eq_append h.above
  obtain ⟨between, hbetween, hsub, hlineage⟩ := ancestors_accessOf hancestors ha
  rw [assignmentTarget, hbetween]
  have hbody : a ≠ body := Nat.ne_of_gt (Tree.lt_of_mem_ancestors h.inside)
  have hright : target ∉ accessOf t r :: between := fun hmem => h.right (hlineage hmem)
  refine targetAbove_of_passed true (fun j hj => ?_) hbody h.written hright
  exact ⟨fun heq => h.body_notMem (heq ▸ hsub hj), h.unbroken j (hsub hj), innermost j (hsub hj)⟩

/-! ## Aliases -/

/-- What an alias is assigned to is an alias. -/
theorem mem_aliases_of_rightOf (h : RightOf t body r a target)
    (innermost : ∀ j ∈ nodesBetween t r a, (t.kind j).writesValue = false) {slot w : Slot}
    (hslot : slot ∈ slotsOf t (localsOf t body caught) r)
    (halias : slot ∈ (trace t body caught).aliases)
    (hw : w ∈ slotsOf t (localsOf t body caught) target) : w ∈ (trace t body caught).aliases := by
  obtain ⟨whole, htarget⟩ := h.assignmentTarget_eq innermost
  rw [mem_aliases_trace] at halias ⊢
  exact halias.tail ⟨whole, r, h.reference, target, htarget, hslot, hw⟩

/-- A statement that throws something with a mention of an alias is related to the exception. -/
theorem notMem_unrelatedThrows_of_mentions {statement expr : Nat} {slot : Slot}
    (hexpr : t.thrownExpression statement = some expr)
    (hmentions : Mentions t (localsOf t body caught) expr slot)
    (halias : slot ∈ (trace t body caught).aliases) :
    statement ∉ (trace t body caught).unrelatedThrows t := by
  obtain ⟨i, hmem, hkind, hreads, hslot⟩ := hmentions
  have hmention : (trace t body caught).mentionsAlias t expr = true :=
    mentionsAlias_of_mem hmem hkind hreads hslot halias
  intro hunrelated
  have hnone := (List.mem_filter.1 hunrelated).2
  simp [hexpr, hmention] at hnone

end CauseFlow

namespace CauseKept

open CauseFlow

/-- If an alias stands on the right of an assignment or a declarator, and on the right of no other
one in between, all slots of what is written are aliases.  Statements that throw something with a
mention of one of these slots are none of those that the rule about causes reports. -/
theorem assigned_alias_kept (rules : List ActiveRule) (input : WalkInput)
    (policy : ExceptionPolicy) {body r a target : NodeId} {caught : String} {slot : Slot}
    (h : RightOf input.tree body r a target)
    (innermost : ∀ j ∈ nodesBetween input.tree r a, (input.tree.kind j).writesValue = false)
    (hslot : slot ∈ slotsOf input.tree (localsOf input.tree body caught) r)
    (halias : slot ∈ (trace input.tree body caught).aliases) :
    (∀ w ∈ slotsOf input.tree (localsOf input.tree body caught) target,
      w ∈ (trace input.tree body caught).aliases ∧
        ∀ statement expr, input.tree.thrownExpression statement = some expr →
          Mentions input.tree (localsOf input.tree body caught) expr w →
          statement ∉ (trace input.tree body caught).unrelatedThrows input.tree) ∧
      ∀ clause, clauseParts input.tree clause = some (caught, body) →
        ∀ call ∈ (walk rules input).calls,
          (rules[call.rule]?).map ActiveRule.rule = some (rule policy) →
          call.hook = .enter clause →
          ∃ message help, call.verdict =
            .report (((trace input.tree body caught).unrelatedThrows input.tree).map fun other =>
              input.tree.finding other message help) := by
  refine ⟨fun w hw => ?_, fun clause parts call hcall hrule hhook => ?_⟩
  · have hwritten := mem_aliases_of_rightOf h innermost hslot halias hw
    exact ⟨hwritten, fun statement expr hexpr hmentions =>
      notMem_unrelatedThrows_of_mentions hexpr hmentions hwritten⟩
  · rw [verdict_ofNodes rfl hcall hrule, hhook]
    exact judge_of_clauseParts policy (input.context call.scopes) parts

/-- A catch clause that assigns what it has caught to two variables at once, and then throws one
after the other. -/
def chainingClause : Outline :=
  let declarator (name : String) : Outline := .sketch .varDeclarator none [.sketchName name]
  let assign (name : String) (value : Outline) : Outline :=
    .sketch .assign (some "=") [.sketchName name, value]
  let type : Outline := .sketch .typeName (some "E") []
  .sketch .catchClause none
    [.sketch .catchParam none [type, .sketchName "e"],
      .sketch .block none
        [.sketch .localVarDecl none [type, declarator "a", declarator "b"],
          .sketch .exprStmt none [assign "a" (assign "b" (.sketchName "e"))],
          .sketch .throwStmt none [.sketchName "b"],
          .sketch .throwStmt none [.sketchName "a"]]]

def chainingInput : WalkInput where
  file := .ofPath "A.java" "" ""
  tree := chainingClause.toTree ""
  resolver := fun _ => none

/-- The inner assignment makes its variable an alias, and the outer one does not: throwing the
latter is reported. -/
theorem chainingInput_kept :
    RightOf chainingInput.tree 4 16 14 15 ∧
      (∀ j ∈ nodesBetween chainingInput.tree 16 14,
        (chainingInput.tree.kind j).writesValue = false) ∧
      Slot.localVar "e" ∈ slotsOf chainingInput.tree (localsOf chainingInput.tree 4 "e") 16 ∧
      Slot.localVar "e" ∈ (trace chainingInput.tree 4 "e").aliases ∧
      Slot.localVar "b" ∈ (trace chainingInput.tree 4 "e").aliases ∧
      RightOf chainingInput.tree 4 16 12 13 ∧
      Slot.localVar "a" ∉ (trace chainingInput.tree 4 "e").aliases ∧
      (trace chainingInput.tree 4 "e").unrelatedThrows chainingInput.tree = [19] := by
  have hinner : RightOf chainingInput.tree 4 16 14 15 := by
    constructor <;> decide +kernel
  have houter : RightOf chainingInput.tree 4 16 12 13 := by
    constructor <;> decide +kernel
  have hinnermost : ∀ j ∈ nodesBetween chainingInput.tree 16 14,
      (chainingInput.tree.kind j).writesValue = false := by decide +kernel
  have hslot : Slot.localVar "e" ∈
      slotsOf chainingInput.tree (localsOf chainingInput.tree 4 "e") 16 := by decide +kernel
  have halias : Slot.localVar "e" ∈ (trace chainingInput.tree 4 "e").aliases := by decide +kernel
  have hkept := (assigned_alias_kept [(rule {}).active] chainingInput {} hinner hinnermost hslot
    halias).1 (.localVar "b") (by decide +kernel)
  exact ⟨hinner, hinnermost, hslot, halias, hkept.1, houter, by decide +kernel, by decide +kernel⟩

end CauseKept

end SdkLint
