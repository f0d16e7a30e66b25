import SdkLint.Proofs.Cause.Trace
import SdkLint.Proofs.Tree.Building
import SdkLint.Proofs.Tree.Parentheses
import SdkLint.Proofs.Walk.Answers
import SdkLint.Proofs.Walk.Emission
import SdkLint.Rules.CauseKept
import SdkLint.Rules.LoggerThrow

/-!
# Rethrown exceptions keep their cause

A throw statement may throw the exception that a catch clause has caught, and is then accepted
although no logger has made it.  The slots of the thrown expression are read off the expression as a
whole there, while the rule about causes reads slots off the identifiers inside the expression.  The
two agree where the name of every field access stands among its children, since identities are
aliases.

Main definition:

- `Tree.NamesFields`: the name of a field access stands among its children.

Main results:

- Theorem `CauseFlow.mentionsAlias_of_rethrowsCaught`: what reads the exception itself mentions an
  alias of it.
- Theorem `CauseKept.rethrown_keeps_cause`: a throw statement that rethrows what a clause has caught
  is not reported for this clause.
-/

namespace SdkLint

/-- Every field access has a child after its first one that is an identifier with the name of the
field. -/
def Tree.NamesFields (t : Tree) : Prop :=
  ∀ i < t.size, t.kind i = .fieldAccess →
    ∃ c ∈ (t.children i).tail, t.kind c = .ident ∧ t.token c = t.token i

instance (t : Tree) : Decidable t.NamesFields :=
  inferInstanceAs (Decidable (∀ i < t.size, t.kind i = .fieldAccess →
    ∃ c ∈ (t.children i).tail, t.kind c = .ident ∧ t.token c = t.token i))

namespace Tree

variable {t : Tree} {i p : Nat}

/-- An identifier below a node that declares and calls nothing reads a value. -/
theorem isValueReference_of_parent (hparent : t.parent i = some p)
    (hkind : t.kind p = .throwStmt ∨ t.kind p = .fieldAccess ∨ t.kind p = .other) :
    t.isValueReference i = true := by
  have hmethod : t.isMethodName i = false := by
    rcases hkind with hkind | hkind | hkind <;> simp [isMethodName, hparent, hkind]
  rcases hkind with hkind | hkind | hkind <;> simp [isValueReference, hparent, hkind, hmethod]

/-- The name of a field access is the name of a member. -/
theorem isMemberName_of_mem_tail (hkind : t.kind p = .fieldAccess)
    (htail : i ∈ (t.children p).tail) (htoken : t.token i = t.token p) :
    t.isMemberName i = true := by
  have hparent : t.parent i = some p := t.mem_children.1 (List.mem_of_mem_tail htail)
  have hfirst : (t.children p).head? ≠ some i := by
    have hnodup := t.nodup_children p
    rcases hchildren : t.children p with _ | ⟨first, rest⟩
    · simp
    · rw [hchildren] at hnodup htail
      rw [List.head?_cons, ne_eq, Option.some.injEq]
      rintro rfl
      exact (List.nodup_cons.1 hnodup).1 htail
  simp [isMemberName, hparent, hkind, hfirst, htoken]

end Tree

namespace CauseFlow

variable {t : Tree} {body statement expr : Nat} {caught : String}

/-- What holds the exception itself holds something made from it. -/
theorem mem_aliases_of_mem_identities {slot : Slot} (h : slot ∈ (trace t body caught).identities) :
    slot ∈ (trace t body caught).aliases :=
  (Tracing.valid_of_reaches (Tracing.run_reaches t body caught (.start caught)).1).identities_subset
    slot h

/-- An identifier of an expression that reads a value and may mean an alias is a mention of it. -/
theorem mentionsAlias_of_mem {flow : CauseFlow} {i : Nat} {slot : Slot}
    (hmem : i ∈ t.subtree expr) (hkind : t.kind i = .ident) (hreads : t.isValueReference i = true)
    (hslot : slot ∈ slotsOf t flow.locals i) (halias : slot ∈ flow.aliases) :
    flow.mentionsAlias t expr = true := by
  refine List.any_eq_true.2 ⟨i, hmem, ?_⟩
  have hslots : (slotsOf t flow.locals i).any flow.aliases.contains = true :=
    List.any_eq_true.2 ⟨slot, hslot, List.contains_iff_mem.2 halias⟩
  simp [hkind, hreads, hslots]

/-- The slots of a field access are those of the name of its field. -/
theorem slotsOf_fieldAccess {locals : List String} {c : Nat} (hexpr : t.kind expr = .fieldAccess)
    (hc : c ∈ (t.children expr).tail) (hident : t.kind c = .ident)
    (htoken : t.token c = t.token expr) : slotsOf t locals c = slotsOf t locals expr := by
  have hmember := Tree.isMemberName_of_mem_tail hexpr hc htoken
  unfold slotsOf
  rw [htoken, hident, hexpr]
  cases t.token expr with
  | none => rfl
  | some name => simp [hmember]

/-- An expression that reads the exception itself mentions an alias of it, if it stands in a throw
statement or in parentheses or a cast. -/
theorem mentionsAlias_of_rethrowsCaught (hfields : t.NamesFields) {p : Nat}
    (hparent : t.parent expr = some p) (hkind : t.kind p = .throwStmt ∨ t.kind p = .other)
    (h : (trace t body caught).rethrowsCaught t expr = true) :
    (trace t body caught).mentionsAlias t expr = true := by
  simp only [rethrowsCaught, Bool.and_eq_true, Bool.or_eq_true, beq_iff_eq] at h
  obtain ⟨hexpr, hslots⟩ := h
  obtain ⟨slot, hslot, hidentity⟩ := List.any_eq_true.1 hslots
  have halias := mem_aliases_of_mem_identities (List.contains_iff_mem.1 hidentity)
  rcases hexpr with hident | haccess
  · -- A bare identifier is the mention itself.
    have hreads := Tree.isValueReference_of_parent hparent (hkind.imp_right Or.inr)
    exact mentionsAlias_of_mem List.mem_cons_self hident hreads hslot halias
  · have hsize : expr < t.size := Tree.lt_size_of_kind (by simp [haccess])
    obtain ⟨c, hc, hident, htoken⟩ := hfields expr hsize haccess
    have hchild : t.parent c = some expr := t.mem_children.1 (List.mem_of_mem_tail hc)
    have hmem : c ∈ t.subtree expr := by
      rw [Tree.mem_subtree_iff, Tree.lineage_of_parent hchild]
      exact List.mem_cons_of_mem _ (Tree.mem_lineage_self t expr)
    have hreads := Tree.isValueReference_of_parent hchild (Or.inr (Or.inl haccess))
    rw [← slotsOf_fieldAccess haccess hc hident htoken] at hslot
    exact mentionsAlias_of_mem hmem hident hreads hslot halias

/-- What a throw statement throws stands in the statement or in parentheses or a cast. -/
theorem parent_of_thrownExpression (h : t.thrownExpression statement = some expr) :
    ∃ p, t.parent expr = some p ∧ (p = statement ∨ t.kind p = .other) := by
  obtain ⟨operand, hoperand, rfl⟩ := Option.map_eq_some_iff.1 h
  have hparent : t.parent operand = some statement :=
    t.mem_children.1 (Tree.mem_children_of_mem_operands (List.mem_of_head? hoperand))
  rcases (t.wraps_unwrap operand).parent_transparent with hbare | ⟨p, hp, htransparent⟩
  · rw [hbare]
    exact ⟨statement, hparent, Or.inl rfl⟩
  · exact ⟨p, hp, Or.inr (Tree.kind_of_isTransparent htransparent)⟩

/-- A throw statement that rethrows the exception is related to it. -/
theorem notMem_unrelatedThrows (hfields : t.NamesFields)
    (hexpr : t.thrownExpression statement = some expr)
    (h : (trace t body caught).rethrowsCaught t expr = true) :
    statement ∉ (trace t body caught).unrelatedThrows t := by
  intro hmem
  obtain ⟨hthrows, hunrelated⟩ := List.mem_filter.1 hmem
  have hkind : t.kind statement = .throwStmt := by simpa using (List.mem_filter.1 hthrows).2
  obtain ⟨p, hparent, hp⟩ := parent_of_thrownExpression hexpr
  have hplace : t.kind p = .throwStmt ∨ t.kind p = .other := by
    rcases hp with rfl | hp
    · exact Or.inl hkind
    · exact Or.inr hp
  have hmentions := mentionsAlias_of_rethrowsCaught hfields hparent hplace h
  simp [hexpr, hmentions] at hunrelated

theorem clauseParts_eq_some {clause : Nat} :
    clauseParts t clause = some (caught, body) ↔
      (t.child clause .catchParam).bind t.name = some caught ∧
        t.child clause .block = some body := by
  unfold clauseParts
  split
  · next hcaught hbody => simp [hcaught, hbody]
  · next hnone => exact ⟨fun h => (nomatch h), fun h => (hnone _ _ h.1 h.2).elim⟩

end CauseFlow

namespace CauseKept

open CauseFlow

/-- At a catch clause the rule reports the throw statements that have nothing to do with what is
caught there, all in the same words. -/
theorem judge_of_clauseParts (policy : ExceptionPolicy) (cx : Context) {clause body : Nat}
    {caught : String} (h : clauseParts cx.tree clause = some (caught, body)) :
    ∃ message help, judge policy cx clause =
      .report (((trace cx.tree body caught).unrelatedThrows cx.tree).map fun statement =>
        cx.tree.finding statement message help) := by
  obtain ⟨hcaught, hbody⟩ := clauseParts_eq_some.1 h
  simp only [judge, hcaught, hbody, Verdict.require]
  exact ⟨_, _, rfl⟩

/-- What the rules about rethrown exceptions and about causes agree on: a throw statement that
rethrows the exception that a clause has caught is related to it, so that the rule about causes,
which reports the unrelated statements of a clause one by one, does not report it for this clause. -/
theorem rethrown_keeps_cause (rules : List ActiveRule) (input : WalkInput)
    (policy : ExceptionPolicy) {clause body statement expr : NodeId} {caught : String}
    (fields : input.tree.NamesFields)
    (parts : clauseParts input.tree clause = some (caught, body))
    (thrown : input.tree.thrownExpression statement = some expr)
    (rethrows : (trace input.tree body caught).rethrowsCaught input.tree expr = true) :
    statement ∉ (trace input.tree body caught).unrelatedThrows input.tree ∧
      ∀ call ∈ (walk rules input).calls,
        (rules[call.rule]?).map ActiveRule.rule = some (rule policy) → call.hook = .enter clause →
        ∃ message help, call.verdict =
          .report (((trace input.tree body caught).unrelatedThrows input.tree).map fun other =>
            input.tree.finding other message help) := by
  refine ⟨notMem_unrelatedThrows fields thrown rethrows, fun call hcall hrule hhook => ?_⟩
  rw [verdict_ofNodes rfl hcall hrule, hhook]
  exact judge_of_clauseParts policy (input.context call.scopes) parts

/-- A catch clause that stores what it has caught in a field and rethrows it in parentheses, and
then throws something else. -/
def rethrowClause : Outline :=
  let part (kind : NodeKind) (token : Option String) (below : List Outline) : Outline :=
    .node kind ⟨0, 0⟩ ⟨1, 1⟩ token below
  let name (text : String) : Outline := part .ident (some text) []
  let field : Outline := part .fieldAccess (some "s") [part .thisRef none [], name "s"]
  part .catchClause none
    [part .catchParam none [part .typeName (some "E") [], name "e"],
      part .block none
        [part .exprStmt none [part .assign (some "=") [field, name "e"]],
          .node .throwStmt ⟨26, 41⟩ ⟨1, 27⟩ none [.node .other ⟨32, 40⟩ ⟨1, 33⟩ none [field]],
          .node .throwStmt ⟨42, 50⟩ ⟨1, 43⟩ none [name "x"]]]

/-- A walk around the clause. -/
def rethrowInput : WalkInput where
  file := .ofPath "A.java" "" ""
  tree := rethrowClause.toTree "catch (E e) \x7b this.s = e; throw (this.s); throw x; \x7d"
  resolver := fun _ => none

/-- The rule reports the second of the two throw statements only. -/
theorem rethrowInput_keeps_cause :
    rethrowInput.tree.NamesFields ∧
      clauseParts rethrowInput.tree 0 = some ("e", 4) ∧
      rethrowInput.tree.thrownExpression 11 = some 13 ∧
      (trace rethrowInput.tree 4 "e").rethrowsCaught rethrowInput.tree 13 = true ∧
      11 ∉ (trace rethrowInput.tree 4 "e").unrelatedThrows rethrowInput.tree ∧
      (emission [(rule {}).active] rethrowInput).map (fun v => v.location.column) = [43] := by
  have hfields : rethrowInput.tree.NamesFields := by decide +kernel
  have hparts : clauseParts rethrowInput.tree 0 = some ("e", 4) := by decide +kernel
  have hthrown : rethrowInput.tree.thrownExpression 11 = some 13 := by decide +kernel
  have hrethrows : (trace rethrowInput.tree 4 "e").rethrowsCaught rethrowInput.tree 13 = true := by
    decide +kernel
  have hkept := rethrown_keeps_cause [(rule {}).active] rethrowInput {} hfields hparts hthrown
    hrethrows
  exact ⟨hfields, hparts, hthrown, hrethrows, hkept.1, by decide +kernel⟩

end CauseKept

end SdkLint
