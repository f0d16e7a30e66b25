import SdkLint.Proofs.Exceptions.Thrown
import SdkLint.Proofs.Walk.Answers
import SdkLint.Rules.LoggerThrow

/-!
# Exceptions that are stored and then thrown

A factory logs an exception and hands it back.  Its result may be stored in a variable that is
thrown later on in the same callable.  The rule that logged exceptions are thrown goes up from the
call to where its result is stored and then looks for the throw statement; the rule that exceptions
are thrown through the logger goes down from the throw statement and looks for the call.  They agree
on the two ends, however many parentheses and casts there are at each.

Main definitions:

- `Tree.Gives`: a declarator or an assignment gives a value to a variable.
- `Tree.IsStoredIn`, `Tree.ThrowsVariable`: the two ends.

Main results:

- Theorem `LoggedThrown.fateOf_of_isStoredIn`: going up from a call that is stored finds where.
- Theorem `LoggerThrow.holdsFactoryResult_of_isStoredIn`: going down from a callable finds the call.
- Theorem `stored_then_thrown_passes`: both rules pass.
-/

namespace SdkLint

/-! ## The two ends -/

namespace Tree

/-- `t.Gives i value x`: the node `i` gives a value to the variable `x`.  It is a declarator that
begins with the name and has the value and dimensions besides, or an assignment to the bare name. -/
inductive Gives (t : Tree) : NodeId → NodeId → String → Prop
  | declared {i name value : NodeId} {rest : List NodeId} {x : String} :
      t.kind i = .varDeclarator → t.children i = name :: rest → t.kind name = .ident →
      t.token name = some x → (rest.filter fun c => t.kind c != .dimensions) = [value] →
      Gives t i value x
  | assigned {i target value : NodeId} {x : String} :
      t.kind i = .assign → t.children i = [target, value] → t.kind target = .ident →
      t.token target = some x → Gives t i value x

/-- The result of a call is stored in the variable `x`: the call in parentheses and casts is what a
declarator or an assignment gives to it. -/
def IsStoredIn (t : Tree) (call : NodeId) (x : String) : Prop :=
  ∃ i value, t.Gives i value x ∧ t.Wraps value call

/-- A throw statement throws the variable `x`: the only thing that it has is the bare name in
parentheses and casts. -/
def ThrowsVariable (t : Tree) (statement : NodeId) (x : String) : Prop :=
  t.kind statement = .throwStmt ∧ ∃ operand name, t.children statement = [operand] ∧
    t.Wraps operand name ∧ t.kind name = .ident ∧ t.token name = some x

variable {t : Tree} {i value call statement : Nat} {x : String}

theorem Gives.parent (h : t.Gives i value x) : t.parent value = some i := by
  cases h with
  | declared _ hchildren _ _ hvalue =>
      have hmem := List.mem_singleton_self value
      rw [← hvalue] at hmem
      rw [← t.mem_children, hchildren]
      exact List.mem_cons_of_mem _ (List.mem_filter.1 hmem).1
  | assigned _ hchildren _ _ =>
      rw [← t.mem_children, hchildren]
      exact List.mem_cons_of_mem _ (List.mem_singleton_self value)

theorem Gives.kind (h : t.Gives i value x) : t.kind i = .varDeclarator ∨ t.kind i = .assign := by
  cases h with
  | declared hkind _ _ _ _ => exact Or.inl hkind
  | assigned hkind _ _ _ => exact Or.inr hkind

/-- A declarator that begins with an identifier has its name. -/
theorem name_eq_of_children {first : Nat} {rest : List Nat} (h : t.children i = first :: rest)
    (hkind : t.kind first = .ident) : t.name i = t.token first := by
  have hchild : t.child i .ident = some first := by
    rw [child, h, List.find?_cons_of_pos (by simp [hkind])]
  rw [name, hchild]

/-- Nothing around a call is where the search for a callable ends. -/
theorem Wraps.not_ends (h : t.Wraps value call)
    (hcall : (t.kind call).endsCallableSearch = false) :
    (t.kind value).endsCallableSearch = false := by
  rcases h.kind with hkind | hkind <;> rw [hkind]
  · exact hcall
  · rfl

/-- The call and what stores its result have the same callable around them. -/
theorem Wraps.callableAround_eq (h : t.Wraps value call)
    (hcall : (t.kind call).endsCallableSearch = false) :
    t.callableAround call = t.callableAround value := by
  induction h with
  | bare => rfl
  | around _ hoperand hwraps ih =>
      rw [ih hcall, callableAround_eq_of_not_ends (hwraps.not_ends hcall),
        ancestors_of_parent (parent_of_operand hoperand)]
      rfl

/-- The callable around a call is above what stores its result. -/
theorem Gives.mem_ancestors (h : t.Gives i value x) (hwraps : t.Wraps value call)
    (hcall : t.kind call = .methodCall) {callable : Nat} {kind : CallableKind}
    (hcallable : t.callableAround call = some (callable, kind)) : callable ∈ t.ancestors i := by
  have hends : (t.kind call).endsCallableSearch = false := by
    rw [hcall]
    rfl
  have hplace : (t.kind i).endsCallableSearch = false := by
    rcases h.kind with hkind | hkind <;> rw [hkind] <;> rfl
  have hlineage : t.ancestors value = t.lineage i := ancestors_of_parent h.parent
  rw [hwraps.callableAround_eq hends, callableAround_eq_of_not_ends (hwraps.not_ends hends),
    hlineage, ← callableAround, callableAround_eq_of_not_ends hplace] at hcallable
  exact mem_of_callableIn hcallable

/-- What a throw statement throws is the variable. -/
theorem ThrowsVariable.thrownExpression (h : t.ThrowsVariable statement x) :
    ∃ name, t.thrownExpression statement = some name ∧ t.kind name = .ident ∧
      t.token name = some x := by
  obtain ⟨-, operand, name, hchildren, hwraps, hkind, htoken⟩ := h
  have hcomment := hwraps.kind_ne_comment (by simp [hkind])
  have hoperands : t.operands statement = [operand] := by simp [operands, hchildren, hcomment]
  have hunwrap := hwraps.unwrap_eq (not_isTransparent_of_kind (by simp [hkind]))
  exact ⟨name, by simp [Tree.thrownExpression, hoperands, hunwrap], hkind, htoken⟩

end Tree

variable {t : Tree} {call statement : Nat} {x : String}

/-! ## From the call upwards -/

namespace LoggedThrown

/-- Going up from a call whose result is stored finds the variable. -/
theorem fateOf_of_isStoredIn (h : t.IsStoredIn call x) : fateOf t call = .stored x := by
  obtain ⟨i, value, hgives, hwraps⟩ := h
  have hopaque : t.isTransparent i = false := by
    rcases hgives.kind with hkind | hkind <;> exact Tree.not_isTransparent_of_kind (by simp [hkind])
  have hsettle : settle t call (t.ancestors call) = some (value, i) := by
    rw [settle_of_wraps hwraps, Tree.ancestors_of_parent hgives.parent, Tree.lineage, settle,
      if_neg (Bool.eq_false_iff.1 hopaque)]
  rw [fateOf, hsettle]
  cases hgives with
  | declared hkind hchildren hident htoken _ =>
      simp [hkind, Tree.name_eq_of_children hchildren hident, htoken]
  | assigned hkind hchildren hident htoken =>
      rename_i target
      -- The target is not the value, for no child is listed twice.
      have hne : target ≠ value := by
        have hnodup := t.nodup_children i
        rw [hchildren] at hnodup
        simpa using hnodup
      simp [hkind, hchildren, hne, Tree.targetName, hident, htoken]

/-- A throw statement that throws a variable is found below every node above it. -/
theorem isThrownIn_of_throwsVariable (h : t.ThrowsVariable statement x) {callable : Nat}
    (hcallable : callable ∈ t.ancestors statement) : isThrownIn t callable x = true := by
  obtain ⟨name, hthrown, hkind, htoken⟩ := h.thrownExpression
  refine List.any_eq_true.2 ⟨statement, Tree.mem_descendants_iff.2 hcallable, ?_⟩
  simp [h.1, hthrown, Tree.targetName, hkind, htoken]

/-- A call whose result is stored and thrown in the callable around it passes. -/
theorem judge_of_isStoredIn (policy : ExceptionPolicy) {cx : Context}
    (hstored : cx.tree.IsStoredIn call x)
    (hthrown : ∀ callable kind, cx.scopes.enclosingCallable = some (callable, kind) →
      isThrownIn cx.tree callable x = true) : judge policy cx call = .pass := by
  simp only [judge, fateOf_of_isStoredIn hstored]
  split
  · rfl
  · rcases hcallable : cx.scopes.enclosingCallable with _ | ⟨callable, kind⟩
    · rfl
    · simp only [hthrown callable kind hcallable, if_true]

end LoggedThrown

/-! ## From the throw statement downwards -/

namespace LoggerThrow

/-- What is given to a variable is found there. -/
theorem valueFor_of_gives {i value : Nat} (h : t.Gives i value x)
    (hvalue : t.kind value ≠ .comment) : valueFor t (some x) i = some value := by
  cases h with
  | declared hkind hchildren hident htoken hrest =>
      rename_i rest
      have hname : t.name i = some x := (Tree.name_eq_of_children hchildren hident).trans htoken
      have hinitializer : t.initializer i = some value := by
        have hfind : (rest.filter fun c => t.kind c != .dimensions).find?
            (fun c => t.kind c != .comment) = some value := by simp [hrest, hvalue]
        simp only [List.find?_filter, Bool.decide_and, Bool.decide_eq_true] at hfind
        rw [Tree.initializer, if_pos (by simp [hkind]), hchildren, List.tail_cons, hfind]
      simp [valueFor, hkind, hname, hinitializer]
  | assigned hkind hchildren hident htoken =>
      simp [valueFor, hkind, hchildren, hident, htoken]

/-- Going down from the callable finds the call whose result a variable holds. -/
theorem holdsFactoryResult_of_isStoredIn {policy : ExceptionPolicy} {name callable : Nat}
    {kind : CallableKind} (hfactory : policy.isFactoryCall t call = true)
    (hstored : t.IsStoredIn call x) (hcallable : t.callableAround call = some (callable, kind))
    (hkind : t.kind name = .ident) (htoken : t.token name = some x) :
    holdsFactoryResult policy t callable name = true := by
  obtain ⟨i, value, hgives, hwraps⟩ := hstored
  have hcall : t.kind call = .methodCall := by
    simp only [ExceptionPolicy.isFactoryCall, Bool.and_eq_true, beq_iff_eq] at hfactory
    exact hfactory.1
  have hbelow : i ∈ t.descendants callable :=
    Tree.mem_descendants_iff.2 (hgives.mem_ancestors hwraps hcall hcallable)
  have hvalue := valueFor_of_gives hgives (hwraps.kind_ne_comment (by simp [hcall]))
  have hunwrap := hwraps.unwrap_eq (Tree.not_isTransparent_of_kind (by simp [hcall]))
  rw [holdsFactoryResult, hkind, htoken, beq_self_eq_true, Bool.true_and]
  exact List.any_eq_true.2 ⟨i, hbelow, by simp [hvalue, hunwrap, hfactory]⟩

/-- A throw statement of a variable that holds the result of a factory in the callable around it
passes, and so does one that is in no callable. -/
theorem judge_of_holdsFactoryResult (policy : ExceptionPolicy) {cx : Context} {expr : Nat}
    (hexpr : cx.tree.thrownExpression statement = some expr)
    (hholds : ∀ callable kind, cx.scopes.enclosingCallable = some (callable, kind) →
      holdsFactoryResult policy cx.tree callable expr = true) :
    judge policy cx statement = .pass := by
  simp only [judge, hexpr, Verdict.require]
  rcases hcallable : cx.scopes.enclosingCallable with _ | ⟨callable, kind⟩
  · have hexempt : isExempt policy cx = true := by simp [isExempt, hcallable]
    simp [hexempt]
  · simp [hholds callable kind hcallable]

end LoggerThrow

/-! ## Both ends -/

/-- A factory call whose result is stored in a variable, and a throw statement in the same callable
that throws this variable: the rule that logged exceptions are thrown passes the call, and the rule
that exceptions are thrown through the logger passes the statement. -/
theorem stored_then_thrown_passes (rules : List ActiveRule) (input : WalkInput)
    (policy : ExceptionPolicy) {call statement : NodeId} {x : String}
    (factory : policy.isFactoryCall input.tree call = true)
    (stored : input.tree.IsStoredIn call x)
    (thrown : input.tree.ThrowsVariable statement x)
    (same : input.tree.callableAround statement = input.tree.callableAround call) :
    PassesAt rules input (LoggedThrown.rule policy) call ∧
      PassesAt rules input (LoggerThrow.rule policy) statement := by
  constructor
  · refine passesAt_ofNodes rfl fun scopes haround => ?_
    refine LoggedThrown.judge_of_isStoredIn policy stored fun callable kind hcallable => ?_
    have hstatement : input.tree.callableAround statement = some (callable, kind) :=
      same.trans (haround.enclosingCallable.symm.trans hcallable)
    rw [Tree.callableAround_eq_of_not_ends (by rw [thrown.1]; rfl)] at hstatement
    exact LoggedThrown.isThrownIn_of_throwsVariable thrown (Tree.mem_of_callableIn hstatement)
  · refine passesAt_ofNodes rfl fun scopes haround => ?_
    obtain ⟨name, hexpr, hkind, htoken⟩ := thrown.thrownExpression
    refine LoggerThrow.judge_of_holdsFactoryResult policy hexpr fun callable kind hcallable => ?_
    have hcall : input.tree.callableAround call = some (callable, kind) :=
      same.symm.trans (haround.enclosingCallable.symm.trans hcallable)
    exact LoggerThrow.holdsFactoryResult_of_isStoredIn factory stored hcall hkind htoken

/-- A method that stores the result of a factory and throws it, both in parentheses. -/
def storingMethod : Outline :=
  let part (kind : NodeKind) (token : Option String) (below : List Outline) : Outline :=
    .node kind ⟨0, 0⟩ ⟨1, 1⟩ token below
  let name (text : String) : Outline := part .ident (some text) []
  let call : Outline := part .methodCall (some "logExceptionAsError")
    [name "log", name "logExceptionAsError", part .argumentList none [name "y"]]
  part .classDef none [name "A", part .classBody none [part .methodDef none [name "m",
    part .block none
      [part .localVarDecl none [part .typeName (some "E") [],
        part .varDeclarator none [name "x", .node .other ⟨27, 55⟩ ⟨1, 28⟩ none [call]]],
      part .throwStmt none [.node .other ⟨63, 66⟩ ⟨1, 64⟩ none [name "x"]]]]]]

/-- A walk around the method. -/
def storingInput : WalkInput where
  file := .ofPath "A.java" "" ""
  tree := storingMethod.toTree
    "class A { void m() { E x = (log.logExceptionAsError(y)); throw (x); } }"
  resolver := fun _ => none

/-- The two rules. -/
def storingRules : List ActiveRule :=
  [(LoggedThrown.rule {}).active, (LoggerThrow.rule {}).active]

/-- Both rules are called and pass. -/
theorem storingInput_passes :
    ExceptionPolicy.isFactoryCall {} storingInput.tree 11 = true ∧
      storingInput.tree.IsStoredIn 11 "x" ∧ storingInput.tree.ThrowsVariable 16 "x" ∧
      storingInput.tree.callableAround 16 = storingInput.tree.callableAround 11 ∧
      PassesAt storingRules storingInput (LoggedThrown.rule {}) 11 ∧
      PassesAt storingRules storingInput (LoggerThrow.rule {}) 16 ∧
      ((walk storingRules storingInput).calls.map fun call => (call.rule, call.hook)) =
        [(0, .enter 11), (0, .leave 11), (1, .enter 16), (1, .leave 16), (0, .finish),
          (1, .finish)] := by
  have hfactory : ExceptionPolicy.isFactoryCall {} storingInput.tree 11 = true := by
    decide +kernel
  have hdeclarator : storingInput.tree.children 8 = [9, 10] := by decide +kernel
  have hstored : storingInput.tree.IsStoredIn 11 "x" :=
    ⟨8, 10, .declared (by decide +kernel) hdeclarator (by decide +kernel) (by decide +kernel)
      (by decide +kernel), .around (by decide +kernel) (by decide +kernel) (.bare 11)⟩
  have hthrown : storingInput.tree.ThrowsVariable 16 "x" :=
    ⟨by decide +kernel, 17, 18, by decide +kernel,
      .around (by decide +kernel) (by decide +kernel) (.bare 18), by decide +kernel,
      by decide +kernel⟩
  have hsame : storingInput.tree.callableAround 16 = storingInput.tree.callableAround 11 := by
    decide +kernel
  obtain ⟨hlogged, hlogger⟩ :=
    stored_then_thrown_passes storingRules storingInput {} hfactory hstored hthrown hsame
  exact ⟨hfactory, hstored, hthrown, hsame, hlogged, hlogger, by decide +kernel⟩

end SdkLint
