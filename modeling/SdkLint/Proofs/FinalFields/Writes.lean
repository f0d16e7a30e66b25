import SdkLint.Proofs.FinalFields.Run

/-!
# How writes are written

A write names its target as `this.x`, as a bare `x` or as the field of something else.  What it is
attributed to can be told from the form of the target, the callable around it and the type
declarations around it.

Main definitions:

- `Writes`, `WritesThis`, `WritesBare`, `WritesNamed`: a write and the form of its target.
- `constructorOnly`, `neverReassigned`: the two findings about a candidate.
- `expectedAmong`: the finding about a candidate if only some nodes count as writes.
- `findingsAt`: what the rule at a place of the list reports.

Main results:

- Theorems `attribution_of_writesThis` and `attribution_of_writesBare`: what a write of each form is
  attributed to.
- Theorem `exists_of_attribution`: a write names what it is attributed to.
- Theorem `findingsAt_eq`: among any other rules, the rule reports what is expected.
-/

namespace SdkLint.FinalFields

/-! ## Forms of targets -/

/-- A node writes a target: it is an assignment, an increment or a decrement, and the target is its
first operand. -/
def Writes (t : Tree) (w target : NodeId) : Prop :=
  (t.kind w = .assign ∨ t.kind w = .update) ∧ (t.operands w).head? = some target

instance (t : Tree) (w target : NodeId) : Decidable (Writes t w target) :=
  inferInstanceAs (Decidable (_ ∧ _))

/-- A node writes `this.x`. -/
def WritesThis (t : Tree) (w : NodeId) (x : String) : Prop :=
  ∃ target object, Writes t w target ∧ t.kind target = .fieldAccess ∧ t.token target = some x ∧
    (t.children target).head? = some object ∧ t.kind object = .thisRef

/-- A node writes a bare `x`. -/
def WritesBare (t : Tree) (w : NodeId) (x : String) : Prop :=
  ∃ target, Writes t w target ∧ t.kind target = .ident ∧ t.token target = some x

/-- A node writes something that is named `x`: a bare `x`, `this.x` or any `o.x`. -/
def WritesNamed (t : Tree) (w : NodeId) (x : String) : Prop :=
  ∃ target, Writes t w target ∧ t.targetName target = some x

variable {o : Options} {t : Tree} {w d : Nat} {x : String}

theorem WritesThis.writesNamed (h : WritesThis t w x) : WritesNamed t w x := by
  obtain ⟨target, -, hwrites, hkind, htoken, -⟩ := h
  exact ⟨target, hwrites, by simp [Tree.targetName, hkind, htoken]⟩

/-! ## Attribution by form -/

/-- What a write inside a callable is attributed to is what its target means. -/
theorem attribution_of_writes {target callable : Nat} {kind : CallableKind}
    (hwrites : Writes t w target) (hcallable : t.callableAround w = some (callable, kind)) :
    attribution o t w =
      ((targetOf t callable (t.typesAround w).head? target).bind
        (Target.declarator o t (t.typesAround w))).map fun d => (d, kind) := by
  rw [attribution, if_pos (by simpa using hwrites.1), hwrites.2, hcallable]

/-- Outside of callables nothing is attributed. -/
theorem attribution_of_no_callable (h : t.callableAround w = none) : attribution o t w = none := by
  unfold attribution
  split
  · rw [h]
    split
    · rename_i heq
      cases heq
    · rfl
  · rfl

/-- A write to `this.x` inside a callable goes to the last candidate `x` of the innermost type
declaration. -/
theorem attribution_of_writesThis {callable : Nat} {kind : CallableKind} (h : WritesThis t w x)
    (hcallable : t.callableAround w = some (callable, kind)) :
    attribution o t w =
      ((t.typesAround w).head?.bind (lastNamed o t x)).map fun d => (d, kind) := by
  obtain ⟨target, object, hwrites, hkind, htoken, hobject, hthis⟩ := h
  have htarget : targetOf t callable (t.typesAround w).head? target = some (.own x) := by
    simp [targetOf, hkind, htoken, hobject, hthis]
  rw [attribution_of_writes hwrites hcallable, htarget]
  rfl

/-- A write to a bare `x` inside a callable that has no parameter and no local `x` goes to the last
candidate `x` of the innermost type declaration that has one. -/
theorem attribution_of_writesBare {callable : Nat} {kind : CallableKind} (h : WritesBare t w x)
    (hcallable : t.callableAround w = some (callable, kind))
    (hfree : declaresName t callable x = false) :
    attribution o t w =
      ((t.typesAround w).findSome? (lastNamed o t x)).map fun d => (d, kind) := by
  obtain ⟨target, hwrites, hkind, htoken⟩ := h
  have htarget : targetOf t callable (t.typesAround w).head? target = some (.bare x) := by
    simp [targetOf, hkind, htoken, hfree]
  rw [attribution_of_writes hwrites hcallable, htarget]
  rfl

theorem name_of_lastNamed {owner : Nat} (h : lastNamed o t x owner = some d) :
    t.name d = some x := by
  simpa using List.of_mem_filter (List.mem_of_getLast? h)

/-- The only candidate of its name is the last one. -/
theorem lastNamed_of_unique {owner : Nat} (hd : d ∈ declaratorsOf o t owner)
    (hname : t.name d = some x)
    (hunique : ∀ d' ∈ declaratorsOf o t owner, t.name d' = some x → d' = d) :
    lastNamed o t x owner = some d := by
  have hmem : d ∈ (declaratorsOf o t owner).filter fun d => t.name d == some x :=
    List.mem_filter.2 ⟨hd, by simp [hname]⟩
  obtain ⟨last, hlast⟩ := Option.isSome_iff_exists.1
    (List.getLast?_isSome.2 (List.ne_nil_of_mem hmem))
  have hlast' : lastNamed o t x owner = some last := hlast
  rw [hlast', hunique last (mem_of_lastNamed hlast') (name_of_lastNamed hlast')]

/-- A target names the candidate that it means. -/
theorem name_of_targetOf {callable target : Nat} {owner : Option Nat} {owners : List Nat}
    {resolved : Target} (htarget : targetOf t callable owner target = some resolved)
    (hd : resolved.declarator o t owners = some d) : t.targetName target = t.name d := by
  have hname : ∀ x, resolved = .own x ∨ resolved = .bare x → t.name d = some x := by
    rintro x (rfl | rfl)
    · obtain ⟨owner, -, hlast⟩ := Option.bind_eq_some_iff.1 hd
      exact name_of_lastNamed hlast
    · obtain ⟨owner, -, hlast⟩ := List.exists_of_findSome?_eq_some hd
      exact name_of_lastNamed hlast
  unfold targetOf at htarget
  split at htarget
  · rename_i x hkind htoken
    split at htarget
    · obtain rfl := Option.some.inj htarget
      rw [hname x (Or.inr rfl)]
      simp [Tree.targetName, hkind, htoken]
    · cases htarget
  · rename_i x hkind htoken
    have hown : resolved = .own x := by
      obtain ⟨object, -, hobject⟩ := Option.bind_eq_some_iff.1 htarget
      split at hobject
      · exact (Option.some.inj hobject).symm
      · split at hobject
        · obtain ⟨instance_, -, hinstance⟩ := Option.bind_eq_some_iff.1 hobject
          split at hinstance
          · exact (Option.some.inj hinstance).symm
          · cases hinstance
        · cases hobject
    rw [hname x (Or.inl hown)]
    simp [Tree.targetName, hkind, htoken]
  · cases htarget

/-- What is attributed to a candidate is a write inside a callable that names it. -/
theorem exists_of_attribution {kind : CallableKind} (h : attribution o t w = some (d, kind)) :
    ∃ callable x, t.callableAround w = some (callable, kind) ∧ t.name d = some x ∧
      WritesNamed t w x := by
  have hkind := kind_of_attribution h
  cases htarget : (t.operands w).head? with
  | none => simp [attribution, htarget] at h
  | some target =>
      cases hcallable : t.callableAround w with
      | none =>
          rw [attribution_of_no_callable hcallable] at h
          cases h
      | some around =>
          obtain ⟨callable, sort⟩ := around
          have hwrites : Writes t w target := ⟨hkind, htarget⟩
          rw [attribution_of_writes hwrites hcallable] at h
          obtain ⟨d', hd', heq⟩ := Option.map_eq_some_iff.1 h
          obtain ⟨rfl, rfl⟩ := Prod.mk.inj heq
          obtain ⟨resolved, hresolved, hmeans⟩ := Option.bind_eq_some_iff.1 hd'
          obtain ⟨owner, -, hmem⟩ := Target.mem_of_declarator hmeans
          have hnamed := isNamed_of_mem_declaratorsOf hmem
          rw [isNamed, Bool.and_eq_true, Option.isSome_iff_exists] at hnamed
          obtain ⟨⟨x, hx⟩, -⟩ := hnamed
          exact ⟨callable, x, rfl, hx, target, hwrites,
            (name_of_targetOf hresolved hmeans).trans hx⟩

/-! ## Sorts of writes -/

theorem sortAt_eq_some_iff {kind : CallableKind} :
    sortAt o t d w = some kind ↔ attribution o t w = some (d, kind) := by
  unfold sortAt
  split
  · rename_i d' sort heq
    by_cases hsame : d' = d
    · simp [heq, hsame]
    · simp [heq, hsame]
  · rename_i heq
    simp [heq]

/-- A candidate is written in callables of a sort exactly if a write in one of them is attributed to
it. -/
theorem mem_sortsAmong {kind : CallableKind} :
    kind ∈ sortsAmong o t (List.range t.size) d ↔ ∃ w, attribution o t w = some (d, kind) := by
  simp only [sortsAmong, List.mem_filterMap, sortAt_eq_some_iff]
  constructor
  · rintro ⟨w, -, h⟩
    exact ⟨w, h⟩
  · rintro ⟨w, h⟩
    exact ⟨w, List.mem_range.2 (lt_size_of_write (kind_of_attribution h)), h⟩

/-- Nodes that do not write a candidate can be left out. -/
theorem sortsAmong_filter_ne {nodes : List Nat}
    (h : ∀ kind, attribution o t w ≠ some (d, kind)) :
    sortsAmong o t (nodes.filter (· ≠ w)) d = sortsAmong o t nodes d := by
  have hnone : sortAt o t d w = none := by
    cases hsort : sortAt o t d w with
    | none => rfl
    | some kind => exact absurd (sortAt_eq_some_iff.1 hsort) (h kind)
  rw [sortsAmong, sortsAmong, List.filterMap_filter]
  refine List.filterMap_congr fun v _ => ?_
  by_cases hv : v = w
  · simp [hv, hnone]
  · simp [hv]

/-! ## The two findings -/

/-- The finding that a candidate is only written in constructors. -/
def constructorOnly (t : Tree) (d : NodeId) : Finding :=
  t.finding ((t.nameNode d).getD d)
    ("Field '" ++ (t.name d).getD "" ++ "' is only assigned in constructors and should be final")
    (some ("Declare '" ++ (t.name d).getD "" ++ "' as final"))

/-- The finding that a candidate is initialized and never written. -/
def neverReassigned (t : Tree) (d : NodeId) : Finding :=
  t.finding ((t.nameNode d).getD d)
    ("Field '" ++ (t.name d).getD "" ++
      "' is initialized at its declaration and never reassigned; it should be final")
    (some ("Declare '" ++ (t.name d).getD "" ++ "' as final"))

theorem constructorOnly_ne_neverReassigned (t : Tree) (d : Nat) :
    constructorOnly t d ≠ neverReassigned t d := by
  intro h
  have hmessage := congrArg (fun finding => finding.message.toList) h
  simp [constructorOnly, neverReassigned, Tree.finding] at hmessage

/-- The finding about a candidate if only some nodes count as writes. -/
def expectedAmong (o : Options) (t : Tree) (nodes : List NodeId) (d : NodeId) : Option Finding :=
  if .constructor ∈ sortsAmong o t nodes d ∧ .method ∉ sortsAmong o t nodes d then
    some (constructorOnly t d)
  else if (t.initializer d).isSome ∧ sortsAmong o t nodes d = [] then some (neverReassigned t d)
  else none

theorem expected_eq (o : Options) (t : Tree) (d : Nat) :
    expected o t d = expectedAmong o t (List.range t.size) d :=
  rfl

/-- Nothing is attributed to a candidate that is reported as never written. -/
theorem attribution_ne_of_neverReassigned (h : expected o t d = some (neverReassigned t d))
    (w : Nat) (kind : CallableKind) : attribution o t w ≠ some (d, kind) := by
  intro hattr
  have hmem := mem_sortsAmong.2 ⟨w, hattr⟩
  rw [expected_eq, expectedAmong] at h
  split at h
  · exact constructorOnly_ne_neverReassigned t d (Option.some.inj h)
  · split at h
    · rename_i hnone
      rw [hnone.2] at hmem
      cases hmem
    · cases h

/-! ## Reports -/

/-- The findings that the rule at a place of the list reports in a walk, in order. -/
def findingsAt (rules : List ActiveRule) (input : WalkInput) (place : Nat) : List Finding :=
  ((walk rules input).calls.filter fun call => call.rule == place).flatMap fun call =>
    call.verdict.findings

/-- Among any other rules, the rule reports what is expected about the candidates, one by one. -/
theorem findingsAt_eq {rules : List ActiveRule} {place : Nat} {severity : Severity}
    (hrule : rules[place]? = some ⟨rule o, severity⟩) (input : WalkInput) :
    findingsAt rules input place =
      (candidateDeclarators o input.tree).filterMap (expected o input.tree) := by
  have halone := findsFinalFields_alone o severity input
  rw [← calls_alone hrule input] at halone
  rw [← halone.findings, findingsAt, List.flatMap_map]
  rfl

end SdkLint.FinalFields
