import SdkLint.Proofs.FinalFields.Attribution

/-!
# Frames and the writes met so far

The frame of a type declaration is determined by the nodes that the walk has entered: a candidate is
flagged exactly if one of them writes it in a callable of the sort.  Every step of the check brings
the frames from one set of nodes to the next.

Main definitions:

- `candidateAfter`, `frameAfter`: a candidate and a frame once some nodes have been entered.
- `stateAfter`: the state of the check once some nodes have been entered and some left.

Main results:

- Theorem `candidatesOf_eq`: a new frame is one with no writes.
- Theorem `write_eq`: noting a write flags the candidate that the target means, and no other.
- Theorem `enter_eq` and `leave_eq`: what the check does on entering and on leaving a node.
-/

namespace SdkLint.FinalFields

variable {o : Options} {t : Tree}

/-! ## Frames as functions of the nodes entered -/

/-- A candidate once some nodes have been entered. -/
def candidateAfter (o : Options) (t : Tree) (nodes : List NodeId) (d : NodeId) : Candidate where
  name := (t.name d).getD ""
  anchor := (t.nameNode d).getD d
  initialized := (t.initializer d).isSome
  constructorWrite := (sortsAmong o t nodes d).contains .constructor
  methodWrite := (sortsAmong o t nodes d).contains .method

/-- The frame of a type declaration once some nodes have been entered. -/
def frameAfter (o : Options) (t : Tree) (nodes : List NodeId) (owner : NodeId) : Frame where
  owner := owner
  fields := (declaratorsOf o t owner).map (candidateAfter o t nodes)

/-- The candidates of a type declaration start with no writes. -/
theorem candidatesOf_eq (o : Options) (t : Tree) (owner : Nat) :
    candidatesOf o t owner = (declaratorsOf o t owner).map (candidateAfter o t []) := by
  unfold candidatesOf declaratorsOf
  split
  · rw [List.map_flatMap, List.map_flatMap]
    refine List.flatMap_congr fun m _ => ?_
    unfold Tree.namedDeclarators
    induction t.childrenOf m .varDeclarator with
    | nil => rfl
    | cons d ds ih =>
        rw [List.filterMap_cons, List.filter_cons, isNamed]
        rcases hname : t.name d with _ | name
        · simpa using ih
        · rcases hanchor : t.nameNode d with _ | anchor
          · simpa using ih
          · simpa [candidateAfter, sortsAmong, hname, hanchor] using ih
  · rfl

/-- A candidate depends only on the nodes that write it. -/
theorem candidateAfter_congr {nodes nodes' : List Nat} {d : Nat}
    (h : ∀ w kind, attribution o t w = some (d, kind) → (w ∈ nodes ↔ w ∈ nodes')) :
    candidateAfter o t nodes d = candidateAfter o t nodes' d := by
  have hsorts : ∀ kind, (sortsAmong o t nodes d).contains kind =
      (sortsAmong o t nodes' d).contains kind := by
    intro kind
    have hat : ∀ w, sortAt o t d w = some kind → (w ∈ nodes ↔ w ∈ nodes') := by
      intro w hw
      unfold sortAt at hw
      split at hw
      · rename_i d' kind' hattr
        split at hw
        · rename_i heq
          exact h w kind' (heq ▸ hattr)
        · cases hw
      · cases hw
    rw [Bool.eq_iff_iff, List.contains_iff_mem, List.contains_iff_mem, sortsAmong, sortsAmong,
      List.mem_filterMap, List.mem_filterMap]
    constructor
    · rintro ⟨w, hw, hsort⟩
      exact ⟨w, (hat w hsort).1 hw, hsort⟩
    · rintro ⟨w, hw, hsort⟩
      exact ⟨w, (hat w hsort).2 hw, hsort⟩
  simp only [candidateAfter, hsorts]

/-- The frame of a type declaration depends only on the nodes below it. -/
theorem frameAfter_congr {nodes nodes' : List Nat} {owner : Nat}
    (h : ∀ w ∈ t.subtree owner, t.kind w = .assign ∨ t.kind w = .update →
      (w ∈ nodes ↔ w ∈ nodes')) :
    frameAfter o t nodes owner = frameAfter o t nodes' owner := by
  simp only [frameAfter, Frame.mk.injEq, true_and]
  refine List.map_congr_left fun d hd => candidateAfter_congr fun w kind hattr => ?_
  exact h w (Tree.mem_subtree_iff.2 (mem_lineage_of_attribution hd hattr))
    (kind_of_attribution hattr)

/-- A candidate after one more node. -/
theorem candidateAfter_append (o : Options) (t : Tree) (nodes : List Nat) (w d : Nat) :
    candidateAfter o t (nodes ++ [w]) d =
      match sortAt o t d w with
      | some kind => (candidateAfter o t nodes d).written kind
      | none => candidateAfter o t nodes d := by
  rcases hsort : sortAt o t d w with _ | kind
  · simp [candidateAfter, sortsAmong, hsort]
  · cases kind <;> simp [candidateAfter, sortsAmong, hsort, Candidate.written]

/-! ## Noting a write -/

/-- The frame of a type declaration once some nodes have been entered and a candidate is flagged. -/
def markedFrame (o : Options) (t : Tree) (nodes : List NodeId) (kind : CallableKind)
    (written : Option NodeId) (owner : NodeId) : Frame where
  owner := owner
  fields := (declaratorsOf o t owner).map fun d =>
    if written = some d then (candidateAfter o t nodes d).written kind
    else candidateAfter o t nodes d

/-- After one more node the candidate that it writes is flagged. -/
theorem frameAfter_append {nodes : List Nat} {w : Nat} {kind : CallableKind}
    {written : Option Nat} (h : attribution o t w = written.map fun d => (d, kind)) (owner : Nat) :
    frameAfter o t (nodes ++ [w]) owner = markedFrame o t nodes kind written owner := by
  simp only [frameAfter, markedFrame, Frame.mk.injEq, true_and]
  refine List.map_congr_left fun d _ => ?_
  rw [candidateAfter_append, sortAt, h]
  cases written with
  | none => rfl
  | some d' =>
      by_cases heq : d' = d
      · simp [heq]
      · simp [heq]

/-- A frame without the flagged candidate stays as it is. -/
theorem markedFrame_of_notMem {nodes : List Nat} {kind : CallableKind} {written : Option Nat}
    {owner : Nat} (h : ∀ d ∈ declaratorsOf o t owner, written ≠ some d) :
    markedFrame o t nodes kind written owner = frameAfter o t nodes owner := by
  simp only [frameAfter, markedFrame, Frame.mk.injEq, true_and]
  exact List.map_congr_left fun d hd => if_neg (h d hd)

/-- Changing the last element that satisfies a test changes no other. -/
theorem modifyLast_map {α β : Type} [DecidableEq α] (p : β → Bool) (f : β → β) (g : α → β)
    {l : List α} (hl : l.Nodup) :
    modifyLast p f (l.map g) =
      l.map fun x => if (l.filter (p ∘ g)).getLast? = some x then f (g x) else g x := by
  induction l with
  | nil => rfl
  | cons x xs ih =>
      obtain ⟨hx, hxs⟩ := List.nodup_cons.1 hl
      rw [List.map_cons, modifyLast, List.any_map]
      by_cases hlater : xs.any (p ∘ g) = true
      · -- The last one is among the later ones.
        have hne : xs.filter (p ∘ g) ≠ [] := by
          rw [Ne, List.filter_eq_nil_iff]
          simpa using hlater
        have hlast : ((x :: xs).filter (p ∘ g)).getLast? = (xs.filter (p ∘ g)).getLast? := by
          rw [List.filter_cons]
          split
          · obtain ⟨y, hy⟩ := Option.ne_none_iff_exists'.1 (mt List.getLast?_eq_none_iff.1 hne)
            rw [List.getLast?_cons, hy]
            rfl
          · rfl
        have hnot : (xs.filter (p ∘ g)).getLast? ≠ some x := fun h =>
          hx (List.mem_of_mem_filter (List.mem_of_getLast? h))
        rw [if_pos hlater, ih hxs, List.map_cons, hlast, if_neg hnot]
      · have hnil : xs.filter (p ∘ g) = [] := by
          rw [List.filter_eq_nil_iff]
          simpa using hlater
        rw [if_neg hlater, List.map_cons, List.filter_cons, hnil]
        by_cases hpx : p (g x) = true
        · have hrest : ∀ y ∈ xs, ¬ some x = some y := fun y hy h =>
            hx (Option.some.inj h ▸ hy)
          simp only [Function.comp, hpx, if_true, List.getLast?_singleton]
          exact congrArg _ (List.map_congr_left fun y hy => (if_neg (hrest y hy)).symm)
        · simp [Function.comp, hpx]

theorem name_candidateAfter {nodes : List Nat} {owner d : Nat} (hd : d ∈ declaratorsOf o t owner)
    (name : String) : ((candidateAfter o t nodes d).name == name) = (t.name d == some name) := by
  have hnamed := isNamed_of_mem_declaratorsOf hd
  rw [isNamed, Bool.and_eq_true, Option.isSome_iff_exists] at hnamed
  obtain ⟨⟨written, hwritten⟩, -⟩ := hnamed
  simp [candidateAfter, hwritten]

theorem filter_named (o : Options) (t : Tree) (nodes : List Nat) (owner : Nat) (name : String) :
    (declaratorsOf o t owner).filter
        ((fun c : Candidate => c.name == name) ∘ candidateAfter o t nodes) =
      (declaratorsOf o t owner).filter fun d => t.name d == some name :=
  List.filter_congr fun _ hd => name_candidateAfter hd name

/-- A write to a frame flags the last candidate of the name. -/
theorem frameAfter_write (o : Options) (t : Tree) (nodes : List Nat) (kind : CallableKind)
    (name : String) (owner : Nat) :
    (frameAfter o t nodes owner).write kind name =
      markedFrame o t nodes kind (lastNamed o t name owner) owner := by
  simp only [Frame.write, frameAfter, markedFrame]
  rw [modifyLast_map _ _ _ (nodup_declaratorsOf o t owner), filter_named]
  rfl

theorem frameAfter_has (o : Options) (t : Tree) (nodes : List Nat) (name : String) (owner : Nat) :
    (frameAfter o t nodes owner).has name = (lastNamed o t name owner).isSome := by
  rw [Frame.has, frameAfter, List.any_map, lastNamed, ← filter_named o t nodes, Bool.eq_iff_iff,
    List.getLast?_isSome, Ne, List.filter_eq_nil_iff]
  simp

/-- Flagging a candidate of one type declaration leaves the frames of others as they are. -/
theorem map_markedFrame_of_notMem {nodes : List Nat} {kind : CallableKind} (name : String)
    {owner : Nat} {owners : List Nat} (howner : owner ∉ owners) :
    owners.map (markedFrame o t nodes kind (lastNamed o t name owner)) =
      owners.map (frameAfter o t nodes) := by
  refine List.map_congr_left fun owner' howner' => markedFrame_of_notMem ?_
  intro d hd hlast
  have hsame := owner_unique (mem_of_lastNamed hlast) hd
  exact howner (hsame ▸ howner')

/-- The first frame with a candidate of a name is that of the innermost type declaration with
one. -/
theorem writeFirst_eq {nodes : List Nat} (kind : CallableKind) (name : String) {owners : List Nat}
    (howners : owners.Nodup) :
    writeFirst kind name (owners.map (frameAfter o t nodes)) =
      owners.map (markedFrame o t nodes kind (owners.findSome? (lastNamed o t name))) := by
  induction owners with
  | nil => rfl
  | cons owner owners ih =>
      obtain ⟨howner, hrest⟩ := List.nodup_cons.1 howners
      rw [List.map_cons, writeFirst, frameAfter_has, List.findSome?_cons]
      cases hlast : lastNamed o t name owner with
      | some d =>
          have hothers : owners.map (markedFrame o t nodes kind (some d)) =
              owners.map (frameAfter o t nodes) :=
            hlast ▸ map_markedFrame_of_notMem name howner
          rw [Option.isSome_some, if_pos rfl, frameAfter_write, hlast, List.map_cons, hothers]
      | none =>
          have hhead : frameAfter o t nodes owner =
              markedFrame o t nodes kind (owners.findSome? (lastNamed o t name)) owner := by
            refine (markedFrame_of_notMem ?_).symm
            intro d hd heq
            obtain ⟨owner', howner', hlast'⟩ := List.exists_of_findSome?_eq_some heq
            exact howner (owner_unique hd (mem_of_lastNamed hlast') ▸ howner')
          rw [Option.isSome_none, if_neg Bool.false_ne_true, ih hrest, List.map_cons, hhead]

/-- Noting a write flags the candidate that its target means, and no other. -/
theorem write_eq {nodes : List Nat} (kind : CallableKind) {owners : List Nat}
    (howners : owners.Nodup) (closed : List Frame) (target : Target) :
    State.write kind ⟨owners.map (frameAfter o t nodes), closed⟩ target =
      ⟨owners.map (markedFrame o t nodes kind (target.declarator o t owners)), closed⟩ := by
  cases target with
  | bare name => simp only [State.write, Target.declarator, writeFirst_eq kind name howners]
  | own name =>
      cases owners with
      | nil => rfl
      | cons owner owners =>
          have hothers : owners.map (markedFrame o t nodes kind (lastNamed o t name owner)) =
              owners.map (frameAfter o t nodes) :=
            map_markedFrame_of_notMem name (List.nodup_cons.1 howners).1
          simp only [State.write, List.map_cons, Target.declarator, List.head?_cons,
            Option.bind_some, frameAfter_write, hothers]

/-! ## The steps of the check -/

/-- The frames of the type declarations among some nodes, once some nodes have been entered. -/
def framesAfter (o : Options) (t : Tree) (nodes above : List NodeId) : List Frame :=
  (above.filter fun j => (t.kind j).isTypeDeclaration).map (frameAfter o t nodes)

/-- The frame that a type declaration ends with. -/
def finalFrame (o : Options) (t : Tree) (owner : NodeId) : Frame :=
  frameAfter o t (List.range t.size) owner

/-- The state of the check at a place below the nodes `above`, once some nodes have been entered and
some left. -/
def stateAfter (o : Options) (t : Tree) (above entered left : List NodeId) : State where
  opened := framesAfter o t entered above
  closed := (left.filter fun j => (t.kind j).isTypeDeclaration).map (finalFrame o t)

/-- What the check answers on entering a node: a write lacks its target if nothing is written. -/
def answerAt (t : Tree) (i : NodeId) : Verdict :=
  if (t.kind i = .assign ∨ t.kind i = .update) ∧ t.operands i = [] then
    .fail (.missing "write target" t i)
  else .pass

section Steps

variable {cx : Context} {nodes : List Nat} {i : Nat}

/-- The check resolves targets as the tree does. -/
theorem resolveTarget_eq (hframes : cx.scopes.frames = cx.tree.framesAlong (cx.tree.lineage i))
    {callable : Nat} {kind : CallableKind}
    (hcallable : cx.tree.callableAround i = some (callable, kind)) (target : Nat) :
    resolveTarget cx target =
      targetOf cx.tree callable (cx.tree.typesAround i).head? target := by
  have henclosing : cx.scopes.enclosingCallable = some (callable, kind) := by
    rw [ScopeStack.enclosingCallable_of_frames hframes]
    exact hcallable
  have hclass : cx.scopes.enclosingClass = (cx.tree.typesAround i).head? := by
    rw [ScopeStack.enclosingClass, ScopeStack.enclosingClasses_of_frames hframes]
    rfl
  have hdeclares : ∀ name,
      (!cx.scopes.isParameter cx.tree name && !cx.scopes.isLocal cx.tree name) =
        !declaresName cx.tree callable name := by
    intro name
    simp [ScopeStack.isParameter, ScopeStack.isLocal, ScopeStack.parameterNames,
      ScopeStack.callableLocals, henclosing, declaresName]
  have hinstance : ∀ name offset, isOwnInstance cx name offset =
      (cx.tree.typesAround i).head?.any fun owner =>
        isInstanceOf cx.tree callable owner name offset := by
    intro name offset
    simp only [isOwnInstance, hclass, ScopeStack.localDeclaredBefore, ScopeStack.callableLocals,
      henclosing, isInstanceOf]
    cases (cx.tree.typesAround i).head? with
    | none => simp
    | some owner => rfl
  unfold resolveTarget
  simp only [hdeclares, hinstance]
  rfl

/-- A node that writes nothing changes no frame. -/
theorem framesAfter_append_of_none {w : Nat} (h : attribution o t w = none) (above : List Nat) :
    framesAfter o t (nodes ++ [w]) above = framesAfter o t nodes above := by
  refine List.map_congr_left fun owner _ => ?_
  have hnone : attribution o t w = (none : Option Nat).map fun d => (d, CallableKind.method) := h
  rw [frameAfter_append hnone, markedFrame_of_notMem]
  simp

/-- Noting a write brings the frames up to date. -/
theorem recordWrite_eq (hframes : cx.scopes.frames = cx.tree.framesAlong (cx.tree.lineage i))
    (hkind : cx.tree.kind i = .assign ∨ cx.tree.kind i = .update) {target : Nat}
    (htarget : (cx.tree.operands i).head? = some target) (closed : List Frame) :
    recordWrite cx target ⟨framesAfter o cx.tree nodes (cx.tree.lineage i), closed⟩ =
      ⟨framesAfter o cx.tree (nodes ++ [i]) (cx.tree.lineage i), closed⟩ := by
  have henclosing : cx.scopes.enclosingCallable = cx.tree.callableAround i :=
    ScopeStack.enclosingCallable_of_frames hframes
  rw [recordWrite, henclosing]
  cases hcallable : cx.tree.callableAround i with
  | none =>
      have hattr : attribution o cx.tree i = none := by
        rw [attribution, if_pos (by simpa using hkind), htarget, hcallable]
      rw [framesAfter_append_of_none hattr]
  | some enclosing =>
      obtain ⟨callable, kind⟩ := enclosing
      have hattr : attribution o cx.tree i =
          ((targetOf cx.tree callable (cx.tree.typesAround i).head? target).bind
            (Target.declarator o cx.tree (cx.tree.typesAround i))).map fun d => (d, kind) := by
        rw [attribution, if_pos (by simpa using hkind), htarget, hcallable]
      rw [resolveTarget_eq hframes hcallable]
      cases hresolved : targetOf cx.tree callable (cx.tree.typesAround i).head? target with
      | none =>
          rw [hresolved, Option.bind_none, Option.map_none] at hattr
          rw [framesAfter_append_of_none hattr]
      | some resolved =>
          rw [hresolved, Option.bind_some] at hattr
          have howners : (cx.tree.typesAround i).Nodup := (cx.tree.nodup_lineage i).filter _
          refine (write_eq kind howners closed resolved).trans ?_
          rw [framesAfter, List.map_congr_left fun owner _ => frameAfter_append hattr owner]
          rfl

theorem isTypeDeclaration_of_write {kind : NodeKind} (h : kind = .assign ∨ kind = .update) :
    kind.isTypeDeclaration = false := by
  rcases h with rfl | rfl <;> rfl

/-- A node that is no assignment, increment or decrement writes nothing. -/
theorem attribution_of_not_write {w : Nat} (h : ¬ (t.kind w = .assign ∨ t.kind w = .update)) :
    attribution o t w = none := by
  rw [attribution, if_neg (by simpa using h)]

/-- At a node that is no write the check at most opens a frame. -/
theorem enter_of_not_write (h : ¬ (cx.tree.kind i = .assign ∨ cx.tree.kind i = .update))
    (s : State) :
    enter o cx i s =
      if (cx.tree.kind i).isTypeDeclaration then
        ({ s with opened := { owner := i, fields := candidatesOf o cx.tree i } :: s.opened }, .pass)
      else (s, .pass) := by
  simp only [enter]
  split
  · rename_i hassign
    exact absurd (Or.inl hassign) h
  · rename_i hupdate
    exact absurd (Or.inr hupdate) h
  · rfl

/-- On entering a node the check brings the frames up to date: those of the type declarations above
the node, and its own. -/
theorem enter_eq (hframes : cx.scopes.frames = cx.tree.framesAlong (cx.tree.lineage i))
    (hnew : ∀ w ∈ cx.tree.subtree i, w ∉ nodes) (left : List Nat) :
    enter o cx i (stateAfter o cx.tree (cx.tree.ancestors i) nodes left) =
      (stateAfter o cx.tree (cx.tree.lineage i) (nodes ++ [i]) left, answerAt cx.tree i) := by
  unfold stateAfter
  generalize (left.filter fun j => (cx.tree.kind j).isTypeDeclaration).map
    (finalFrame o cx.tree) = closed
  by_cases hwrite : cx.tree.kind i = .assign ∨ cx.tree.kind i = .update
  · have habove : framesAfter o cx.tree nodes (cx.tree.ancestors i) =
        framesAfter o cx.tree nodes (cx.tree.lineage i) := by
      rw [framesAfter, framesAfter, Tree.lineage, List.filter_cons,
        isTypeDeclaration_of_write hwrite]
      rfl
    rw [habove, answerAt]
    cases htarget : (cx.tree.operands i).head? with
    | none =>
        have hunfold : ∀ s, enter o cx i s =
            (s, .fail (.missing "write target" cx.tree i)) := by
          intro s
          rcases hwrite with h | h <;> simp only [enter, h, htarget]
        have hnone : attribution o cx.tree i = none := by
          rw [attribution, if_pos (by simpa using hwrite), htarget]
        have hnil : cx.tree.operands i = [] := List.head?_eq_none_iff.1 htarget
        rw [hunfold, framesAfter_append_of_none hnone, if_pos ⟨hwrite, hnil⟩]
    | some target =>
        have hunfold : ∀ s, enter o cx i s = (recordWrite cx target s, .pass) := by
          intro s
          rcases hwrite with h | h <;> simp only [enter, h, htarget]
        have hne : cx.tree.operands i ≠ [] := by
          rintro h
          simp [h] at htarget
        rw [hunfold, recordWrite_eq hframes hwrite htarget, if_neg fun h => hne h.2]
  · have hnone := attribution_of_not_write (o := o) hwrite
    have hanswer : answerAt cx.tree i = .pass := if_neg fun h => hwrite h.1
    rw [enter_of_not_write hwrite, hanswer, framesAfter_append_of_none hnone, framesAfter,
      framesAfter, Tree.lineage, List.filter_cons]
    split
    · -- No node below this one has been entered, so its frame is a new one.
      have hown : frameAfter o cx.tree nodes i =
          { owner := i, fields := candidatesOf o cx.tree i } := by
        rw [candidatesOf_eq]
        exact frameAfter_congr fun w hw _ =>
          ⟨fun h => absurd h (hnew w hw), fun h => absurd h (List.not_mem_nil)⟩
      rw [List.map_cons, hown]
    · rfl

/-- On leaving a node the check sets aside its frame, which is the one that it ends with. -/
theorem leave_eq (hall : ∀ w ∈ cx.tree.subtree i, w ∈ nodes) (left : List Nat) :
    leave cx i (stateAfter o cx.tree (cx.tree.lineage i) nodes left) =
      (stateAfter o cx.tree (cx.tree.ancestors i) nodes (left ++ [i]), .pass) := by
  unfold leave stateAfter
  rw [framesAfter, framesAfter, Tree.lineage, List.filter_cons, List.filter_append,
    List.map_append]
  by_cases htype : (cx.tree.kind i).isTypeDeclaration = true
  · have hown : frameAfter o cx.tree nodes i = finalFrame o cx.tree i := by
      refine frameAfter_congr fun w hw hkind => ?_
      exact ⟨fun _ => List.mem_range.2 (lt_size_of_write hkind), fun _ => hall w hw⟩
    have howner : (finalFrame o cx.tree i).owner = i := rfl
    rw [if_pos htype, if_pos htype, List.map_cons, hown]
    simp [htype, howner]
  · simp [htype]

end Steps

end SdkLint.FinalFields
