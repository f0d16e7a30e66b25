import SdkLint.Proofs.FinalFields.Writes
import SdkLint.Proofs.Tree.Building

/-!
# Writes to bare names

A write to a bare name that is no parameter or local goes to a field of a type declaration around
it.  It counts for a candidate of the innermost type declaration that has a candidate of the name.
That is the innermost one with a field of the name, unless this field is no candidate: then the
frames of the type declarations further out are searched.

Main definitions:

- `BareWrite`: a write to a bare name that the innermost type declaration has as a field.
- `CountsFor`: a write flags one candidate in the state of the check and matters for no other.

Main results:

- Theorem `attribution_of_bareWrite`: what such a write is attributed to.
- Theorem `countsFor_of_bareWrite`: it counts for the innermost candidate of the name.
- Theorem `bareWrite_counts`: so it counts for the field of the innermost type declaration if this
  is a candidate, and only otherwise for a candidate further out.
-/

namespace SdkLint.FinalFields

/-! ## Bare writes to declared fields -/

/-- A type declaration has a field of a name, as a member or as a component of a record. -/
def DeclaresField (t : Tree) (owner : NodeId) (x : String) : Prop :=
  ∃ symbol, (x, symbol) ∈ t.fieldSymbols owner

/-- A type declaration has a field of a name that is a candidate. -/
def hasCandidate (o : Options) (t : Tree) (x : String) (owner : NodeId) : Bool :=
  (lastNamed o t x owner).isSome

/-- A node writes a bare name inside a callable of some sort that has no parameter and no local of
the name, while the innermost type declaration around it has a field of the name. -/
structure BareWrite (t : Tree) (w owner : NodeId) (kind : CallableKind) (x : String) : Prop where
  writes : WritesBare t w x
  innermost : (t.typesAround w).head? = some owner
  declares : DeclaresField t owner x
  callable : ∃ callable, t.callableAround w = some (callable, kind) ∧
    declaresName t callable x = false

/-! ## What it means to count -/

/-- The state after a write in a callable of some sort has been noted in the frame of one type
declaration, or in none. -/
def State.markedIn (s : State) (kind : CallableKind) (x : String) (reached : Option NodeId) :
    State :=
  { s with
    opened := s.opened.map fun frame =>
      if reached = some frame.owner then frame.write kind x else frame }

/-- After some stops of a walk the rule at a place of the list is in a state. -/
def HasState (rules : List ActiveRule) (input : WalkInput) (place : Nat) (o : Options)
    (severity : Severity) (made : List Visit) (state : State) : Prop :=
  (made.foldl (WalkState.visit input (dispatch rules)) (.start rules)).rules[place]? =
    some ⟨⟨rule o, severity⟩, some (state : State)⟩

/-- What it means that a write counts for the candidate of a name of one type declaration, or for
none. -/
structure CountsFor (rules : List ActiveRule) (input : WalkInput) (place : Nat) (o : Options)
    (severity : Severity) (w : NodeId) (kind : CallableKind) (x : String)
    (reached : Option NodeId) : Prop where
  /-- When the walk comes to the node, the rule notes the write in the frame of that type
  declaration, and the frames of all others stay as they are. -/
  flags : ∃ made rest state, input.tree.tour = made ++ .enter w :: rest ∧
    HasState rules input place o severity made state ∧
    HasState rules input place o severity (made ++ [.enter w]) (state.markedIn kind x reached)
  /-- What the rule reports about the candidates of all others is what it would report if the node
  did not count. -/
  others : ∀ owner, reached ≠ some owner → ∀ d ∈ declaratorsOf o input.tree owner,
    expected o input.tree d =
      expectedAmong o input.tree ((List.range input.tree.size).filter (· ≠ w)) d

variable {o : Options} {t : Tree} {w owner d : Nat} {kind : CallableKind} {x : String}

/-! ## The innermost candidate -/

/-- The candidate that a search through type declarations finds is the last one of the first that
has one. -/
theorem findSome?_lastNamed (o : Options) (t : Tree) (x : String) (owners : List Nat) :
    owners.findSome? (lastNamed o t x) =
      (owners.find? (hasCandidate o t x)).bind (lastNamed o t x) := by
  induction owners with
  | nil => rfl
  | cons owner owners ih =>
      rw [List.findSome?_cons, List.find?_cons, hasCandidate]
      cases hlast : lastNamed o t x owner with
      | none => exact ih
      | some d => exact hlast.symm

/-- A bare write is attributed to the last candidate of the innermost type declaration that has a
candidate of the name. -/
theorem attribution_of_bareWrite (h : BareWrite t w owner kind x) :
    attribution o t w =
      (((t.typesAround w).find? (hasCandidate o t x)).bind (lastNamed o t x)).map
        fun d => (d, kind) := by
  obtain ⟨callable, hcallable, hfree⟩ := h.callable
  rw [attribution_of_writesBare h.writes hcallable hfree, findSome?_lastNamed]

/-! ## Frames -/

/-- Noting a write in the frame of one type declaration brings all frames up to date. -/
theorem framesAfter_append_of_reached {nodes : List Nat} {reached : Option Nat}
    (h : attribution o t w = (reached.bind (lastNamed o t x)).map fun d => (d, kind))
    (above : List Nat) :
    framesAfter o t (nodes ++ [w]) above =
      (framesAfter o t nodes above).map fun frame =>
        if reached = some frame.owner then frame.write kind x else frame := by
  rw [framesAfter, framesAfter, List.map_map]
  refine List.map_congr_left fun owner _ => ?_
  rw [frameAfter_append h]
  change _ = if reached = some owner then (frameAfter o t nodes owner).write kind x
    else frameAfter o t nodes owner
  by_cases hreached : reached = some owner
  · rw [if_pos hreached, frameAfter_write, hreached, Option.bind_some]
  · rw [if_neg hreached]
    refine markedFrame_of_notMem fun d hd hwritten => hreached ?_
    obtain ⟨other, hother, hlast⟩ := Option.bind_eq_some_iff.1 hwritten
    rw [hother, owner_unique hd (mem_of_lastNamed hlast)]

/-- A write brings the state up to date by being noted in one frame. -/
theorem stateAfter_of_reached {reached : Option Nat} {entered left : List Nat}
    (hkind : t.kind w = .assign ∨ t.kind w = .update)
    (h : attribution o t w = (reached.bind (lastNamed o t x)).map fun d => (d, kind)) :
    stateAfter o t (t.lineage w) (entered ++ [w]) left =
      (stateAfter o t (t.ancestors w) entered left).markedIn kind x reached := by
  have habove :
      framesAfter o t entered (t.lineage w) = framesAfter o t entered (t.ancestors w) := by
    rw [framesAfter, framesAfter, Tree.lineage, List.filter_cons, isTypeDeclaration_of_write hkind]
    rfl
  simp only [stateAfter, State.markedIn, framesAfter_append_of_reached h, habove]

/-! ## States of a walk -/

variable {rules : List ActiveRule} {input : WalkInput} {place : Nat} {severity : Severity}

/-- Among other rules the rule is in the state that it is in alone. -/
theorem HasState.of_solo {above entered left : List Nat} {made : List Visit}
    (hrule : rules[place]? = some ⟨rule o, severity⟩)
    (h : Tracked o severity input above entered left (soloAfter o severity input made)) :
    HasState rules input place o severity made (stateAfter o input.tree above entered left) := by
  obtain ⟨r, hplace, hsolo⟩ := ((WalkState.focused_start hrule).stops hrule input made).rules
  have hrules := h.rules
  rw [soloAfter, hsolo, List.singleton_inj] at hrules
  rw [HasState, hplace, hrules]

/-- A write that is attributed to the candidate of a name of one type declaration counts for it. -/
theorem countsFor_of_reached (hrule : rules[place]? = some ⟨rule o, severity⟩)
    (hkind : input.tree.kind w = .assign ∨ input.tree.kind w = .update) {reached : Option Nat}
    (h : attribution o input.tree w =
      (reached.bind (lastNamed o input.tree x)).map fun d => (d, kind)) :
    CountsFor rules input place o severity w kind x reached where
  flags := by
    obtain ⟨made, rest, htour⟩ := Tree.exists_tour_eq (lt_size_of_write hkind)
    obtain ⟨entered, left, hnew, hbefore⟩ :=
      (tracked_throughout o severity input).before made w rest htour
    have hafter := hbefore.enter hnew
    rw [← soloAfter_append_singleton] at hafter
    refine ⟨made, rest, _, htour, .of_solo hrule hbefore, ?_⟩
    rw [← stateAfter_of_reached hkind h]
    exact .of_solo hrule hafter
  others := by
    intro owner howner d hd
    have hother : ∀ kind', attribution o input.tree w ≠ some (d, kind') := by
      intro kind' hattr
      obtain ⟨d', hwritten, heq⟩ := Option.map_eq_some_iff.1 (h.symm.trans hattr)
      obtain ⟨rfl, -⟩ := Prod.mk.inj heq
      obtain ⟨other, hother, hlast⟩ := Option.bind_eq_some_iff.1 hwritten
      exact howner (hother.trans (congrArg some (owner_unique (mem_of_lastNamed hlast) hd)))
    rw [expected_eq, expectedAmong, expectedAmong, sortsAmong_filter_ne hother]

/-- A bare write counts for the innermost type declaration around it that has a candidate of the
name. -/
theorem countsFor_of_bareWrite (hrule : rules[place]? = some ⟨rule o, severity⟩)
    (h : BareWrite input.tree w owner kind x) :
    CountsFor rules input place o severity w kind x
      ((input.tree.typesAround w).find? (hasCandidate o input.tree x)) := by
  obtain ⟨target, hwrites, -⟩ := h.writes
  exact countsFor_of_reached hrule hwrites.1 (attribution_of_bareWrite h)

/-- A write to a bare name that the innermost type declaration around it has as a field counts for
this field, and for no other, if it is a candidate.  Otherwise it counts for the innermost type
declaration further out that has a candidate of the name, and for nothing if there is none. -/
theorem bareWrite_counts (hrule : rules[place]? = some ⟨rule o, severity⟩)
    (h : BareWrite input.tree w owner kind x) :
    findingsAt rules input place =
        (candidateDeclarators o input.tree).filterMap (expected o input.tree) ∧
      (hasCandidate o input.tree x owner = true →
        CountsFor rules input place o severity w kind x (some owner)) ∧
      (hasCandidate o input.tree x owner = false →
        CountsFor rules input place o severity w kind x
          ((input.tree.typesAround w).tail.find? (hasCandidate o input.tree x))) := by
  have hcounts := countsFor_of_bareWrite hrule h
  obtain ⟨outer, htypes⟩ := List.head?_eq_some_iff.1 h.innermost
  rw [htypes, List.find?_cons] at hcounts
  refine ⟨findingsAt_eq hrule input, fun hown => ?_, fun hown => ?_⟩
  · rwa [hown] at hcounts
  · rw [hown] at hcounts
    rwa [htypes, List.tail_cons]

/-- A class with a field that its constructor writes, and in it a class with a volatile field of the
same name that its method writes. -/
def hidingClass : Outline :=
  let field (modifiers : List Outline) : Outline :=
    .sketch .fieldDef none (modifiers ++ [.sketch .varDeclarator none [.sketchName "x"]])
  let writing (kind : NodeKind) : Outline :=
    .sketch kind none [.sketch .block none [.sketch .exprStmt none
      [.sketch .assign (some "=") [.sketchName "x", .sketch .literal (some "1") []]]]]
  let volatile : Outline := .sketch .modifiers none [.sketch .modifier (some "volatile") []]
  let inner : Outline := .sketch .classDef none
    [.sketchName "B", .sketch .classBody none [field [volatile], writing .methodDef]]
  .sketch .classDef none
    [.sketchName "A", .sketch .classBody none [field [], writing .ctorDef, inner]]

def hidingInput : WalkInput where
  file := .ofPath "A.java" "" ""
  tree := hidingClass.toTree ""
  resolver := fun _ => none

/-- The write in the constructor counts for the field of its class.  The write in the method goes to
the field of the inner class, and counts for the field of the outer one: but for it, the latter
would be reported. -/
theorem hidingInput_counts :
    [ActiveRule.mk (rule {}) .error][0]? = some ⟨rule {}, .error⟩ ∧
      BareWrite hidingInput.tree 9 0 .constructor "x" ∧
      CountsFor [⟨rule {}, .error⟩] hidingInput 0 {} .error 9 .constructor "x" (some 0) ∧
      BareWrite hidingInput.tree 23 12 .method "x" ∧
      CountsFor [⟨rule {}, .error⟩] hidingInput 0 {} .error 23 .method "x" (some 0) ∧
      findingsAt [⟨rule {}, .error⟩] hidingInput 0 = [] ∧
      expectedAmong {} hidingInput.tree
        ((List.range hidingInput.tree.size).filter (· ≠ 23)) 4 =
          some (constructorOnly hidingInput.tree 4) := by
  have hrule : [ActiveRule.mk (rule {}) .error][0]? = some ⟨rule {}, .error⟩ := rfl
  have hinConstructor : BareWrite hidingInput.tree 9 0 .constructor "x" :=
    { writes := ⟨10, by decide +kernel⟩
      innermost := by decide +kernel
      declares := ⟨⟨.field, 4, none⟩, by decide +kernel⟩
      callable := ⟨6, by decide +kernel⟩ }
  have hinMethod : BareWrite hidingInput.tree 23 12 .method "x" :=
    { writes := ⟨24, by decide +kernel⟩
      innermost := by decide +kernel
      declares := ⟨⟨.field, 18, none⟩, by decide +kernel⟩
      callable := ⟨20, by decide +kernel⟩ }
  obtain ⟨hfindings, hown, -⟩ := bareWrite_counts hrule hinConstructor
  obtain ⟨-, -, hother⟩ := bareWrite_counts hrule hinMethod
  have hreached : (hidingInput.tree.typesAround 23).tail.find?
      (hasCandidate {} hidingInput.tree "x") = some 0 := by decide +kernel
  have hnone : (candidateDeclarators {} hidingInput.tree).filterMap
      (expected {} hidingInput.tree) = [] := by decide +kernel
  exact ⟨hrule, hinConstructor, hown (by decide +kernel), hinMethod,
    hreached ▸ hother (by decide +kernel), hfindings.trans hnone, by decide +kernel⟩

end SdkLint.FinalFields
