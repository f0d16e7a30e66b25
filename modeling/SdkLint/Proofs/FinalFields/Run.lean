import SdkLint.Proofs.FinalFields.Frames
import SdkLint.Proofs.Walk.Isolation

/-!
# What the rule about final fields finds

In a walk of its own the check always has the frames of the type declarations above the current
place, brought up to date for the nodes entered, and has set aside the final frames of those it has
left.  At the end these are judged.

Main definitions:

- `Tracked`: the walk of the rule has come to a place, having entered and left some nodes.
- `TrackedSoFar`: the walk has come to a place and was tracked on its way there.
- `FindsFinalFields`: the calls of the rule find what they should find.

Main results:

- Theorems `Tracked.enter` and `Tracked.leave`: every stop keeps the frames up to date.
- Theorem `tracked_throughout`: the frames are up to date all the way around the tree.
- Theorem `judge_candidateAfter`: a candidate is judged at the end as the tree tells.
- Theorem `finalFields_finds`: whatever other rules there are, the rule reports what is expected
  about every candidate, and nothing else.
-/

namespace SdkLint.FinalFields

variable {o : Options} {t : Tree} {severity : Severity} {input : WalkInput}

/-! ## The frames along a walk -/

/-- Everything that a call before the end answers: a write without a target is a failure. -/
def AnswersStop (t : Tree) (call : HookCall) : Prop :=
  (∃ i, call.hook = .enter i ∧ call.verdict = answerAt t i) ∨ call.verdict = .pass

/-- The walk of the rule alone has come to a place below the nodes `above`, having entered and left
some nodes. -/
structure Tracked (o : Options) (severity : Severity) (input : WalkInput)
    (above entered left : List NodeId) (s : WalkState) : Prop where
  scopes : s.scopes.frames = input.tree.framesAlong above
  rules : s.rules =
    [⟨⟨rule o, severity⟩, some (stateAfter o input.tree above entered left : State)⟩]
  calls : ∀ call ∈ s.calls, AnswersStop input.tree call

theorem mem_kinds {kind : NodeKind} :
    kind ∈ (rule o).kinds ↔
      kind.isTypeDeclaration = true ∨ kind = .assign ∨ kind = .update := by
  cases kind <;> simp [rule, NodeKind.isTypeDeclaration]

/-- The check does nothing at nodes of kinds that it does not list. -/
theorem enter_of_notMem {cx : Context} {i : Nat} (h : cx.tree.kind i ∉ (rule o).kinds)
    (s : State) : enter o cx i s = (s, .pass) := by
  rw [mem_kinds, not_or] at h
  rw [enter_of_not_write h.2, if_neg h.1]

theorem leave_of_notMem {cx : Context} {i : Nat} (h : cx.tree.kind i ∉ (rule o).kinds)
    (s : State) : leave cx i s = (s, .pass) := by
  rw [mem_kinds, not_or] at h
  rw [leave, if_neg h.1]

theorem isFatal_answerAt (t : Tree) (i : Nat) : (answerAt t i).isFatal = false := by
  unfold answerAt
  split <;> rfl

/-- Calling the rule alone, at a node whose kind it may or may not list, brings its state to what
the check makes of it. -/
theorem callRules_single (hook : Hook) (kind : NodeKind) {s : WalkState} {state next : State}
    {verdict : Verdict} (hrules : s.rules = [⟨⟨rule o, severity⟩, some (state : State)⟩])
    (hcalls : ∀ call ∈ s.calls, AnswersStop input.tree call)
    (hrespond : (rule o).check.respond (input.context s.scopes) state hook = (next, verdict))
    (hother : kind ∉ (rule o).kinds → next = state) (hfatal : verdict.isFatal = false)
    (hnow : AnswersStop input.tree ⟨0, hook, s.scopes, verdict⟩) :
    let s' := s.callRules input hook ((dispatch [⟨rule o, severity⟩]).subscribers kind)
    s'.rules = [⟨⟨rule o, severity⟩, some (next : State)⟩] ∧
      ∀ call ∈ s'.calls, AnswersStop input.tree call := by
  obtain ⟨hnext, hadded⟩ :=
    WalkState.callRules_alone hook kind hrules hrespond hother hfatal
  refine ⟨hnext, fun call hcall => ?_⟩
  rcases hadded call hcall with hcall | rfl
  · exact hcalls call hcall
  · exact hnow

/-- Entering a node keeps the frames up to date. -/
theorem Tracked.enter {i : Nat} {entered left : List Nat} {s : WalkState}
    (hnew : ∀ w ∈ input.tree.subtree i, w ∉ entered)
    (h : Tracked o severity input (input.tree.ancestors i) entered left s) :
    Tracked o severity input (input.tree.lineage i) (entered ++ [i]) left
      (s.visit input (dispatch [⟨rule o, severity⟩]) (.enter i)) := by
  let moved : WalkState :=
    { s with scopes := s.scopes.enter input.tree i, entered := s.entered + 1 }
  have hscopes : moved.scopes.frames = input.tree.framesAlong (input.tree.lineage i) := by
    rw [ScopeStack.frames_enter, h.scopes, Tree.lineage, Tree.framesAlong_cons]
  have hanswer : FinalFields.enter o (input.context moved.scopes) i
      (stateAfter o input.tree (input.tree.ancestors i) entered left) =
        (stateAfter o input.tree (input.tree.lineage i) (entered ++ [i]) left,
          answerAt input.tree i) := enter_eq hscopes hnew left
  have hother : input.tree.kind i ∉ (rule o).kinds →
      stateAfter o input.tree (input.tree.lineage i) (entered ++ [i]) left =
        stateAfter o input.tree (input.tree.ancestors i) entered left := by
    intro hkind
    rw [enter_of_notMem hkind] at hanswer
    exact (congrArg Prod.fst hanswer).symm
  have hmoved : moved.rules = _ := h.rules
  obtain ⟨hrules, hcalls⟩ := callRules_single (.enter i) (input.tree.kind i) hmoved h.calls hanswer
    hother (isFatal_answerAt _ i) (Or.inl ⟨i, rfl, rfl⟩)
  refine ⟨?_, hrules, hcalls⟩
  rw [WalkState.visit_scopes]
  exact hscopes

/-- Leaving a node keeps the frames up to date. -/
theorem Tracked.leave {i : Nat} {entered left : List Nat} {s : WalkState}
    (hall : ∀ w ∈ input.tree.subtree i, w ∈ entered)
    (h : Tracked o severity input (input.tree.lineage i) entered left s) :
    Tracked o severity input (input.tree.ancestors i) entered (left ++ [i])
      (s.visit input (dispatch [⟨rule o, severity⟩]) (.leave i)) := by
  have hanswer : FinalFields.leave (input.context s.scopes) i
      (stateAfter o input.tree (input.tree.lineage i) entered left) =
        (stateAfter o input.tree (input.tree.ancestors i) entered (left ++ [i]), .pass) :=
    leave_eq hall left
  have hother : input.tree.kind i ∉ (rule o).kinds →
      stateAfter o input.tree (input.tree.ancestors i) entered (left ++ [i]) =
        stateAfter o input.tree (input.tree.lineage i) entered left := by
    intro hkind
    rw [leave_of_notMem hkind] at hanswer
    exact (congrArg Prod.fst hanswer).symm
  obtain ⟨hrules, hcalls⟩ := callRules_single (.leave i) (input.tree.kind i) h.rules h.calls hanswer
    hother rfl (Or.inr rfl)
  refine ⟨?_, hrules, hcalls⟩
  rw [WalkState.visit_scopes]
  exact ScopeStack.frames_leave h.scopes

/-- The walk of the rule alone once some stops have been made. -/
def soloAfter (o : Options) (severity : Severity) (input : WalkInput) (made : List Visit) :
    WalkState :=
  made.foldl (WalkState.visit input (dispatch [⟨rule o, severity⟩]))
    (.start [⟨rule o, severity⟩])

theorem soloAfter_append_singleton (made : List Visit) (v : Visit) :
    soloAfter o severity input (made ++ [v]) =
      (soloAfter o severity input made).visit input (dispatch [⟨rule o, severity⟩]) v := by
  rw [soloAfter, List.foldl_append]
  rfl

/-- Before a node was entered the frames were up to date, and nothing below it had been entered. -/
def TrackedBefore (o : Options) (severity : Severity) (input : WalkInput) (made : List Visit)
    (i : NodeId) : Prop :=
  ∃ entered left, (∀ w ∈ input.tree.subtree i, w ∉ entered) ∧
    Tracked o severity input (input.tree.ancestors i) entered left
      (soloAfter o severity input made)

/-- The frames are up to date after some stops, and were so before each of these that enters a
node. -/
structure TrackedSoFar (o : Options) (severity : Severity) (input : WalkInput)
    (above entered left : List NodeId) (made : List Visit) : Prop where
  now : Tracked o severity input above entered left (soloAfter o severity input made)
  before : ∀ first i rest, made = first ++ .enter i :: rest → TrackedBefore o severity input first i

/-- One more stop is the last one that has been made. -/
theorem trackedBefore_append_singleton {made first rest : List Visit} {v : Visit} {i : Nat}
    (h : ∀ first i rest, made = first ++ .enter i :: rest → TrackedBefore o severity input first i)
    (hlast : v = .enter i → TrackedBefore o severity input made i)
    (hmade : made ++ [v] = first ++ .enter i :: rest) : TrackedBefore o severity input first i := by
  rcases List.eq_nil_or_concat rest with rfl | ⟨rest, last, rfl⟩
  · obtain ⟨rfl, hv⟩ := List.append_inj' hmade rfl
    exact hlast (by simpa using hv)
  · rw [List.concat_eq_append, ← List.cons_append, ← List.append_assoc] at hmade
    exact h first i rest (List.append_inj' hmade rfl).1

theorem TrackedSoFar.enter {i : Nat} {entered left : List Nat} {made : List Visit}
    (hnew : ∀ w ∈ input.tree.subtree i, w ∉ entered)
    (h : TrackedSoFar o severity input (input.tree.ancestors i) entered left made) :
    TrackedSoFar o severity input (input.tree.lineage i) (entered ++ [i]) left
      (made ++ [.enter i]) where
  now := soloAfter_append_singleton made (.enter i) ▸ h.now.enter hnew
  before _ _ _ := trackedBefore_append_singleton h.before fun hv =>
    Visit.enter.inj hv ▸ ⟨entered, left, hnew, h.now⟩

theorem TrackedSoFar.leave {i : Nat} {entered left : List Nat} {made : List Visit}
    (hall : ∀ w ∈ input.tree.subtree i, w ∈ entered)
    (h : TrackedSoFar o severity input (input.tree.lineage i) entered left made) :
    TrackedSoFar o severity input (input.tree.ancestors i) entered (left ++ [i])
      (made ++ [.leave i]) where
  now := soloAfter_append_singleton made (.leave i) ▸ h.now.leave hall
  before _ _ _ := trackedBefore_append_singleton h.before fun hv => nomatch hv

/-- All the way around the tree the frames are up to date before every node that is entered, and at
the end the rule has set aside the final frames of all type declarations. -/
theorem tracked_throughout (o : Options) (severity : Severity) (input : WalkInput) :
    TrackedSoFar o severity input [] (List.range input.tree.size)
      (input.tree.leaving Tree.root) input.tree.tour := by
  have hstart : TrackedSoFar o severity input [] [] [] [] :=
    ⟨⟨rfl, rfl, fun call hcall => by simp [soloAfter, WalkState.start] at hcall⟩, by simp⟩
  have habove : input.tree.ancestors Tree.root = [] :=
    Tree.ancestors_of_no_parent input.tree.ordered.root
  have hend := Tree.tour_induction (fun made v => made ++ [v])
    (motive := TrackedSoFar o severity input) (fun _ _ _ _ => TrackedSoFar.enter)
    (fun _ _ _ _ => TrackedSoFar.leave) Tree.root [] [] [] (fun _ _ => List.not_mem_nil)
    (habove ▸ hstart)
  rwa [habove, List.foldl_append_eq_append, ← List.flatMap_def, List.flatMap_singleton',
    List.nil_append, List.nil_append, List.nil_append, Tree.subtree_root] at hend

/-! ## The findings -/

/-- A candidate is judged at the end as the tree tells. -/
theorem judge_candidateAfter (o : Options) (t : Tree) (d : Nat) :
    judge t (candidateAfter o t (List.range t.size) d) = expected o t d := by
  have hnil : ∀ sorts : List CallableKind,
      sorts = [] ↔ .constructor ∉ sorts ∧ .method ∉ sorts := by
    intro sorts
    constructor
    · rintro rfl
      simp
    · rintro ⟨hconstructor, hmethod⟩
      rw [List.eq_nil_iff_forall_not_mem]
      intro sort hsort
      cases sort with
      | method => exact hmethod hsort
      | constructor => exact hconstructor hsort
  unfold judge expected
  simp only [candidateAfter, hnil, Bool.and_eq_true, Bool.not_eq_true', List.contains_iff_mem,
    ← Bool.not_eq_true, and_assoc]

theorem declaratorsOf_of_not_type {owner : Nat} (h : ¬ (t.kind owner).isTypeDeclaration = true) :
    declaratorsOf o t owner = [] := by
  unfold declaratorsOf
  refine if_neg fun howner => h ?_
  rcases (by simpa using howner : t.kind owner = .classDef ∨ t.kind owner = .enumDef) with h | h
  · rw [h]
    rfl
  · rw [h]
    rfl

/-- The candidates of all final frames are those of the tree. -/
theorem flatMap_finalFrame (o : Options) (t : Tree) :
    (((t.leaving Tree.root).filter fun j => (t.kind j).isTypeDeclaration).map
        (finalFrame o t)).flatMap Frame.fields =
      (candidateDeclarators o t).map (candidateAfter o t (List.range t.size)) := by
  rw [candidateDeclarators, List.flatMap_map, List.map_flatMap]
  induction t.leaving Tree.root with
  | nil => rfl
  | cons owner owners ih =>
      rw [List.filter_cons, List.flatMap_cons, ← ih]
      split
      · rfl
      · rename_i htype
        rw [declaratorsOf_of_not_type htype]
        rfl

/-- At the end the check reports what is expected about every candidate. -/
theorem finish_eq (o : Options) (cx : Context) :
    (finish cx (stateAfter o cx.tree [] (List.range cx.tree.size)
        (cx.tree.leaving Tree.root))).2 =
      .report ((candidateDeclarators o cx.tree).filterMap (expected o cx.tree)) := by
  simp only [finish, stateAfter, flatMap_finalFrame, List.filterMap_map]
  exact congrArg Verdict.report (List.filterMap_congr fun d _ => judge_candidateAfter o cx.tree d)

/-- What it means that the calls of the rule find what they should find. -/
structure FindsFinalFields (o : Options) (t : Tree) (calls : List HookCall) : Prop where
  /-- The findings are those that are expected about the candidates, one by one. -/
  findings : calls.flatMap (fun call => call.verdict.findings) =
    (candidateDeclarators o t).filterMap (expected o t)
  /-- The candidates are the declarators that should be, each listed once. -/
  candidates : (candidateDeclarators o t).Nodup ∧
    ∀ d, d ∈ candidateDeclarators o t ↔ IsCandidateDeclarator o t d
  /-- The rule fails at writes that lack a target, and nowhere else. -/
  failures : ∀ call ∈ calls, ∀ failure, call.verdict.failure = some failure →
    ∃ i, call.hook = .enter i ∧ (t.kind i = .assign ∨ t.kind i = .update) ∧
      t.operands i = [] ∧ failure = .missing "write target" t i

theorem AnswersStop.findings {call : HookCall} (h : AnswersStop t call) :
    call.verdict.findings = [] := by
  rcases h with ⟨i, -, hverdict⟩ | hverdict
  · rw [hverdict, answerAt]
    split <;> rfl
  · rw [hverdict]
    rfl

theorem AnswersStop.failure {call : HookCall} (h : AnswersStop t call) {failure : Failure}
    (hfailure : call.verdict.failure = some failure) :
    ∃ i, call.hook = .enter i ∧ (t.kind i = .assign ∨ t.kind i = .update) ∧
      t.operands i = [] ∧ failure = .missing "write target" t i := by
  rcases h with ⟨i, hhook, hverdict⟩ | hverdict
  · rw [hverdict, answerAt] at hfailure
    split at hfailure
    · rename_i hlacks
      exact ⟨i, hhook, hlacks.1, hlacks.2, (Option.some.inj hfailure).symm⟩
    · cases hfailure
  · rw [hverdict] at hfailure
    cases hfailure

/-- In a walk of its own the rule finds what it should find. -/
theorem findsFinalFields_alone (o : Options) (severity : Severity) (input : WalkInput) :
    FindsFinalFields o input.tree (walk [⟨rule o, severity⟩] input).calls := by
  have htour := (tracked_throughout o severity input).now
  have hwalk : (walk [⟨rule o, severity⟩] input).calls = _ := congrArg
    (fun s : WalkState => s.calls.toList) (runWalk_eq [⟨rule o, severity⟩] input)
  unfold soloAfter at htour
  generalize input.tree.tour.foldl (WalkState.visit input (dispatch [⟨rule o, severity⟩]))
    (.start [⟨rule o, severity⟩]) = s at htour hwalk
  have hget := congrArg (fun rules => rules[0]?) htour.rules
  rw [List.length_singleton, List.range_one, WalkState.callRules_cons, WalkState.callRules_nil,
    WalkState.callRule_of_on hget] at hwalk
  simp only [Array.toList_push] at hwalk
  rw [hwalk]
  refine ⟨?_, ⟨nodup_candidateDeclarators o _, fun d => mem_candidateDeclarators⟩, ?_⟩
  · have hstops : s.calls.toList.flatMap (fun call => call.verdict.findings) = [] :=
      List.flatMap_eq_nil_iff.2 fun call hcall =>
        (htour.calls call (Array.mem_toList_iff.1 hcall)).findings
    have hfinish := finish_eq o (input.context s.scopes)
    rw [List.flatMap_append, hstops, List.flatMap_singleton, List.nil_append]
    exact congrArg Verdict.findings hfinish
  · intro call hcall failure hfailure
    rcases List.mem_append.1 hcall with hcall | hcall
    · exact (htour.calls call (Array.mem_toList_iff.1 hcall)).failure hfailure
    · rw [List.mem_singleton.1 hcall] at hfailure
      cases hfailure

/-- Among any other rules, the rule reports what is expected about every candidate of the tree, and
nothing else. -/
theorem finalFields_finds (o : Options) (severity : Severity) (before after : List ActiveRule)
    (input : WalkInput) :
    FindsFinalFields o input.tree
      ((walk (before ++ ⟨rule o, severity⟩ :: after) input).calls.filter fun call =>
        call.rule == before.length) := by
  have hget : (before ++ ⟨rule o, severity⟩ :: after)[before.length]? =
      some ⟨rule o, severity⟩ := by simp
  have halone := findsFinalFields_alone o severity input
  rw [← calls_alone hget input] at halone
  refine ⟨?_, halone.candidates, ?_⟩
  · rw [← halone.findings, List.flatMap_map]
    rfl
  · intro call hcall
    exact halone.failures call.alone (List.mem_map_of_mem hcall)

/-- The steps that build a class with a field that its constructor writes. -/
def constructorSteps : List BuildStep :=
  [.start .classDef ⟨0, 0⟩ ⟨1, 1⟩, .start .classBody ⟨0, 0⟩ ⟨1, 1⟩, .start .fieldDef ⟨0, 0⟩ ⟨2, 1⟩,
    .start .varDeclarator ⟨0, 0⟩ ⟨2, 1⟩, .start .ident ⟨0, 0⟩ ⟨2, 1⟩, .token "x", .finish, .finish,
    .finish, .start .ctorDef ⟨0, 0⟩ ⟨3, 1⟩, .start .assign ⟨0, 0⟩ ⟨3, 1⟩,
    .start .fieldAccess ⟨0, 0⟩ ⟨3, 1⟩, .token "x", .start .thisRef ⟨0, 0⟩ ⟨3, 1⟩, .finish, .finish,
    .finish, .finish, .finish, .finish]

/-- A class with a field that its constructor writes. -/
def constructorTree : Tree :=
  ((Tree.build "" constructorSteps).toOption).get (by decide +kernel)

example :
    ((candidateDeclarators {} constructorTree).filterMap (expected {} constructorTree)).map
        (fun finding => finding.message) =
      ["Field 'x' is only assigned in constructors and should be final"] := by
  decide +kernel

end SdkLint.FinalFields
