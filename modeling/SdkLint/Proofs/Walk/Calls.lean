import SdkLint.Proofs.Tree.Tour
import SdkLint.Proofs.Walk.Responses

/-!
# The calls that a walk makes

The calls that are due are a function of the tree and of the kinds that the rules list: around every
node the calls on the way in, those around its children and the calls on the way out, and the calls
at the end.  A walk makes the calls that are due, in this order, except those of rules that an
earlier call has switched off.

Main definitions:

- `callsAround`, `callsDue`: the calls that are due around a node and in a whole walk.
- `CarriedOut`: calls that are made where some are due, whatever they answer.

Main results:

- Theorem `enter_mem_callsDue`: a rule is due on the way into every node of a kind that it lists.
- Theorem `CarriedOut.made_or_switchedOff`: a call that is due is made unless its rule is switched
  off.
- Theorem `CarriedOut.not_switchedOff`: no call is made of a rule that is switched off.
- Theorem `runWalk_carriedOut`: a walk makes the calls that are due.
- Theorem `walk_completes`: a walk enters and leaves every node once and makes exactly the calls
  that are due, none of them twice, and puts down what the checks of the rules answer to them.
-/

namespace SdkLint

/-! ## Calls that are due -/

/-- The calls that are due on an occasion at a node: one of every rule that lists the node's kind,
in the order of the rules. -/
def callsAt (rules : List ActiveRule) (t : Tree) (hook : Hook) (i : NodeId) :
    List (Nat × Hook) :=
  (Dispatch.askers (rules.map fun r => r.rule.kinds) (t.kind i)).map fun place => (place, hook)

/-- The calls that are due around a node: on the way in, around its children from left to right,
and on the way out. -/
def callsAround (rules : List ActiveRule) (t : Tree) (i : NodeId) : List (Nat × Hook) :=
  callsAt rules t (.enter i) i ++
    (t.children i).attach.flatMap (fun ⟨c, _h⟩ => callsAround rules t c) ++
    callsAt rules t (.leave i) i
termination_by t.size - i
decreasing_by
  have := t.lt_of_mem_children _h
  have := t.lt_size_of_mem_children _h
  omega

/-- The calls that are due in a walk: those around the root, and one of every rule at the end. -/
def callsDue (rules : List ActiveRule) (t : Tree) : List (Nat × Hook) :=
  callsAround rules t Tree.root ++ (List.range rules.length).map fun place => (place, .finish)

theorem callsAround_eq (rules : List ActiveRule) (t : Tree) (i : NodeId) :
    callsAround rules t i =
      callsAt rules t (.enter i) i ++ (t.children i).flatMap (callsAround rules t) ++
        callsAt rules t (.leave i) i := by
  rw [callsAround]
  simp [List.flatMap_subtype]

/-- The calls that are due around a node are those at the stops of its part of the tour. -/
theorem callsAround_eq_flatMap (rules : List ActiveRule) (t : Tree) (i : NodeId) :
    callsAround rules t i =
      (t.tourFrom i).flatMap fun v => callsAt rules t v.hook v.node := by
  induction i using t.childInduction with
  | node i ih =>
      rw [callsAround_eq, t.tourFrom_eq, List.flatMap_congr ih]
      simp [List.flatMap_assoc, Visit.hook, Visit.node]

/-- A rule is due on the way into every node of a kind that it lists. -/
theorem enter_mem_callsDue {rules : List ActiveRule} {t : Tree} {place : Nat} {r : ActiveRule}
    (hget : rules[place]? = some r) {i : NodeId} (hi : i < t.size)
    (hkind : t.kind i ∈ r.rule.kinds) : (place, .enter i) ∈ callsDue rules t := by
  obtain ⟨made, rest, htour⟩ := t.exists_tour_eq hi
  have hstop : Visit.enter i ∈ t.tourFrom Tree.root := by
    rw [Tree.tour] at htour
    simp [htour]
  have hasked : place ∈ Dispatch.askers (rules.map fun r => r.rule.kinds) (t.kind i) :=
    Dispatch.mem_askers.2 ⟨r.rule.kinds, by simp [hget], hkind⟩
  rw [callsDue, callsAround_eq_flatMap]
  exact List.mem_append_left _ (List.mem_flatMap.2 ⟨.enter i, hstop, List.mem_map_of_mem hasked⟩)

/-- No call is due twice. -/
theorem nodup_callsDue (rules : List ActiveRule) (t : Tree) : (callsDue rules t).Nodup := by
  have hat : ∀ hook i, (callsAt rules t hook i).Nodup := fun hook i =>
    (Dispatch.nodup_askers _ _).map fun a b h => (Prod.mk.inj h).1
  rw [callsDue, callsAround_eq_flatMap, List.nodup_append]
  refine ⟨?_, List.nodup_range.map fun a b h => (Prod.mk.inj h).1, ?_⟩
  · refine List.nodup_flatMap.2 ⟨fun v _ => hat _ _, ?_⟩
    refine (t.nodup_tourFrom Tree.root).imp fun {v w} hvw => ?_
    -- Calls at different stops differ in their occasion.
    intro call hv hw
    obtain ⟨place, _, rfl⟩ := List.mem_map.1 hv
    obtain ⟨place', _, heq⟩ := List.mem_map.1 hw
    have hhook : w.hook = v.hook := (Prod.mk.inj heq).2
    cases v <;> cases w <;> simp_all [Visit.hook]
  · intro a ha b hb hab
    obtain ⟨v, _, hv⟩ := List.mem_flatMap.1 ha
    obtain ⟨place, _, rfl⟩ := List.mem_map.1 hv
    obtain ⟨place', _, rfl⟩ := List.mem_map.1 hb
    cases v <;> simp [Visit.hook] at hab

/-! ## Calls that are made -/

/-- Whether one of the calls made so far has switched a rule off. -/
def SwitchedOff (past : List HookCall) (place : Nat) : Prop :=
  ∃ call ∈ past, call.rule = place ∧ call.verdict.isFatal = true

/-- `CarriedOut past due calls`: after the calls of `past`, the calls that are `due` are made in
order, each with any answer, except those of rules that a call before has switched off. -/
inductive CarriedOut : List HookCall → List (Nat × Hook) → List HookCall → Prop
  | done {past : List HookCall} : CarriedOut past [] []
  | leftOut {past calls : List HookCall} {place : Nat} {hook : Hook} {due : List (Nat × Hook)} :
      SwitchedOff past place → CarriedOut past due calls →
      CarriedOut past ((place, hook) :: due) calls
  | made {past calls : List HookCall} (call : HookCall) {due : List (Nat × Hook)} :
      ¬ SwitchedOff past call.rule → CarriedOut (past ++ [call]) due calls →
      CarriedOut past ((call.rule, call.hook) :: due) (call :: calls)

namespace CarriedOut

variable {past calls calls' : List HookCall} {due due' : List (Nat × Hook)}

theorem single {place : Nat} {hook : Hook} {scopes : ScopeStack} {verdict : Verdict}
    (h : ¬ SwitchedOff past place) :
    CarriedOut past [(place, hook)] [{ rule := place, hook, scopes, verdict }] :=
  .made ⟨place, hook, scopes, verdict⟩ h .done

theorem append (h : CarriedOut past due calls) (h' : CarriedOut (past ++ calls) due' calls') :
    CarriedOut past (due ++ due') (calls ++ calls') := by
  induction h with
  | done => simpa using h'
  | leftOut hoff _ ih => exact .leftOut hoff (ih h')
  | made call hon _ ih => exact .made call hon (ih (by simpa using h'))

/-- The calls that are made are among those that are due, in the same order. -/
theorem sublist (h : CarriedOut past due calls) :
    (calls.map fun call => (call.rule, call.hook)).Sublist due := by
  induction h with
  | done => exact .slnil
  | leftOut _ _ ih => exact .cons _ ih
  | made _ _ _ ih => exact .cons_cons _ ih

/-- No call is made of a rule that an earlier call has switched off. -/
theorem not_switchedOff {before after : List HookCall} {call : HookCall}
    (h : CarriedOut past due calls) (hcalls : calls = before ++ call :: after) :
    ¬ SwitchedOff (past ++ before) call.rule := by
  induction h generalizing before with
  | done => simp at hcalls
  | leftOut _ _ ih => exact ih hcalls
  | made first hon _ ih =>
      cases before with
      | nil =>
          obtain ⟨rfl, -⟩ := List.cons.inj hcalls
          simpa using hon
      | cons b before =>
          obtain ⟨rfl, hrest⟩ := List.cons.inj hcalls
          simpa using ih hrest

/-- A call that is due is made unless its rule is switched off. -/
theorem made_or_switchedOff (h : CarriedOut past due calls) {place : Nat} {hook : Hook}
    (hdue : (place, hook) ∈ due) :
    (∃ call ∈ calls, call.rule = place ∧ call.hook = hook) ∨ SwitchedOff (past ++ calls) place := by
  induction h with
  | done => cases hdue
  | leftOut hoff _ ih =>
      rcases List.mem_cons.1 hdue with heq | hdue
      · obtain ⟨rfl, -⟩ := Prod.mk.inj heq
        obtain ⟨call, hcall, hfatal⟩ := hoff
        exact .inr ⟨call, List.mem_append_left _ hcall, hfatal⟩
      · exact ih hdue
  | made call _ _ ih =>
      rcases List.mem_cons.1 hdue with heq | hdue
      · obtain ⟨rfl, rfl⟩ := Prod.mk.inj heq
        exact .inl ⟨call, List.mem_cons_self, rfl, rfl⟩
      · rcases ih hdue with ⟨other, hother, hcalled⟩ | hoff
        · exact .inl ⟨other, List.mem_cons_of_mem _ hother, hcalled⟩
        · exact .inr (by simpa using hoff)

/-- If no answer is fatal, all calls that are due are made. -/
theorem map_eq_of_mild (h : CarriedOut past due calls)
    (hmild : ∀ call ∈ past ++ calls, call.verdict.isFatal = false) :
    (calls.map fun call => (call.rule, call.hook)) = due := by
  induction h with
  | done => rfl
  | leftOut hoff _ _ =>
      obtain ⟨call, hcall, -, hfatal⟩ := hoff
      rw [hmild call (List.mem_append_left _ hcall)] at hfatal
      cases hfatal
  | made call _ _ ih =>
      exact congrArg ((call.rule, call.hook) :: ·) (ih (by simpa using hmild))

end CarriedOut

/-! ## A walk makes the calls that are due -/

namespace WalkState

variable (input : WalkInput) {n : Nat}

/-- There are `n` rules, and those without a state are those that a call has switched off. -/
structure Tracked (n : Nat) (s : WalkState) : Prop where
  length : s.rules.length = n
  off : ∀ (place : Nat) (r : Running), s.rules[place]? = some r →
    (r.state = none ↔ SwitchedOff s.calls.toList place)

/-- From `s` to `s'` the calls that are `due` have been carried out. -/
def Carries (n : Nat) (due : List (Nat × Hook)) (s s' : WalkState) : Prop :=
  s.Tracked n → s'.Tracked n ∧ ∃ calls, s'.calls.toList = s.calls.toList ++ calls ∧
    CarriedOut s.calls.toList due calls

theorem Carries.refl (s : WalkState) : Carries n [] s s :=
  fun h => ⟨h, [], by simp, .done⟩

theorem Carries.trans {due due' : List (Nat × Hook)} {s s' s'' : WalkState}
    (h : Carries n due s s') (h' : Carries n due' s' s'') : Carries n (due ++ due') s s'' := by
  intro hs
  obtain ⟨hs', calls, heq, hout⟩ := h hs
  obtain ⟨hs'', calls', heq', hout'⟩ := h' hs'
  refine ⟨hs'', calls ++ calls', by simp [heq', heq], hout.append ?_⟩
  rwa [← heq]

/-- Being tracked depends on the rules and calls alone. -/
theorem Carries.moved (s : WalkState) (scopes : ScopeStack) (entered left : Nat) :
    Carries n [] s { s with scopes, entered, left } :=
  fun h => ⟨⟨h.length, h.off⟩, [], by simp, .done⟩

theorem switchedOff_append_singleton {past : List HookCall} {call : HookCall} {place : Nat} :
    SwitchedOff (past ++ [call]) place ↔
      SwitchedOff past place ∨ call.rule = place ∧ call.verdict.isFatal = true := by
  simp [SwitchedOff, or_and_right, exists_or]

/-- One call is carried out: it is made unless the rule is switched off, and it switches the rule
off if its answer is fatal. -/
theorem callRule_carries (s : WalkState) (hook : Hook) {place : Nat} (hplace : place < n) :
    Carries n [(place, hook)] s (s.callRule input hook place) := by
  intro hs
  rcases hget : s.rules[place]? with _ | ⟨r, _ | state⟩
  · have := List.getElem?_eq_none_iff.1 hget
    have := hs.length
    omega
  · rw [callRule_of_off hget]
    exact ⟨hs, [], by simp, .leftOut ((hs.off place _ hget).1 rfl) .done⟩
  · have hon : ¬ SwitchedOff s.calls.toList place := by
      rw [← hs.off place _ hget]
      simp
    rw [callRule_of_on hget]
    refine ⟨⟨by simpa using hs.length, ?_⟩, [_], Array.toList_push, .single hon⟩
    intro q r' hr'
    simp only [Array.toList_push, switchedOff_append_singleton]
    rw [List.getElem?_set] at hr'
    by_cases hq : place = q
    · subst hq
      have hlt : place < s.rules.length := (List.getElem?_eq_some_iff.1 hget).1
      simp only [if_true, hlt, Option.some.injEq] at hr'
      subst hr'
      simp [hon]
    · simp only [hq, if_false] at hr'
      simp [hs.off q r' hr', hq]

theorem callRules_carries (s : WalkState) (hook : Hook) {places : List Nat}
    (hplaces : ∀ place ∈ places, place < n) :
    Carries n (places.map fun place => (place, hook)) s (s.callRules input hook places) := by
  induction places generalizing s with
  | nil => exact .refl s
  | cons place places ih =>
      rw [callRules_cons]
      have hfirst := callRule_carries input s hook (hplaces place (by simp))
      exact hfirst.trans (ih _ fun q hq => hplaces q (by simp [hq]))

theorem visit_carries (rules : List ActiveRule) (s : WalkState) (v : Visit) :
    Carries rules.length (callsAt rules input.tree v.hook v.node) s
      (s.visit input (dispatch rules) v) := by
  have hcalls := fun s => callRules_carries input s v.hook
    fun place (h : place ∈ (dispatch rules).subscribers (input.tree.kind v.node)) =>
      lt_length_of_mem_subscribers h
  rw [dispatch_subscribers] at hcalls
  cases v with
  | enter i =>
      have h := (Carries.moved s (s.scopes.enter input.tree i) (s.entered + 1) s.left).trans
        (hcalls _)
      rw [← dispatch_subscribers] at h
      simpa [callsAt, visit, Visit.hook, Visit.node, dispatch_subscribers] using h
  | leave i =>
      have h := (hcalls s).trans (Carries.moved _ (s.scopes.leave input.tree i) s.entered
        (s.left + 1))
      simpa [callsAt, visit, Visit.hook, Visit.node, dispatch_subscribers] using h

theorem stops_carries (rules : List ActiveRule) (s : WalkState) (stops : List Visit) :
    Carries rules.length (stops.flatMap fun v => callsAt rules input.tree v.hook v.node) s
      (stops.foldl (visit input (dispatch rules)) s) := by
  induction stops generalizing s with
  | nil => exact .refl s
  | cons v stops ih =>
      rw [List.flatMap_cons, List.foldl_cons]
      exact (visit_carries input rules s v).trans (ih _)

theorem start_tracked (rules : List ActiveRule) : (start rules).Tracked rules.length where
  length := by simp [start]
  off := by
    intro place r hr
    simp only [start, List.getElem?_map, Option.map_eq_some_iff] at hr
    obtain ⟨r, -, rfl⟩ := hr
    simp [ActiveRule.running, start, SwitchedOff]

end WalkState

/-- A walk makes the calls that are due. -/
theorem runWalk_carriedOut (rules : List ActiveRule) (input : WalkInput) :
    CarriedOut [] (callsDue rules input.tree) (runWalk rules input).calls.toList := by
  have hstops := WalkState.stops_carries input rules (.start rules) input.tree.tour
  have hend := fun s => WalkState.callRules_carries input s .finish
    fun place (h : place ∈ List.range rules.length) => List.mem_range.1 h
  rw [runWalk_eq]
  obtain ⟨-, calls, heq, hout⟩ := (hstops.trans (hend _)) (WalkState.start_tracked rules)
  have hnone : (WalkState.start rules).calls.toList = [] := rfl
  rw [hnone, List.nil_append] at heq
  rw [heq, callsDue, callsAround_eq_flatMap]
  exact hout

/-! ## Nodes entered and left -/

theorem foldl_visit_entered (input : WalkInput) (d : Dispatch) (stops : List Visit)
    (s : WalkState) :
    (stops.foldl (WalkState.visit input d) s).entered =
      s.entered + (stops.filterMap Visit.entered?).length := by
  induction stops generalizing s with
  | nil => rfl
  | cons v stops ih =>
      rw [List.foldl_cons, ih]
      cases v with
      | enter i =>
          simp [WalkState.visit, Visit.entered?, Nat.add_assoc, Nat.add_comm 1]
      | leave i => simp [WalkState.visit, List.filterMap_cons, Visit.entered?]

theorem foldl_visit_left (input : WalkInput) (d : Dispatch) (stops : List Visit)
    (s : WalkState) :
    (stops.foldl (WalkState.visit input d) s).left =
      s.left + (stops.filterMap Visit.left?).length := by
  induction stops generalizing s with
  | nil => rfl
  | cons v stops ih =>
      rw [List.foldl_cons, ih]
      cases v with
      | enter i => simp [WalkState.visit, List.filterMap_cons, Visit.left?]
      | leave i =>
          simp [WalkState.visit, Visit.left?, Nat.add_assoc, Nat.add_comm 1]

/-- A walk enters as many nodes as the tree has. -/
theorem runWalk_entered (rules : List ActiveRule) (input : WalkInput) :
    (runWalk rules input).entered = input.tree.size := by
  rw [runWalk_eq, WalkState.callRules_entered, foldl_visit_entered,
    Tree.entered_tour, List.length_range]
  exact Nat.zero_add _

/-- A walk leaves as many nodes as the tree has. -/
theorem runWalk_left (rules : List ActiveRule) (input : WalkInput) :
    (runWalk rules input).left = input.tree.size := by
  have hleft : ((input.tree.tourFrom Tree.root).filterMap Visit.left?).length =
      input.tree.size := by
    have hperm := (input.tree.leaving_perm Tree.root).length_eq
    rwa [Tree.subtree_root, List.length_range] at hperm
  rw [runWalk_eq, WalkState.callRules_left, foldl_visit_left, Tree.tour, hleft]
  exact Nat.zero_add _

/-- A walk enters and leaves every node of the tree once.  Whatever the rules answer, it makes the
calls that are due, in order, except those of rules switched off by then, and makes none twice.  The
answers put down for a rule are those of its check, called from its start with these calls. -/
theorem walk_completes (rules : List ActiveRule) (input : WalkInput) :
    (walk rules input).stats =
        { nodes := input.tree.size, entered := input.tree.size, left := input.tree.size } ∧
      CarriedOut [] (callsDue rules input.tree) (walk rules input).calls ∧
      ((walk rules input).calls.map fun call => (call.rule, call.hook)).Nodup ∧
      ∀ place r, rules[place]? = some r →
        (callsOf place (walk rules input).calls).map HookCall.verdict =
          r.rule.check.responses input r.rule.check.start
            (callsOf place (walk rules input).calls) := by
  have hout : CarriedOut [] (callsDue rules input.tree) (walk rules input).calls :=
    runWalk_carriedOut rules input
  refine ⟨?_, hout, (nodup_callsDue rules input.tree).sublist hout.sublist,
    fun place r hget => walk_responds rules input hget⟩
  simp [walk, runWalk_entered, runWalk_left]

end SdkLint
