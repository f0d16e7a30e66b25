import SdkLint.Proofs.FinalFields.Run
import SdkLint.Proofs.Rules.Verdicts
import SdkLint.Proofs.Tree.Journey
import SdkLint.Proofs.Walk.Answers

/-!
# Rules stay switched on

No rule of the catalogue is ever switched off, on trees of any shape.  For the rule about final
fields this is a matter of its frames: they follow the tour, so that a type declaration finds its
own frame on top when it is left.

Main definitions:

- `StaysOn`: what it means that no rule of a walk is switched off.

Main results:

- Theorem `FinalFields.frames_along`: the open frames are those of the type declarations that have
  been entered and not left.
- Theorem `catalogue_stays_on`: all rules of the catalogue stay switched on.
-/

namespace SdkLint

/-! ## Owners of frames -/

namespace FinalFields

variable {o : Options} {severity : Severity} {input : WalkInput}

/-- The type declarations whose frames are open, innermost first. -/
def State.owners (s : State) : List NodeId :=
  s.opened.map Frame.owner

/-- The type declarations among some nodes. -/
def typesAmong (t : Tree) (nodes : List NodeId) : List NodeId :=
  nodes.filter fun i => (t.kind i).isTypeDeclaration

theorem map_owner_writeFirst (kind : CallableKind) (name : String) (frames : List Frame) :
    (writeFirst kind name frames).map Frame.owner = frames.map Frame.owner := by
  induction frames with
  | nil => rfl
  | cons frame rest ih =>
    rw [writeFirst]
    split
    · rfl
    · rw [List.map_cons, ih, List.map_cons]

/-- Noting a write leaves the frames with their owners. -/
theorem owners_write (kind : CallableKind) (s : State) (target : Target) :
    (s.write kind target).owners = s.owners := by
  cases target with
  | own name =>
    dsimp only [State.write]
    split
    · rfl
    · rename_i frame rest hopened
      simp [State.owners, hopened, Frame.write]
  | bare name => exact map_owner_writeFirst kind name s.opened

theorem owners_recordWrite (cx : Context) (target : NodeId) (s : State) :
    (recordWrite cx target s).owners = s.owners := by
  unfold recordWrite
  split
  · exact owners_write _ s _
  · rfl

/-- Entering a type declaration opens its frame, entering any other node opens none. -/
theorem owners_enter (cx : Context) (i : NodeId) (s : State) :
    (enter o cx i s).1.owners = typesAmong cx.tree [i] ++ s.owners := by
  by_cases hwrite : cx.tree.kind i = .assign ∨ cx.tree.kind i = .update
  · have hnone : typesAmong cx.tree [i] = [] := by
      simp [typesAmong, isTypeDeclaration_of_write hwrite]
    rw [hnone, List.nil_append]
    cases htarget : (cx.tree.operands i).head? with
    | none => rcases hwrite with hkind | hkind <;> simp only [enter, hkind, htarget]
    | some target =>
      rcases hwrite with hkind | hkind <;>
        simp only [enter, hkind, htarget, owners_recordWrite]
  · rw [enter_of_not_write hwrite]
    split
    · rename_i htype
      simp [State.owners, typesAmong, htype]
    · rename_i htype
      simp [typesAmong, htype]

/-- Leaving a node whose frame is on top, if it is a type declaration, closes it and fails in no
way. -/
theorem leave_of_owners {cx : Context} {i : NodeId} {s : State} {others : List NodeId}
    (h : s.owners = typesAmong cx.tree [i] ++ others) :
    (leave cx i s).1.owners = others ∧ (leave cx i s).2 = .pass := by
  by_cases htype : (cx.tree.kind i).isTypeDeclaration
  · have howners : s.opened.map Frame.owner = i :: others := by
      simpa [typesAmong, htype, State.owners] using h
    obtain ⟨frame, rest, hopened, howner, hrest⟩ := List.map_eq_cons_iff.1 howners
    simp [leave, htype, hopened, howner, State.owners, hrest]
  · have howners : s.owners = others := by
      simpa [typesAmong, htype] using h
    rw [leave, if_neg htype]
    exact ⟨howners, rfl⟩

/-- Wherever the tour is, the open frames of the rule, walking alone, are those of the type
declarations that are still to be left. -/
theorem frames_along {made agenda : List Visit} (h : input.tree.Along made agenda) :
    ∃ state : State,
      (made.foldl (WalkState.visit input (dispatch [⟨rule o, severity⟩]))
        (.start [⟨rule o, severity⟩])).rules = [⟨⟨rule o, severity⟩, some state⟩] ∧
      state.owners = typesAmong input.tree (agenda.filterMap Visit.left?) := by
  induction h with
  | start => exact ⟨{}, rfl, rfl⟩
  | @stop made agenda v h ih =>
    obtain ⟨state, hrules, howners⟩ := ih
    rw [List.foldl_append, List.foldl_cons, List.foldl_nil]
    generalize made.foldl (WalkState.visit input (dispatch [⟨rule o, severity⟩]))
      (.start [⟨rule o, severity⟩]) = s at hrules ⊢
    cases v with
    | enter i =>
      let cx := input.context (s.scopes.enter input.tree i)
      have hother (h : input.tree.kind i ∉ (rule o).kinds) : (enter o cx i state).1 = state :=
        congrArg Prod.fst (enter_of_notMem h state)
      have hmild := (enter_meets o cx state (fun _ => True) i).mild
      refine ⟨(enter o cx i state).1, ?_, ?_⟩
      · exact And.left (WalkState.callRules_alone (.enter i) _ hrules rfl hother hmild)
      · rw [owners_enter, howners, List.filterMap_append, Tree.left_following_enter]
        exact (List.filter_append ..).symm
    | leave i =>
      let cx := input.context s.scopes
      have hsplit : state.owners = typesAmong cx.tree [i] ++
          typesAmong input.tree (agenda.filterMap Visit.left?) :=
        howners.trans (List.filter_append [i] _)
      obtain ⟨hothers, hpass⟩ := leave_of_owners hsplit
      have hother (h : input.tree.kind i ∉ (rule o).kinds) : (leave cx i state).1 = state :=
        congrArg Prod.fst (leave_of_notMem h state)
      have hmild : (leave cx i state).2.isFatal = false := congrArg Verdict.isFatal hpass
      refine ⟨(leave cx i state).1, ?_, hothers⟩
      exact And.left (WalkState.callRules_alone (.leave i) _ hrules rfl hother hmild)

end FinalFields

/-! ## All rules -/

/-- What it means that no rule of a walk is switched off. -/
structure StaysOn (rules : List ActiveRule) (input : WalkInput) : Prop where
  /-- No call fails internally. -/
  mild : ∀ call ∈ (walk rules input).calls, ∀ detail,
    call.verdict.failure ≠ some (.internal detail)
  /-- All calls that are due are made. -/
  complete : ((walk rules input).calls.map fun call => (call.rule, call.hook)) =
    callsDue rules input.tree
  /-- Whatever stops have been made, the open frames of the rule about final fields are those of the
  type declarations entered and not left, innermost first. -/
  inSync : ∀ (place : Nat) (o : FinalFields.Options) (severity : Severity),
    rules[place]? = some ⟨FinalFields.rule o, severity⟩ →
    ∀ made rest : List Visit, input.tree.tour = made ++ rest →
      ∃ state : FinalFields.State,
        (made.foldl (WalkState.visit input (dispatch rules)) (.start rules)).rules[place]? =
            some ⟨⟨FinalFields.rule o, severity⟩, some state⟩ ∧
          state.opened.map FinalFields.Frame.owner =
            (Tree.openAfter made).filter fun i => (input.tree.kind i).isTypeDeclaration

/-- Every call of a rule of the catalogue is answered without an internal failure. -/
theorem mild_of_catalogued {rules : List ActiveRule} {input : WalkInput}
    (catalogued : ∀ r ∈ rules, r.rule.FromCatalogue) :
    ∀ call ∈ (walk rules input).calls, call.verdict.isFatal = false := by
  intro call hcall
  obtain ⟨r, state, hget, hverdict⟩ := walk_answers rules input call hcall
  rcases (catalogued r (List.mem_of_getElem? hget)).meets with ⟨o, hrule⟩ | hmeets
  · obtain ⟨rule, severity⟩ := r
    obtain rfl : rule = FinalFields.rule o := hrule
    have halone : call.alone ∈ (walk [⟨FinalFields.rule o, severity⟩] input).calls := by
      rw [← calls_alone hget input]
      exact List.mem_map_of_mem (List.mem_filter.2 ⟨hcall, by simp⟩)
    cases hfailure : call.verdict.failure with
    | none => simp [Verdict.isFatal, hfailure]
    | some failure =>
      obtain ⟨i, -, -, -, rfl⟩ := (FinalFields.findsFinalFields_alone o severity input).failures
        call.alone halone failure hfailure
      simp [Verdict.isFatal, hfailure, Failure.missing]
  · exact hverdict ▸ (hmeets _ state call.hook).mild

/-- The rules of the catalogue stay switched on, whatever the tree and the options are. -/
theorem catalogue_stays_on (rules : List ActiveRule) (input : WalkInput)
    (catalogued : ∀ r ∈ rules, r.rule.FromCatalogue) : StaysOn rules input where
  mild := by
    intro call hcall detail hfailure
    have hmild := mild_of_catalogued catalogued call hcall
    simp [Verdict.isFatal, hfailure] at hmild
  complete := by
    have hout : CarriedOut [] (callsDue rules input.tree) (walk rules input).calls :=
      runWalk_carriedOut rules input
    exact hout.map_eq_of_mild (mild_of_catalogued catalogued)
  inSync := by
    intro place o severity hget made rest hmade
    obtain ⟨agenda, halong, -⟩ := Tree.exists_along hmade
    obtain ⟨state, hrules, howners⟩ := FinalFields.frames_along halong
    have hfocused := (WalkState.focused_start hget).stops hget input made
    obtain ⟨r, hplace, hsolo⟩ := hfocused.rules
    rw [hrules, List.singleton_inj] at hsolo
    exact ⟨state, hsolo ▸ hplace, halong.left_agenda ▸ howners⟩

/-- A tree that no text has: a class below an assignment below an enumeration below a method, a
class next to the assignment, a throw statement without expression and an assignment without
target. -/
def oddSteps : List BuildStep :=
  [.start .methodDef ⟨0, 0⟩ ⟨1, 1⟩, .start .enumDef ⟨0, 0⟩ ⟨2, 1⟩, .start .assign ⟨0, 0⟩ ⟨3, 1⟩,
    .start .classDef ⟨0, 0⟩ ⟨4, 1⟩, .start .throwStmt ⟨0, 0⟩ ⟨5, 1⟩, .finish, .finish, .finish,
    .start .interfaceDef ⟨0, 0⟩ ⟨6, 1⟩, .start .assign ⟨0, 0⟩ ⟨7, 1⟩, .finish, .finish, .finish,
    .finish]

def oddInput : WalkInput where
  file := .ofPath "A.java" "" ""
  tree := ((Tree.build "" oddSteps).toOption).get (by decide +kernel)
  resolver := fun _ => none

/-- Rules fail for want of input at several nodes of the tree, and stay switched on. -/
theorem oddInput_stays_on :
    (∀ r ∈ catalogueRules, r.rule.FromCatalogue) ∧
      ((walk catalogueRules oddInput).calls.filter fun call => call.verdict.failure.isSome).length =
        3 ∧
      StaysOn catalogueRules oddInput := by
  have hcatalogued : ∀ r ∈ catalogueRules, r.rule.FromCatalogue :=
    Config.fromCatalogue_of_mem_activate {} _
  exact ⟨hcatalogued, by decide +kernel, catalogue_stays_on _ _ hcatalogued⟩

end SdkLint
