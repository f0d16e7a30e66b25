import SdkLint.Proofs.Rules.FromCatalogue
import SdkLint.Rule.Walk

/-!
# What rules report on

The findings of a rule are about the text of nodes, save for the rule about Javadoc, which points at
stretches of text inside comments.  Apart from the rule about final fields, no rule has a way to
fail internally.

Main definitions:

- `Finding.AnchoredIn`: a finding about the text of a node.
- `Finding.PlacedIn`: a finding about the text of a node or inside a comment.
- `Verdict.Meets`: an answer whose findings are of some sort and which is not fatal.

Main results:

- Theorem `FinalFields.findings_anchored`: the rule about final fields reports on nodes.
- Theorem `Rule.FromCatalogue.meets`: so do all others, or inside comments, and they never fail
  internally.
-/

namespace SdkLint

/-! ## Findings -/

/-- A finding that stands where a node does, and is about its text. -/
def Finding.AnchoredIn (t : Tree) (finding : Finding) : Prop :=
  ∃ i, finding.position = t.position i ∧ finding.span = t.span i

/-- A finding about a Javadoc comment. -/
def Javadoc.IsRemark (t : Tree) (finding : Finding) : Prop :=
  ∃ i token, t.isJavadoc i = true ∧ t.token i = some token ∧
    finding ∈ checkComment ⟨t.position i, t.span i⟩ token.toList

/-- A finding about the text of a node, or about a Javadoc comment. -/
def Finding.PlacedIn (t : Tree) (finding : Finding) : Prop :=
  finding.AnchoredIn t ∨ Javadoc.IsRemark t finding

/-! ## Lists of findings -/

/-- All findings of a list are of some sort. -/
def Finding.Every (P : Finding → Prop) (findings : List Finding) : Prop :=
  ∀ finding ∈ findings, P finding

namespace Finding.Every

variable {P : Finding → Prop}

theorem nil : Every P [] :=
  List.forall_mem_nil P

theorem one {finding : Finding} (h : P finding) : Every P [finding] :=
  List.forall_mem_singleton.2 h

theorem append {findings more : List Finding} (h : Every P findings) (hmore : Every P more) :
    Every P (findings ++ more) :=
  List.forall_mem_append.2 ⟨h, hmore⟩

theorem ite {findings others : List Finding} (p : Bool) (h : Every P findings)
    (hothers : Every P others) : Every P (if p then findings else others) := by
  cases p with
  | true => exact h
  | false => exact hothers

theorem map {α : Type} (items : List α) {f : α → Finding} (h : ∀ a, P (f a)) :
    Every P (items.map f) :=
  List.forall_mem_map.2 fun a _ => h a

theorem flatMap {α : Type} (items : List α) {f : α → List Finding} (h : ∀ a, Every P (f a)) :
    Every P (items.flatMap f) := by
  intro finding hfinding
  obtain ⟨a, -, hfinding⟩ := List.mem_flatMap.1 hfinding
  exact h a finding hfinding

end Finding.Every

theorem Tree.anchored_finding (t : Tree) (i : NodeId) (message : String) (help : Option String) :
    (t.finding i message help).AnchoredIn t :=
  ⟨i, rfl, rfl⟩

/-! ## Answers -/

/-- An answer whose findings are of some sort and which is not fatal. -/
structure Verdict.Meets (P : Finding → Prop) (v : Verdict) : Prop where
  findings : Finding.Every P v.findings
  mild : v.isFatal = false

namespace Verdict.Meets

variable {P : Finding → Prop}

theorem mono {Q : Finding → Prop} {v : Verdict} (h : v.Meets P)
    (hsort : ∀ finding, P finding → Q finding) : v.Meets Q :=
  ⟨fun finding hfinding => hsort finding (h.findings finding hfinding), h.mild⟩

theorem pass : Meets P .pass :=
  ⟨.nil, rfl⟩

theorem report {findings : List Finding} (h : Finding.Every P findings) :
    Meets P (.report findings) :=
  ⟨h, rfl⟩

theorem malformed (detail : String) : Meets P (.fail (.malformed detail)) :=
  ⟨.nil, rfl⟩

theorem ite {v w : Verdict} (p : Bool) (hv : Meets P v) (hw : Meets P w) :
    Meets P (if p then v else w) := by
  cases p with
  | true => exact hv
  | false => exact hw

theorem andThen {v w : Verdict} (hv : Meets P v) (hw : Meets P w) : Meets P (v.andThen w) := by
  unfold Verdict.andThen
  split
  · exact hv
  · exact ⟨hv.findings.append hw.findings, hw.mild⟩

/-- A check that asks for a value, and calls its lack malformed input. -/
theorem require {α : Type} (value : Option α) (detail : String) {next : α → Verdict}
    (h : ∀ a, Meets P (next a)) : Meets P (.require value (.malformed detail) next) := by
  cases value with
  | none => exact malformed detail
  | some a => exact h a

/-- A check that looks at every node by itself answers as its judgements do. -/
theorem ofNodes {judge : Context → NodeId → Verdict} {cx : Context}
    (h : ∀ i, Meets P (judge cx i)) (state : (Check.ofNodes judge).State) (hook : Hook) :
    Meets P ((Check.ofNodes judge).respond cx state hook).2 := by
  cases hook with
  | enter i => exact h i
  | leave i => exact pass
  | finish => exact pass

end Verdict.Meets

/-! ## Rules that look at every node by itself -/

section Judges

variable (cx : Context) (i : NodeId)

theorem ImmutableFields.judge_meets (o : Options) :
    (judge o cx i).Meets (Finding.AnchoredIn cx.tree) := by
  refine .ite _ .pass ?_
  split
  · -- A field.
    exact .ite _ .pass (.report (.map _ fun _ => cx.tree.anchored_finding _ _ _))
  · -- A method.
    refine .require _ _ fun anchor => ?_
    split
    · exact .pass
    · exact .ite _ .pass (.ite _ .pass (.report (.one (cx.tree.anchored_finding _ _ _))))
  · exact .pass

theorem DirectThrow.judge_meets (policy : ExceptionPolicy) :
    (judge policy cx i).Meets (Finding.AnchoredIn cx.tree) :=
  .require _ _ fun _ => .ite _ .pass <| .require _ _ fun _ =>
    .ite _ .pass (.report (.one (cx.tree.anchored_finding _ _ _)))

theorem LoggerThrow.judge_meets (policy : ExceptionPolicy) :
    (judge policy cx i).Meets (Finding.AnchoredIn cx.tree) :=
  .ite _ .pass <| .require _ _ fun _ => .ite _ .pass <| .ite _ .pass <| .ite _ .pass <|
    .report (.one (cx.tree.anchored_finding _ _ _))

theorem LoggedThrown.judge_meets (policy : ExceptionPolicy) :
    (judge policy cx i).Meets (Finding.AnchoredIn cx.tree) := by
  refine .ite _ .pass ?_
  split
  · exact .pass
  · exact .pass
  · exact .report (.one (cx.tree.anchored_finding _ _ _))
  · split
    · exact .pass
    · exact .ite _ .pass (.report (.one (cx.tree.anchored_finding _ _ _)))

theorem CauseKept.judge_meets (policy : ExceptionPolicy) :
    (judge policy cx i).Meets (Finding.AnchoredIn cx.tree) :=
  .require _ _ fun _ => .require _ _ fun _ =>
    .report (.map _ fun _ => cx.tree.anchored_finding _ _ _)

theorem BannedApi.judge_meets (o : Options) :
    (judge o cx i).Meets (Finding.AnchoredIn cx.tree) := by
  refine .ite _ .pass ?_
  split
  · exact .report (.one (cx.tree.anchored_finding _ _ _))
  · exact .pass

theorem Logging.judge_meets (o : Options) :
    (judge o cx i).Meets (Finding.AnchoredIn cx.tree) := by
  unfold judge
  split
  · -- An import.
    dsimp only [checkImport]
    split
    · exact .report (.one (cx.tree.anchored_finding _ _ _))
    · exact .pass
  · -- A field.
    refine .ite _ .pass (.report (.flatMap _ fun field => .append ?_ ?_))
    · exact .ite _ .nil (.one (cx.tree.anchored_finding _ _ _))
    · exact .ite _ .nil (.one (cx.tree.anchored_finding _ _ _))
  · -- The creation of an object.
    refine .ite _ .pass (.require _ _ fun args => ?_)
    split
    · split
      · exact .pass
      · exact .ite _ .pass (.report (.one (cx.tree.anchored_finding _ _ _)))
    · exact .pass
  · exact .pass

/-- The rule about Javadoc reports on comments. -/
theorem Javadoc.judge_meets : (judge cx i).Meets (IsRemark cx.tree) := by
  dsimp only [judge]
  split
  case h_1 token htoken =>
    split
    case isTrue hjavadoc =>
      exact .report fun finding hfinding => ⟨i, token, hjavadoc, htoken, hfinding⟩
    case isFalse => exact .pass
  case h_2 => exact .pass

end Judges

/-! ## Clients -/

namespace ClientShape

variable (o : Options) (t : Tree)

theorem checkWrapper_anchored (op : Operation) :
    Finding.Every (Finding.AnchoredIn t) (checkWrapper o t op) :=
  .ite _ .nil (.one (t.anchored_finding _ _ _))

theorem checkEnvelope_anchored (op : Operation) :
    Finding.Every (Finding.AnchoredIn t) (checkEnvelope o t op) :=
  .ite _ (.one (t.anchored_finding _ _ _)) (.ite _ (.one (t.anchored_finding _ _ _)) .nil)

theorem checkContext_anchored (op : Operation) :
    Finding.Every (Finding.AnchoredIn t) (checkContext o t op) := by
  dsimp only [checkContext]
  split
  · exact .ite _ (.one (t.anchored_finding _ _ _)) .nil
  · exact .ite _ (.one (t.anchored_finding _ _ _)) .nil

theorem checkOperation_meets (isAsync : Bool) (method anchor marker : NodeId) :
    (checkOperation o t isAsync method anchor marker).Meets (Finding.AnchoredIn t) := by
  refine .andThen (.report (.ite _ (.one (t.anchored_finding _ _ _)) .nil)) ?_
  refine .require _ _ fun returns => .require _ _ fun kind => .require _ _ fun returnType => ?_
  exact .report (.append (.append (checkWrapper_anchored o t _) (checkEnvelope_anchored o t _))
    (checkContext_anchored o t _))

theorem checkClass_meets (i : NodeId) (isAsync : Bool) :
    (checkClass o t i isAsync).Meets (Finding.AnchoredIn t) := by
  refine .require _ _ fun anchor => .ite _ (.ite _ .pass ?_) (.ite _ ?_ (.ite _ .pass ?_))
  all_goals exact .report (.one (t.anchored_finding _ _ _))

theorem checkMember_meets (i : NodeId) (isAsync : Bool) :
    (checkMember o t i isAsync).Meets (Finding.AnchoredIn t) := by
  unfold checkMember
  split
  · -- A constructor.
    exact .ite _ (.report (.one (t.anchored_finding _ _ _))) .pass
  · -- A field.
    exact .ite _ .pass (.report (.map _ fun _ => t.anchored_finding _ _ _))
  · -- A method.
    refine .require _ _ fun anchor => .andThen (.report ?_) ?_
    · exact .ite _ (.one (t.anchored_finding _ _ _)) .nil
    · split
      · exact checkOperation_meets o t isAsync i anchor _
      · exact .pass
  · exact .pass

theorem judge_meets (cx : Context) (i : NodeId) :
    (judge o cx i).Meets (Finding.AnchoredIn cx.tree) := by
  refine .ite _ ?_ ?_
  · split
    · exact checkClass_meets o cx.tree i _
    · exact .pass
  · split
    · exact .pass
    · refine .ite _ .pass ?_
      split
      · exact checkMember_meets o cx.tree i _
      · exact .pass

end ClientShape

/-! ## Final fields -/

namespace FinalFields

variable (o : Options) (cx : Context) (state : State)

/-- On entering a node the rule says nothing, or fails for want of a target of a write. -/
theorem enter_meets (P : Finding → Prop) (i : NodeId) : (enter o cx i state).2.Meets P := by
  dsimp only [enter]
  split
  · split
    · exact .pass
    · exact .malformed _
  · split
    · exact .pass
    · exact .malformed _
  · split
    · exact .pass
    · exact .pass

theorem leave_findings (i : NodeId) : (leave cx i state).2.findings = [] := by
  dsimp only [leave]
  split
  · split
    · rfl
    · split <;> rfl
  · rfl

theorem finish_meets : (finish cx state).2.Meets (Finding.AnchoredIn cx.tree) := by
  refine .report fun finding hfinding => ?_
  obtain ⟨candidate, -, hjudge⟩ := List.mem_filterMap.1 hfinding
  dsimp only [judge] at hjudge
  split at hjudge
  · exact Option.some.inj hjudge ▸ cx.tree.anchored_finding _ _ _
  · split at hjudge
    · exact Option.some.inj hjudge ▸ cx.tree.anchored_finding _ _ _
    · cases hjudge

/-- In any state the rule reports on nodes. -/
theorem findings_anchored (hook : Hook) :
    Finding.Every (Finding.AnchoredIn cx.tree)
      ((rule o).check.respond cx state hook).2.findings := by
  cases hook with
  | enter i => exact (enter_meets o cx state _ i).findings
  | leave i =>
    have hnone := leave_findings cx state i
    exact fun finding hfinding => absurd (hnone ▸ hfinding) List.not_mem_nil
  | finish => exact (finish_meets cx state).findings

end FinalFields

/-! ## The rules of the catalogue -/

/-- The rules of the catalogue other than the one about final fields report on nodes or comments and
never fail internally, whatever their options are and wherever they are called. -/
theorem Rule.FromCatalogue.meets {rule : Rule} (h : rule.FromCatalogue) :
    (∃ o, rule = FinalFields.rule o) ∨ ∀ cx state hook,
      (rule.check.respond cx state hook).2.Meets (Finding.PlacedIn cx.tree) := by
  have hanchored {judge : Context → NodeId → Verdict}
      (hjudge : ∀ cx i, (judge cx i).Meets (Finding.AnchoredIn cx.tree)) cx
      (state : (Check.ofNodes judge).State) hook :
      ((Check.ofNodes judge).respond cx state hook).2.Meets (Finding.PlacedIn cx.tree) :=
    (Verdict.Meets.ofNodes (hjudge cx) state hook).mono fun _ => .inl
  cases h with
  | finalFields o => exact .inl ⟨o, rfl⟩
  | immutableFields o => exact .inr (hanchored fun cx i => ImmutableFields.judge_meets cx i o)
  | clientShape o => exact .inr (hanchored fun cx i => ClientShape.judge_meets o cx i)
  | directThrow policy => exact .inr (hanchored fun cx i => DirectThrow.judge_meets cx i policy)
  | loggerThrow policy => exact .inr (hanchored fun cx i => LoggerThrow.judge_meets cx i policy)
  | loggedThrown policy => exact .inr (hanchored fun cx i => LoggedThrown.judge_meets cx i policy)
  | causeKept policy => exact .inr (hanchored fun cx i => CauseKept.judge_meets cx i policy)
  | bannedApi o => exact .inr (hanchored fun cx i => BannedApi.judge_meets cx i o)
  | javadoc severity =>
    exact .inr fun cx state hook =>
      (Verdict.Meets.ofNodes (Javadoc.judge_meets cx) state hook).mono fun _ => .inr
  | logging o => exact .inr (hanchored fun cx i => Logging.judge_meets cx i o)

end SdkLint
