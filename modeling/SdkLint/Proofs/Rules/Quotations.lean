import SdkLint.Proofs.FinalFields.Writes
import SdkLint.Proofs.Rules.BannedTypes
import SdkLint.Proofs.Rules.Messages
import SdkLint.Proofs.Walk.Answers
import SdkLint.Proofs.Walk.Remarks

/-!
# What the rules of the catalogue say

Every rule of the catalogue gives messages that are on one line, but for a text that it may quote,
as long as its options and the names in the tree are on one line.

Main definition:

- `Rule.OneLined`: a rule of the catalogue with options on one line.

Main results:

- Theorem `Catalogue.oneLined_build`: a configuration with texts on one line builds such rules.
- Theorem `Rule.OneLined.says_verdict`: what such a rule says in a walk.
- Theorem `violations_say`: what the violations of a walk with such rules say.
-/

namespace SdkLint

open Text

/-! ## Rules that look at every node by itself -/

/-- The variable in which a result is stored has a name on one line. -/
theorem LoggedThrown.oneLine_of_stored {t : Tree} (hnamed : t.NamedOnLines) {call : NodeId}
    {name : String} (h : fateOf t call = .stored name) : OneLine name := by
  unfold fateOf at h
  split at h
  · cases h
  · split at h
    · cases h
    · cases h
    · -- A declarator.
      split at h
      · rename_i hname
        exact Fate.stored.inj h ▸ Tree.oneLine_of_name hnamed hname
      · cases h
    · -- An assignment.
      split at h
      · cases h
      · split at h
        · cases h
        · split at h
          · rename_i hname
            exact Fate.stored.inj h ▸ Tree.oneLine_of_targetName hnamed hname
          · cases h
    · cases h

section Judges

variable {cx : Context} (hnamed : cx.tree.NamedOnLines) (i : NodeId)

section

include hnamed

theorem ImmutableFields.says_judge {o : Options} (hmarker : OneLine o.marker) :
    (judge o cx i).Says (cx.tree.IsMessage code) := by
  refine .ite _ .pass ?_
  split
  · -- A field.
    refine .ite _ .pass (.report (List.forall_mem_map.2 fun field hfield => .inl ?_))
    have hname := Tree.oneLine_of_mem_namedDeclarators hnamed hfield
    simp +decide [Tree.finding, hname, hmarker]
  · -- A method.
    refine .require (.inl (Failure.oneLine_missing (by decide) _ _)) fun anchor hanchor => ?_
    have hname := Tree.oneLine_of_nameNode hnamed hanchor
    split
    · exact .pass
    · rename_i name htoken
      rw [htoken, Option.getD_some] at hname
      refine .ite _ .pass (.ite _ .pass (.report (.one (.inl ?_))))
      simp +decide [Tree.finding, hname, hmarker]
  · exact .pass

theorem LoggedThrown.says_judge {policy : ExceptionPolicy}
    (hfactories : ∀ factory ∈ policy.factories, OneLine factory) :
    (judge policy cx i).Says (cx.tree.IsMessage code) := by
  dsimp only [judge]
  split
  · exact .pass
  · -- The called method is one of the factories.
    have hfactory : OneLine ((cx.tree.token i).getD "") := by
      refine .getD (fun token htoken => hfactories token ?_) (by decide)
      simp_all [ExceptionPolicy.isFactoryCall]
    split
    · exact .pass
    · exact .pass
    · exact .report (.one (.inl (by simp +decide [Tree.finding, hfactory])))
    · rename_i name hfate
      have hname := oneLine_of_stored hnamed hfate
      split
      · exact .pass
      · refine .ite _ .pass (.report (.one (.inl ?_)))
        simp +decide [Tree.finding, hfactory, hname]

theorem CauseKept.says_judge (policy : ExceptionPolicy) :
    (judge policy cx i).Says (cx.tree.IsMessage code) := by
  refine .require (.inl (Failure.oneLine_missing (by decide) _ _)) fun caught hcaught => ?_
  obtain ⟨param, -, hname⟩ := Option.bind_eq_some_iff.1 hcaught
  have hcaught := Tree.oneLine_of_name hnamed hname
  refine .require (.inl (Failure.oneLine_missing (by decide) _ _)) fun body _ => ?_
  exact .report (.map _ fun _ => .inl (by simp +decide [Tree.finding, hcaught]))

theorem Logging.says_judge {o : Options} (hlogger : OneLine o.loggerType)
    (hpackages : ∀ package ∈ o.bannedPackages, OneLine package) :
    (judge o cx i).Says (cx.tree.IsMessage code) := by
  unfold judge
  split
  · -- An import.
    rename_i hkind
    dsimp only [checkImport]
    split
    · rename_i package hbanned
      have hpackage := hpackages package (List.mem_of_find?_eq_some hbanned)
      refine .report (.one ?_)
      cases htarget : cx.tree.token i with
      | none => exact .inl (by simp +decide [Tree.finding, hpackage])
      | some target =>
        refine .inr ⟨"Import of '", target,
          "' is not allowed; '" ++ package ++ "' is not the SDK logging framework", ?_,
          by decide, by simp +decide [hpackage], .imported hkind htarget⟩
        simp only [Tree.finding, Option.getD_some, String.append_assoc]
    · exact .pass
  · -- A field.
    refine .ite _ .pass (.report (.flatMap_mem fun field hfield =>
      .append (.ite _ .nil (.one (.inl ?_))) (.ite _ .nil (.one (.inl ?_)))))
    · have hname := Tree.oneLine_of_mem_namedDeclarators hnamed hfield
      simp +decide [Tree.finding, hname, hlogger]
    · have hname := Tree.oneLine_of_mem_namedDeclarators hnamed hfield
      simp +decide [Tree.finding, hname, hlogger]
  · -- The creation of an object.
    refine .ite _ .pass (.require (.inl (Failure.oneLine_missing (by decide) _ _)) ?_)
    intro args hargs
    split
    · rename_i first owner hfirst howner
      split
      · exact .pass
      · rename_i written hwritten
        refine .ite _ .pass (.report (.one (.inr ⟨o.loggerType ++ " is created for '",
          simpleName written, "' inside class '" ++ owner ++ "'", ?_, ?_, ?_,
          .loggerClass hargs hfirst hwritten⟩)))
        · simp only [Tree.finding, String.append_assoc]
        · simp +decide [hlogger]
        · obtain ⟨enclosing, -, hname⟩ := Option.bind_eq_some_iff.1 howner
          simp +decide [Tree.oneLine_of_name hnamed hname]
    · exact .pass
  · exact .pass

end

theorem DirectThrow.says_judge (policy : ExceptionPolicy) :
    (judge policy cx i).Says (cx.tree.IsMessage code) := by
  refine .require (.inl (Failure.oneLine_missing (by decide) _ _)) fun expr _ => ?_
  split
  · exact .pass
  · rename_i hkind
    have hcreation : cx.tree.kind expr = .creation := by simpa using hkind
    refine .require (.inl (Failure.oneLine_missing (by decide) _ _)) fun written hwritten => ?_
    refine .ite _ .pass (.report (.one ?_))
    exact .inr ⟨_, _, _, rfl, by decide, by decide, .thrownType hcreation hwritten⟩

theorem LoggerThrow.says_judge (policy : ExceptionPolicy) :
    (judge policy cx i).Says (cx.tree.IsMessage code) := by
  refine .ite _ .pass (.require ?_ fun expr _ => .ite _ .pass (.ite _ .pass (.ite _ .pass ?_)))
  · exact .inl (Failure.oneLine_missing (by decide) _ _)
  · exact .report (.one (.inl (by simp +decide [Tree.finding])))

theorem BannedApi.says_judge {o : Options} (hmessage : OneLine o.message)
    (hnames : ∀ name ∈ o.bannedNames, OneLine name) :
    (judge o cx i).Says (cx.tree.IsMessage code) := by
  refine .ite _ .pass ?_
  split
  · rename_i entry hhit
    exact .report (.one (.inl (hmessage.replace (hnames entry (mem_bannedNames_of_hit hhit)) _)))
  · exact .pass

end Judges

/-! ## Comments -/

namespace Javadoc

theorem oneLine_of_mem_checkedTags {tag : String} (h : tag ∈ checkedTags) : OneLine tag := by
  revert tag
  decide

/-- What a tag is about is named on one line: a line feed is a blank. -/
theorem oneLine_subject (args : List Char) :
    OneLine (String.ofList (args.takeWhile fun c => !Text.isBlank c)) := by
  rw [OneLine, String.toList_ofList]
  intro hmem
  exact absurd (List.mem_takeWhile_imp hmem) (by decide)

variable (site : Site)

theorem says_checkTagLine (line : DocLine) {tag : String} (htag : OneLine tag)
    (later : List DocLine) :
    Finding.Every (Finding.Says OneLine) (checkTagLine site line tag later) := by
  have hnote {message : String} (h : OneLine message) :
      Finding.Says OneLine (site.finding line 0 tag.utf8ByteSize message) := h
  refine .append (.ite _ (.one (hnote ?_)) .nil) (.ite _ (.ite _ (.one (hnote ?_)) ?_) ?_)
  · simp +decide [htag]
  · simp +decide [htag]
  · refine .ite _ .nil (.one (hnote ?_))
    simp +decide [htag, oneLine_subject]
  · exact .ite _ (.one (hnote (by simp +decide [htag]))) .nil

theorem says_checkLines (lines : List DocLine) :
    Finding.Every (Finding.Says OneLine) (checkLines site lines) := by
  induction lines with
  | nil => exact .nil
  | cons line later ih =>
    refine .append (.append ?_ ?_) ih
    · intro finding hfinding
      obtain ⟨tag, htag, hfinding⟩ := List.mem_flatMap.1 hfinding
      obtain ⟨offset, -, rfl⟩ := List.mem_map.1 hfinding
      have htag := oneLine_of_mem_checkedTags htag
      change OneLine ("Javadoc block tag '" ++ tag ++ "' must start on its own line")
      simp +decide [htag]
    · split
      · rename_i tag htag
        have htag := oneLine_of_mem_checkedTags (List.mem_of_find?_eq_some htag)
        exact says_checkTagLine site line htag later
      · exact .nil

theorem says_checkLayout (lines : List DocLine) :
    Finding.Every (Finding.Says OneLine) (checkLayout site lines) := by
  unfold checkLayout
  dsimp only
  split
  · exact .nil
  · have hnote (line : DocLine) (offset length : Nat) {message : String} (h : OneLine message) :
        Finding.Says OneLine (site.finding line offset length message) := h
    exact .append (.ite _ (.one (hnote _ _ _ (by decide))) .nil)
      (.map _ fun _ => hnote _ _ _ (by decide))

theorem says_judge (cx : Context) (i : NodeId) :
    (judge cx i).Says (cx.tree.IsMessage code) := by
  dsimp only [judge]
  split
  · rename_i token _
    refine .ite _ (.report fun finding hfinding => .inl ?_) .pass
    exact (says_checkLines _ _).append (says_checkLayout _ _) finding hfinding
  · exact .pass

end Javadoc

/-! ## Clients -/

namespace ClientShape

/-- Options whose texts are on one line, as far as messages mention them. -/
structure Options.OneLined (o : Options) : Prop where
  syncSuffix : OneLine o.syncSuffix
  asyncSuffix : OneLine o.asyncSuffix
  returnTypes : ∀ isAsync kind, OneLine (o.returnTypes.expected isAsync kind)

theorem ReturnKind.oneLine_constant (kind : ReturnKind) : OneLine kind.constant := by
  cases kind <;> decide

variable {o : Options} (ho : o.OneLined) {t : Tree}

include ho

theorem oneLine_envelope : OneLine o.returnTypes.syncSingle :=
  ho.returnTypes false .single

/-- A message about the return type quotes it. -/
theorem says_checkWrapper {op : Operation} (hname : OneLine op.name)
    (hwritten : OneLine op.written ∨ t.Quotes code op.written) :
    Finding.Every (Finding.Says (t.IsMessage code)) (checkWrapper o t op) := by
  have hexpected := ho.returnTypes op.isAsync op.kind
  refine .ite _ .nil (.one ?_)
  have hbefore : OneLine (op.kind.constant ++ " " ++
      (if op.isAsync then "asynchronous" else "synchronous") ++ " service method '" ++ op.name ++
      "' must return " ++ o.returnTypes.expected op.isAsync op.kind ++ ", found '") := by
    simp +decide [ReturnKind.oneLine_constant, hname, hexpected]
  rcases hwritten with hwritten | hquotes
  · exact .inl (oneLine_append.2 ⟨oneLine_append.2 ⟨hbefore, hwritten⟩, by decide⟩)
  · exact .inr ⟨_, _, _, rfl, hbefore, by decide, hquotes⟩

theorem says_checkEnvelope {op : Operation} (hname : OneLine op.name) :
    Finding.Every (Finding.Says (t.IsMessage code)) (checkEnvelope o t op) := by
  have henvelope := oneLine_envelope ho
  refine .ite _ (.one (.inl ?_)) (.ite _ (.one (.inl ?_)) .nil)
  · simp +decide [Tree.finding, hname, henvelope]
  · simp +decide [Tree.finding, hname, henvelope]

theorem says_checkContext {op : Operation} (hname : OneLine op.name) :
    Finding.Every (Finding.Says (t.IsMessage code)) (checkContext o t op) := by
  have henvelope := oneLine_envelope ho
  dsimp only [checkContext]
  split
  · exact .ite _ (.one (.inl (by simp +decide [Tree.finding, hname]))) .nil
  · exact .ite _ (.one (.inl (by simp +decide [Tree.finding, hname, henvelope]))) .nil

theorem says_checkOperation (isAsync : Bool) {method anchor marker : NodeId}
    (hname : OneLine ((t.token anchor).getD "")) :
    (checkOperation o t isAsync method anchor marker).Says (t.IsMessage code) := by
  have hasync : OneLine ("Service method '" ++ (t.token anchor).getD "" ++
      "' must not contain 'Async' in its name") := by
    simp +decide [hname]
  refine .andThen (.report (.ite _ (.one (.inl hasync)) .nil)) ?_
  refine .require (.inl (Failure.oneLine_missing (by decide) _ _)) fun returns hreturns => ?_
  refine .require ?_ fun kind _ =>
    .require (.inl (Failure.oneLine_missing (by decide) _ _)) fun returnType hdeclared => ?_
  · -- The constant names no sort of result.
    refine .inr ⟨"malformed input: " ++ "unknown service method return kind '",
      t.enumConstant returns, "' at " ++ toString (t.position returns).line ++ ":" ++
        toString (t.position returns).column, ?_, by decide, by simp +decide,
      .returnKind hreturns⟩
    change "malformed input: " ++ _ = _
    simp only [String.append_assoc]
  · have hwritten : OneLine ((t.token returnType).getD "") ∨
        t.Quotes code ((t.token returnType).getD "") := by
      cases htoken : t.token returnType with
      | none => exact .inl (by decide)
      | some written => exact .inr (.returnType hdeclared htoken)
    exact .report (.append (.append (says_checkWrapper ho hname hwritten)
      (says_checkEnvelope ho hname)) (says_checkContext ho hname))

variable (hnamed : t.NamedOnLines)

include hnamed

theorem says_checkClass (i : NodeId) (isAsync : Bool) :
    (checkClass o t i isAsync).Says (t.IsMessage code) := by
  have hsync := ho.syncSuffix
  have hasync := ho.asyncSuffix
  refine .require (.inl (Failure.oneLine_missing (by decide) _ _)) fun anchor hanchor => ?_
  have hname := Tree.oneLine_of_nameNode hnamed hanchor
  refine .ite _ (.ite _ .pass ?_) (.ite _ ?_ (.ite _ .pass ?_))
  all_goals exact .report (.one (.inl (by simp +decide [Tree.finding, hname, hsync, hasync])))

theorem says_checkMember (i : NodeId) (isAsync : Bool) :
    (checkMember o t i isAsync).Says (t.IsMessage code) := by
  unfold checkMember
  split
  · -- A constructor.
    exact .ite _ (.report (.one (.inl (by simp +decide [Tree.finding])))) .pass
  · -- A field.
    refine .ite _ .pass (.report (List.forall_mem_map.2 fun field hfield => .inl ?_))
    have hname := Tree.oneLine_of_mem_namedDeclarators hnamed hfield
    simp +decide [Tree.finding, hname]
  · -- A method.
    refine .require (.inl (Failure.oneLine_missing (by decide) _ _)) fun anchor hanchor =>
      .andThen (.report (.ite _ (.one (.inl (by simp +decide [Tree.finding]))) .nil)) ?_
    split
    · exact says_checkOperation ho isAsync (Tree.oneLine_of_nameNode hnamed hanchor)
    · exact .pass
  · exact .pass

omit hnamed in
theorem says_judge {cx : Context} (hnamed : cx.tree.NamedOnLines) (i : NodeId) :
    (judge o cx i).Says (cx.tree.IsMessage code) := by
  refine .ite _ ?_ ?_
  · split
    · exact says_checkClass ho hnamed i _
    · exact .pass
  · split
    · exact .pass
    · refine .ite _ .pass ?_
      split
      · exact says_checkMember ho hnamed i _
      · exact .pass

end ClientShape

/-! ## Final fields -/

namespace FinalFields

variable {o : Options} {cx : Context}

/-- In any state the rule fails with a message on one line. -/
theorem says_failure (state : State) (hook : Hook) :
    ∀ failure ∈ ((rule o).check.respond cx state hook).2.failure, OneLine failure.message := by
  have hpass : Verdict.pass.Says OneLine := .pass
  cases hook with
  | enter i =>
    have hmissing : (Verdict.fail (.missing "write target" cx.tree i)).Says OneLine :=
      .fail (Failure.oneLine_missing (by decide) _ _)
    change ∀ failure ∈ (enter o cx i state).2.failure, _
    dsimp only [enter]
    split <;> split <;> first | exact hmissing.failure | exact hpass.failure
  | leave i =>
    have hinternal : (Verdict.fail (.internal ("class frames out of sync at " ++
        toString (cx.tree.position i).line ++ ":" ++
        toString (cx.tree.position i).column))).Says OneLine := by
      refine .fail ?_
      change OneLine ("internal error: " ++ _)
      simp +decide
    change ∀ failure ∈ (leave cx i state).2.failure, _
    dsimp only [leave]
    split
    · split
      · exact hinternal.failure
      · split
        · exact hpass.failure
        · exact hinternal.failure
    · exact hpass.failure
  | finish => exact hpass.failure

/-- The finding about a candidate has a message on one line. -/
theorem oneLine_of_expected {t : Tree} (hnamed : t.NamedOnLines) {d : NodeId} {finding : Finding}
    (h : expected o t d = some finding) : OneLine finding.message := by
  have hname : OneLine ((t.name d).getD "") :=
    .getD (fun _ => Tree.oneLine_of_name hnamed) (by decide)
  dsimp only [expected] at h
  split at h
  · rw [← Option.some.inj h]
    simp +decide [Tree.finding, hname]
  · split at h
    · rw [← Option.some.inj h]
      simp +decide [Tree.finding, hname]
    · cases h

end FinalFields

/-! ## The rules of the catalogue -/

/-- A rule of the catalogue with options on one line, as far as messages mention them. -/
inductive Rule.OneLined : Rule → Prop
  | finalFields (o : FinalFields.Options) : OneLined (FinalFields.rule o)
  | immutableFields {o : ImmutableFields.Options} (marker : OneLine o.marker) :
      OneLined (ImmutableFields.rule o)
  | clientShape {o : ClientShape.Options} (options : o.OneLined) : OneLined (ClientShape.rule o)
  | directThrow (policy : ExceptionPolicy) : OneLined (DirectThrow.rule policy)
  | loggerThrow (policy : ExceptionPolicy) : OneLined (LoggerThrow.rule policy)
  | loggedThrown {policy : ExceptionPolicy}
      (factories : ∀ factory ∈ policy.factories, OneLine factory) :
      OneLined (LoggedThrown.rule policy)
  | causeKept (policy : ExceptionPolicy) : OneLined (CauseKept.rule policy)
  | bannedApi {o : BannedApi.Options} (message : OneLine o.message)
      (names : ∀ name ∈ o.bannedNames, OneLine name) : OneLined (BannedApi.rule o)
  | javadoc (severity : Severity) : OneLined (Javadoc.rule severity)
  | logging {o : Logging.Options} (loggerType : OneLine o.loggerType)
      (packages : ∀ package ∈ o.bannedPackages, OneLine package) : OneLined (Logging.rule o)

/-! ## Configurations -/

/-- A section of a configuration whose texts are on one line. -/
structure RuleSection.OneLined (s : RuleSection) : Prop where
  text : ∀ key, ∀ text ∈ s.text? key, OneLine text
  texts : ∀ key, ∀ texts ∈ s.texts? key, ∀ text ∈ texts, OneLine text
  table : ∀ key, ∀ entry ∈ s.textTable key, OneLine entry.2

/-- A configuration that sets options on one line. -/
def Config.OneLined (c : Config) : Prop :=
  ∀ rule, ∀ s ∈ c.section? rule, s.OneLined

theorem RuleSection.OneLined.texts_getD {s : RuleSection} (hs : s.OneLined) (key : String)
    {standard : List String} (h : ∀ text ∈ standard, OneLine text) :
    ∀ text ∈ (s.texts? key).getD standard, OneLine text := by
  cases htexts : s.texts? key with
  | none => exact h
  | some texts => exact hs.texts key texts htexts

/-- The factories of a policy come from the sections or are the standard ones. -/
theorem ExceptionPolicy.oneLine_of_mem_factories {c : Config} (hc : c.OneLined) (rule : String) :
    ∀ factory ∈ (ofConfig c rule).factories, OneLine factory := by
  have hfold : ∀ sections : List RuleSection, (∀ s ∈ sections, s.OneLined) →
      ∀ policy : ExceptionPolicy, (∀ factory ∈ policy.factories, OneLine factory) →
        ∀ factory ∈ (sections.foldl override policy).factories, OneLine factory := by
    intro sections
    induction sections with
    | nil => exact fun _ _ h => h
    | cons s sections ih =>
      intro hsections policy h
      obtain ⟨hs, hrest⟩ := List.forall_mem_cons.1 hsections
      exact ih hrest _ (hs.texts_getD _ h)
  refine hfold _ (fun s hs => ?_) {} (by decide)
  obtain ⟨given, hgiven, rfl⟩ := List.mem_filterMap.1 hs
  simp only [List.mem_cons, List.not_mem_nil, or_false] at hgiven
  rcases hgiven with hgiven | hgiven
  · exact hc _ s hgiven.symm
  · exact hc _ s hgiven.symm

namespace ClientShape

/-- An entry of the table that is replaced by a text on one line is on one line. -/
theorem ReturnTypes.oneLine_set {table : ReturnTypes}
    (h : ∀ isAsync kind, OneLine (table.expected isAsync kind)) (key : String) {value : String}
    (hvalue : OneLine value) :
    ∀ isAsync kind, OneLine ((table.set key value).expected isAsync kind) := by
  intro isAsync kind
  have hkept := h isAsync kind
  unfold set
  split <;> cases isAsync <;> cases kind <;> first | exact hkept | exact hvalue

theorem ReturnTypes.oneLine_foldl_set {entries : List (String × String)}
    (hentries : ∀ entry ∈ entries, OneLine entry.2) {table : ReturnTypes}
    (h : ∀ isAsync kind, OneLine (table.expected isAsync kind)) :
    ∀ isAsync kind, OneLine ((entries.foldl
      (fun table (key, value) => table.set key value) table).expected isAsync kind) := by
  induction entries generalizing table with
  | nil => exact h
  | cons entry entries ih =>
    obtain ⟨hentry, hrest⟩ := List.forall_mem_cons.1 hentries
    exact ih hrest (ReturnTypes.oneLine_set h entry.1 hentry)

theorem Options.oneLined_ofConfig {c : Config} (hc : c.OneLined) : (ofConfig c).OneLined := by
  have hstandard : ∀ isAsync kind,
      OneLine ((({} : Options).returnTypes).expected isAsync kind) := by
    intro isAsync kind
    cases isAsync <;> cases kind <;> decide
  unfold ofConfig
  dsimp only
  split
  · rename_i s hs
    have hsection := hc _ s hs
    exact ⟨.getD (hsection.text _) (by decide), .getD (hsection.text _) (by decide),
      ReturnTypes.oneLine_foldl_set (hsection.table _) hstandard⟩
  · exact ⟨by decide, by decide, hstandard⟩

end ClientShape

/-- A configuration that sets options on one line builds rules with options on one line. -/
theorem Catalogue.oneLined_build {e : CatalogueEntry} (he : e ∈ entries) {c : Config}
    (hc : c.OneLined) : (e.build c).OneLined := by
  simp only [entries, List.mem_cons, List.not_mem_nil, or_false] at he
  rcases he with rfl | rfl | rfl | rfl | rfl | rfl | rfl | rfl | rfl | rfl
  · exact .finalFields _
  · refine .immutableFields ?_
    unfold ImmutableFields.Options.ofConfig
    split
    · rename_i s hs
      exact .getD ((hc _ s hs).text _) (by decide)
    · decide
  · exact .clientShape (ClientShape.Options.oneLined_ofConfig hc)
  · exact .directThrow _
  · exact .loggerThrow _
  · exact .loggedThrown (ExceptionPolicy.oneLine_of_mem_factories hc _)
  · exact .causeKept _
  · refine .bannedApi ?_ ?_ <;> unfold BannedApi.Options.ofConfig <;> split
    · rename_i s hs
      exact .getD ((hc _ s hs).text _) (by decide)
    · decide
    · rename_i s hs
      exact (hc _ s hs).texts_getD _ (List.forall_mem_nil _)
    · exact List.forall_mem_nil _
  · exact .javadoc _
  · refine .logging ?_ ?_ <;> unfold Logging.Options.ofConfig <;> dsimp only <;> split
    · rename_i s hs
      exact .getD ((hc _ s hs).text _) (by decide)
    · decide
    · rename_i s hs
      exact (hc _ s hs).texts_getD _ (by decide)
    · decide

/-- So are all rules that such a configuration builds. -/
theorem Catalogue.oneLined_of_mem_rulesWhere {c : Config} (hc : c.OneLined)
    (wanted : CatalogueEntry → Bool) : ∀ r ∈ rulesWhere c wanted, r.OneLined := by
  intro r hr
  obtain ⟨e, he, rfl⟩ := List.mem_map.1 hr
  exact oneLined_build (List.mem_filter.1 he).1 hc

/-! ## What rules say in a walk -/

/-- The rules of the catalogue other than the one about final fields give such messages wherever
they are called. -/
theorem Rule.OneLined.says_respond {rule : Rule} (h : rule.OneLined) {cx : Context}
    (hnamed : cx.tree.NamedOnLines) :
    (∃ o, rule = FinalFields.rule o) ∨ ∀ state hook,
      (rule.check.respond cx state hook).2.Says (cx.tree.IsMessage rule.code) := by
  cases h with
  | finalFields o => exact .inl ⟨o, rfl⟩
  | immutableFields marker =>
    exact .inr (.ofNodes fun i => ImmutableFields.says_judge hnamed i marker)
  | clientShape options =>
    exact .inr (.ofNodes fun i => ClientShape.says_judge options hnamed i)
  | directThrow policy => exact .inr (.ofNodes fun i => DirectThrow.says_judge i policy)
  | loggerThrow policy => exact .inr (.ofNodes fun i => LoggerThrow.says_judge i policy)
  | loggedThrown factories =>
    exact .inr (.ofNodes fun i => LoggedThrown.says_judge hnamed i factories)
  | causeKept policy => exact .inr (.ofNodes fun i => CauseKept.says_judge hnamed i policy)
  | bannedApi message names =>
    exact .inr (.ofNodes fun i => BannedApi.says_judge i message names)
  | javadoc severity => exact .inr (.ofNodes fun i => Javadoc.says_judge cx i)
  | logging loggerType packages =>
    exact .inr (.ofNodes fun i => Logging.says_judge hnamed i loggerType packages)

/-- In a walk a rule of the catalogue gives such messages. -/
theorem Rule.OneLined.says_verdict {rules : List ActiveRule} {input : WalkInput} {r : ActiveRule}
    (h : r.rule.OneLined) (hnamed : input.tree.NamedOnLines) {call : HookCall}
    (hcall : call ∈ (walk rules input).calls) (hget : rules[call.rule]? = some r) :
    call.verdict.Says (input.tree.IsMessage r.rule.code) := by
  obtain ⟨r', state, hget', hverdict⟩ := walk_answers rules input call hcall
  obtain rfl : r' = r := Option.some.inj (hget'.symm.trans hget)
  have hcontext : (input.context call.scopes).tree.NamedOnLines := hnamed
  rcases h.says_respond hcontext with ⟨o, hrule⟩ | hanswer
  · obtain ⟨rule, severity⟩ := r'
    obtain rfl : rule = FinalFields.rule o := hrule
    refine ⟨fun finding hfinding => .inl ?_, fun failure hfailure => .inl ?_⟩
    · -- What the rule reports is known over the whole walk only.
      have hreported : finding ∈ FinalFields.findingsAt rules input call.rule :=
        List.mem_flatMap.2 ⟨call, List.mem_filter.2 ⟨hcall, by simp⟩, hfinding⟩
      rw [FinalFields.findingsAt_eq hget] at hreported
      obtain ⟨d, -, hexpected⟩ := List.mem_filterMap.1 hreported
      exact FinalFields.oneLine_of_expected hnamed hexpected
    · rw [hverdict] at hfailure
      exact FinalFields.says_failure state call.hook failure hfailure
  · rw [hverdict]
    exact hanswer state call.hook

/-! ## Violations -/

theorem oneLine_of_mem_ite {p : Prop} [Decidable p] {problem : String} (h : OneLine problem) :
    ∀ text ∈ if p then [problem] else [], OneLine text := by
  split
  · exact List.forall_mem_singleton.2 h
  · exact List.forall_mem_nil _

theorem ExceptionPolicy.oneLine_factoryProblems (policy : ExceptionPolicy) {rule : String}
    (hrule : OneLine rule) : ∀ problem ∈ policy.factoryProblems rule, OneLine problem :=
  oneLine_of_mem_ite (oneLine_append.2 ⟨hrule, by decide⟩)

theorem ClientShape.oneLine_problems (o : Options) :
    ∀ problem ∈ problems o, OneLine problem := by
  intro problem hproblem
  obtain ⟨⟨key, value⟩, hmem, rfl⟩ := List.mem_map.1 hproblem
  have hentry := (List.mem_filter.1 hmem).1
  have hkey : OneLine key := by
    simp only [List.mem_cons, List.not_mem_nil, or_false, Prod.mk.injEq] at hentry
    rcases hentry with ⟨rfl, -⟩ | ⟨rfl, -⟩ | ⟨rfl, -⟩ | ⟨rfl, -⟩ <;> decide
  simp +decide [hkey]

theorem BannedApi.oneLine_problems (o : Options) :
    ∀ problem ∈ problems o, OneLine problem := by
  unfold problems
  exact List.forall_mem_append.2 ⟨oneLine_of_mem_ite (oneLine_append.2 ⟨by decide, by decide⟩),
    oneLine_of_mem_ite (oneLine_append.2 ⟨by decide, by decide⟩)⟩

/-- What a rule of the catalogue complains about in its options is on one line. -/
theorem Rule.OneLined.oneLine_problems {rule : Rule} (h : rule.OneLined) :
    ∀ problem ∈ rule.problems, OneLine problem := by
  cases h with
  | finalFields => exact List.forall_mem_nil _
  | immutableFields =>
    dsimp only [ImmutableFields.rule]
    exact oneLine_of_mem_ite (oneLine_append.2 ⟨by decide, by decide⟩)
  | @clientShape o =>
    dsimp only [ClientShape.rule]
    exact ClientShape.oneLine_problems o
  | directThrow => exact List.forall_mem_nil _
  | loggerThrow policy => exact policy.oneLine_factoryProblems (by decide)
  | @loggedThrown policy => exact policy.oneLine_factoryProblems (by decide)
  | causeKept => exact List.forall_mem_nil _
  | @bannedApi o => exact BannedApi.oneLine_problems o
  | javadoc => exact List.forall_mem_nil _
  | logging =>
    dsimp only [Logging.rule]
    exact oneLine_of_mem_ite (oneLine_append.2 ⟨by decide, by decide⟩)

/-- The name and the code of a rule of the catalogue are on one line. -/
theorem Rule.OneLined.name_code {rule : Rule} (h : rule.OneLined) :
    OneLine rule.name ∧ OneLine rule.code := by
  have hentries : ∀ e ∈ Catalogue.entries, OneLine e.name ∧ OneLine e.code := by decide
  obtain ⟨e, he, hname, hcode⟩ : ∃ e ∈ Catalogue.entries, e.name = rule.name ∧
      e.code = rule.code := by
    cases h <;> simp [Catalogue.entries, FinalFields.rule, ImmutableFields.rule,
      ClientShape.rule, DirectThrow.rule, LoggerThrow.rule, LoggedThrown.rule, CauseKept.rule,
      BannedApi.rule, Javadoc.rule, Logging.rule]
  exact ⟨hname ▸ (hentries e he).1, hcode ▸ (hentries e he).2⟩

/-- What directives leave of the remarks of rules of the catalogue is said in such messages. -/
theorem violations_say {rules : List ActiveRule} {input : WalkInput}
    (hrules : ∀ r ∈ rules, r.rule.OneLined) (hnamed : input.tree.NamedOnLines) :
    ∀ v ∈ (walk rules input).violations, OneLine v.code ∧
      v.location.file = input.file.relativePath ∧ input.tree.IsMessage v.code v.message := by
  intro v hv
  rw [violations_eq_filterMap_remarks] at hv
  obtain ⟨m, hm, hfiltered⟩ := List.mem_filterMap.1 hv
  obtain ⟨call, hcall, hm⟩ := List.mem_flatMap.1 (List.mem_mergeSort.1 hm)
  obtain ⟨r, state, hget, -⟩ := walk_answers rules input call hcall
  have hrule := hrules r (List.mem_of_getElem? hget)
  obtain ⟨hname, hcode⟩ := hrule.name_code
  have hanswer := hrule.says_verdict hnamed hcall hget
  simp only [HookCall.remarks, hget, List.mem_append, List.mem_map, Option.mem_toList] at hm
  rcases hm with ⟨finding, hfinding, rfl⟩ | hm
  · dsimp only [Remark.filtered] at hfiltered
    split at hfiltered
    · obtain rfl := Option.some.inj hfiltered
      exact ⟨hcode, rfl, hanswer.findings finding hfinding⟩
    · split at hfiltered
      · obtain rfl := Option.some.inj hfiltered
        refine ⟨hcode, rfl, .inl ?_⟩
        simp +decide [ActiveRule.missingReason, hname]
      · cases hfiltered
  · obtain ⟨failure, hfailure, rfl⟩ := Option.map_eq_some_iff.1 hm
    obtain rfl := Option.some.inj hfiltered
    have hmessage := hanswer.failure failure hfailure
    cases failure <;> exact ⟨hcode, rfl, .prepend hname (.prepend (by decide) hmessage)⟩

end SdkLint
