import SdkLint.Proofs.Java.Places
import SdkLint.Proofs.Rules.Verdicts
import SdkLint.Proofs.Text.OneLine

/-!
# Messages and what they quote

The messages of rules are made of fixed texts, numbers, texts from the options, and names from the
tree.  These are all on one line.  Three rules also quote texts from the tree as they are written,
over several lines if the source has them so: the return type of a client operation or the sort of
its result, the type of an exception that is thrown directly, the name that an import brings in and
the class that a logger is created for.

Main definitions:

- `Tree.NamedOnLines`: the names in a tree are on one line.
- `Tree.Quotes`: the texts of a tree that the messages of a rule quote.
- `Tree.IsMessage`: a message that is on one line but for a quoted text.
- `Verdict.Says`: an answer whose messages are of some sort.

Main results:

- Theorem `namedOnLines_of_parse`: a grammar whose names are on one line gives such trees.
- Theorem `Tree.IsMessage.exists_quotes`: the line feeds of a message are those of what it quotes.
-/

namespace SdkLint

open Text

/-! ## Names -/

namespace Tree

/-- The names in a tree are on one line. -/
def NamedOnLines (t : Tree) : Prop :=
  ∀ i, t.kind i = .ident ∨ t.kind i = .fieldAccess → ∀ token ∈ t.token i, OneLine token

section

variable {t : Tree} (hnamed : t.NamedOnLines) {i : Nat}

include hnamed

theorem oneLine_of_nameNode {anchor : Nat} (h : t.nameNode i = some anchor) :
    OneLine ((t.token anchor).getD "") := by
  have hkind : t.kind anchor = .ident := by simpa using List.find?_some h
  exact .getD (hnamed anchor (.inl hkind)) (by decide)

/-- The name of a declaration is on one line. -/
theorem oneLine_of_name {name : String} (h : t.name i = some name) : OneLine name := by
  induction i using t.childInduction with
  | node i ih =>
    rw [Tree.name] at h
    split at h
    · rename_i ident hident
      have hkind : t.kind ident = .ident := by simpa using List.find?_some hident
      exact hnamed ident (.inl hkind) name h
    · split at h
      · rename_i declarator hdeclarator
        exact ih declarator (List.mem_of_find?_eq_some hdeclarator) h
      · cases h

theorem oneLine_of_targetName {name : String} (h : t.targetName i = some name) :
    OneLine name := by
  unfold targetName at h
  split at h
  · rename_i hkind
    exact hnamed i (by simpa using hkind) name h
  · cases h

theorem oneLine_of_mem_namedDeclarators {field : NodeId × NodeId × String}
    (h : field ∈ t.namedDeclarators i) : OneLine field.2.2 := by
  obtain ⟨d, -, hfield⟩ := List.mem_filterMap.1 h
  split at hfield
  · rename_i hname _
    exact Option.some.inj hfield ▸ oneLine_of_name hnamed hname
  · cases hfield

end

end Tree

/-- A grammar whose names are on one line. -/
def Java.Concrete.NamedOnLines (root : Java.Concrete) (source : String) : Prop :=
  ∀ c ∈ root.subtrees,
    (c.info.kind = "identifier" → OneLine (c.info.text source)) ∧
    (c.info.kind = "field_access" → ∀ name ∈ c.fieldText "field" source, OneLine name)

/-- A grammar whose names are on one line gives a tree whose names are on one line. -/
theorem namedOnLines_of_parse {root : Java.Concrete} {source : String} {t : Tree}
    (hroot : root.NamedOnLines source) (hparse : Java.parse root source = .ok t) :
    t.NamedOnLines := by
  intro i hkind token htoken
  by_cases hi : i < t.size
  · obtain ⟨c, hc, hmakes⟩ := Java.exists_makes_of_convert (Java.convert_of_parse hparse) hi
    rcases hkind with hkind | hkind
    · obtain ⟨hidentifier, htext⟩ := hmakes.text_of_ident hkind
      obtain rfl := Option.some.inj (htext.symm.trans htoken)
      exact (hroot c hc).1 hidentifier
    · obtain ⟨haccess, hfield⟩ := hmakes.fieldText_of_fieldAccess hkind
      exact (hroot c hc).2 haccess token (hfield ▸ htoken)
  · rw [Tree.token, Tree.node_of_le (Nat.le_of_not_lt hi)] at htoken
    cases htoken

/-! ## Messages -/

namespace Tree

/-- The texts of a tree that the messages of the rule with a code quote as they are written. -/
inductive Quotes (t : Tree) : (code text : String) → Prop
  /-- The return type of a client operation. -/
  | returnType {method returnType : NodeId} {written : String}
      (hdeclared : t.declaredType method = some returnType)
      (hwritten : t.token returnType = some written) : Quotes t ClientShape.code written
  /-- The constant that should name the sort of the result of a client operation. -/
  | returnKind {marker value : NodeId} (hvalue : t.annotationValue marker "returns" = some value) :
      Quotes t ClientShape.code (t.enumConstant value)
  /-- The simple name of the type of an exception that is thrown directly. -/
  | thrownType {expr : NodeId} {written : String} (hkind : t.kind expr = .creation)
      (hwritten : t.typeToken expr = some written) : Quotes t DirectThrow.code (simpleName written)
  /-- The name that an import brings in. -/
  | imported {i : NodeId} {target : String} (hkind : t.kind i = .importDecl)
      (htarget : t.token i = some target) : Quotes t Logging.code target
  /-- The simple name of the class that a logger is created for. -/
  | loggerClass {i args first : NodeId} {written : String}
      (hargs : t.child i .argumentList = some args) (hfirst : (t.operands args).head? = some first)
      (hwritten : Text.beforeSuffix? ".class" (Text.trim (t.text first)) = some written) :
      Quotes t Logging.code (simpleName written)

/-- A message of the rule with a code is on one line, but for a text that it may quote. -/
def IsMessage (t : Tree) (code message : String) : Prop :=
  OneLine message ∨ ∃ before text after, message = before ++ text ++ after ∧
    OneLine before ∧ OneLine after ∧ t.Quotes code text

variable {t : Tree} {code message : String}

theorem IsMessage.prepend {beginning : String} (hbeginning : OneLine beginning)
    (h : t.IsMessage code message) : t.IsMessage code (beginning ++ message) := by
  rcases h with h | ⟨before, text, after, rfl, hbefore, hafter, hquotes⟩
  · exact .inl (oneLine_append.2 ⟨hbeginning, h⟩)
  · refine .inr ⟨beginning ++ before, text, after, ?_, ?_, hafter, hquotes⟩
    · simp only [String.append_assoc]
    · exact oneLine_append.2 ⟨hbeginning, hbefore⟩

/-- The line feeds of a message are those of the text that it quotes. -/
theorem IsMessage.exists_quotes (h : t.IsMessage code message) (hlines : ¬ OneLine message) :
    ∃ text, t.Quotes code text ∧ ¬ OneLine text ∧ countFeeds message = countFeeds text := by
  rcases h with h | ⟨before, text, after, rfl, hbefore, hafter, hquotes⟩
  · exact absurd h hlines
  · have hcount : countFeeds (before ++ text ++ after) = countFeeds text := by
      rw [countFeeds_append, countFeeds_append, countFeeds_eq_zero.2 hbefore,
        countFeeds_eq_zero.2 hafter, Nat.zero_add, Nat.add_zero]
    refine ⟨text, hquotes, fun htext => hlines ?_, hcount⟩
    rwa [← countFeeds_eq_zero, hcount, countFeeds_eq_zero]

end Tree

theorem NodeKind.oneLine_name (kind : NodeKind) : OneLine kind.name := by
  cases kind <;> decide

theorem Failure.oneLine_missing {what : String} (hwhat : OneLine what) (t : Tree) (i : NodeId) :
    OneLine (Failure.missing what t i).message := by
  change OneLine ("malformed input: " ++ ("expected " ++ what ++ " under " ++ (t.kind i).name ++
    " at " ++ toString (t.position i).line ++ ":" ++ toString (t.position i).column))
  simp +decide [hwhat, NodeKind.oneLine_name]

/-! ## Answers -/

theorem Finding.Every.flatMap_mem {α : Type} {P : Finding → Prop} {items : List α}
    {f : α → List Finding} (h : ∀ a ∈ items, Every P (f a)) : Every P (items.flatMap f) := by
  intro finding hfinding
  obtain ⟨a, ha, hfinding⟩ := List.mem_flatMap.1 hfinding
  exact h a ha finding hfinding

/-- The message of a finding is of some sort. -/
def Finding.Says (P : String → Prop) (finding : Finding) : Prop :=
  P finding.message

/-- The messages of an answer are of some sort, those of its findings and that of its failure. -/
structure Verdict.Says (P : String → Prop) (v : Verdict) : Prop where
  findings : Finding.Every (Finding.Says P) v.findings
  failure : ∀ failure ∈ v.failure, P failure.message

namespace Verdict.Says

variable {P : String → Prop}

theorem pass : Says P .pass :=
  ⟨.nil, fun _ h => absurd h (Option.not_mem_none _)⟩

theorem report {findings : List Finding} (h : Finding.Every (Finding.Says P) findings) :
    Says P (.report findings) :=
  ⟨h, fun _ h => absurd h (Option.not_mem_none _)⟩

theorem fail {failure : Failure} (h : P failure.message) : Says P (.fail failure) :=
  ⟨.nil, fun _ hfailure => Option.some.inj hfailure ▸ h⟩

theorem ite {v w : Verdict} (p : Bool) (hv : Says P v) (hw : Says P w) :
    Says P (if p then v else w) := by
  cases p with
  | true => exact hv
  | false => exact hw

theorem andThen {v w : Verdict} (hv : Says P v) (hw : Says P w) : Says P (v.andThen w) := by
  unfold Verdict.andThen
  split
  · exact hv
  · exact ⟨hv.findings.append hw.findings, hw.failure⟩

theorem require {α : Type} {value : Option α} {failure : Failure} {next : α → Verdict}
    (hfailure : P failure.message) (h : ∀ a, value = some a → Says P (next a)) :
    Says P (.require value failure next) := by
  cases value with
  | none => exact fail hfailure
  | some a => exact h a rfl

/-- A check that looks at every node by itself says what its judgements do. -/
theorem ofNodes {judge : Context → NodeId → Verdict} {cx : Context}
    (h : ∀ i, Says P (judge cx i)) (state : (Check.ofNodes judge).State) (hook : Hook) :
    Says P ((Check.ofNodes judge).respond cx state hook).2 := by
  cases hook with
  | enter i => exact h i
  | leave i => exact pass
  | finish => exact pass

end Verdict.Says

end SdkLint
