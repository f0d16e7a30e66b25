import Mathlib.Data.List.Find
import Mathlib.Data.List.Infix
import SdkLint.Proofs.Rules.BannedTypes
import SdkLint.Rules.Logging

/-!
# Banned names by their segments

The rules about banned names and about logging compare texts.  What they decide is about names: an
entry without a star bans the names whose segments, the pieces between dots, begin with its own, and
an entry that ends in `.*` bans those that go on behind the segments before the star.  A part of a
segment never counts.  Both rules report the first entry of their list that bans what is written.
Of calls the rule about banned names reports the first entry that is the target.

Main definitions:

- `IsFirst`: an entry is the first one of a list with a property.
- `BannedApi.Bars`: an entry bans a name by its segments.
- `BannedApi.Spells`: the name that is looked up at a node.
- `BannedApi.Targets`: the target that is looked up at a call.
- `BarsBySegments`: both rules decide by segments and report the first entry.

Main results:

- Theorem `BannedApi.covers_eq_true_iff`: an entry covers the names that it bans by its segments.
- Theorem `BannedApi.reportsAt_iff_of_spells`: a node is reported for the first entry that bans its
  name.
- Theorem `Logging.reportsAt_import_iff`: an import is reported for the first package whose segments
  begin its own.
- Theorem `bars_by_segments`: both rules decide by segments in every walk.
-/

namespace SdkLint

/-! ## First entries -/

/-- An entry is the first one of a list with a property. -/
def IsFirst {α : Type} (P : α → Prop) (entries : List α) (entry : α) : Prop :=
  P entry ∧ ∃ before after, entries = before ++ entry :: after ∧ ∀ earlier ∈ before, ¬ P earlier

theorem find?_eq_some_iff_isFirst {α : Type} {p : α → Bool} {P : α → Prop}
    (h : ∀ a, p a = true ↔ P a) {entries : List α} {entry : α} :
    entries.find? p = some entry ↔ IsFirst P entries entry := by
  simp only [List.find?_eq_some_iff_append, IsFirst, ← h, Bool.not_eq_true', Bool.not_eq_true]

theorem IsFirst.mem {α : Type} {P : α → Prop} {entries : List α} {entry : α}
    (h : IsFirst P entries entry) : entry ∈ entries := by
  obtain ⟨-, before, after, rfl, -⟩ := h
  exact List.mem_append_right _ List.mem_cons_self

namespace BannedApi

/-! ## Segments -/

/-- The segments of a name, which dots separate. -/
def segments (name : String) : List String :=
  Text.splitString '.' name

variable {entry text package : String}

theorem segments_eq_iff : segments entry = segments text ↔
    Text.splitOn '.' entry.toList = Text.splitOn '.' text.toList :=
  (List.map_injective_iff.2 fun _ _ h => String.ofList_injective h).eq_iff

theorem segments_prefix_iff_splitOn : segments entry <+: segments text ↔
    Text.splitOn '.' entry.toList <+: Text.splitOn '.' text.toList :=
  List.prefix_map_iff_of_injective fun _ _ h => String.ofList_injective h

/-- The segments of an entry begin those of a text if the text is the entry, with nothing behind it
or a dot. -/
theorem segments_prefix_iff : segments entry <+: segments text ↔
    text.toList = entry.toList ∨ ∃ rest, text.toList = entry.toList ++ '.' :: rest := by
  rw [segments_prefix_iff_splitOn, Text.splitOn_prefix_iff]

/-- There are more segments of the text if a dot stands behind the entry. -/
theorem segments_strictPrefix_iff :
    segments entry <+: segments text ∧ segments entry ≠ segments text ↔
      ∃ rest, text.toList = entry.toList ++ '.' :: rest := by
  rw [segments_prefix_iff_splitOn, ne_eq, segments_eq_iff]
  exact Text.splitOn_strictPrefix_iff

/-- A star behind a dot is a segment of its own. -/
theorem segments_star (package : String) :
    segments (package ++ ".*") = segments package ++ ["*"] := by
  have hstar : (package ++ ".*").toList = package.toList ++ '.' :: ['*'] := by
    simp [String.toList_append]
  rw [segments, segments, Text.splitString, Text.splitString, hstar, Text.splitOn_at_separator,
    List.map_append]
  rfl

/-! ## Entries -/

/-- An entry bans a name by its segments.  The segments of an entry that ends in `.*` are those
before the star, and the name has more of them.  Any other star at the end of an entry stands for
any text. -/
def Bars (entry text : String) : Prop :=
  if Text.endsWith ".*" entry then
    (segments entry).dropLast <+: segments text ∧ (segments entry).dropLast ≠ segments text
  else if Text.endsWith "*" entry then entry.toList.dropLast <+: text.toList
  else segments entry <+: segments text

instance (entry text : String) : Decidable (Bars entry text) :=
  inferInstanceAs (Decidable (if Text.endsWith ".*" entry then _ ∧ _
    else if Text.endsWith "*" entry then _ <+: _ else _ <+: _))

theorem bars_of_not_endsWith (h : Text.endsWith "*" entry = false) :
    Bars entry text ↔ segments entry <+: segments text := by
  have hdotted : Text.endsWith ".*" entry = false := by
    rw [Bool.eq_false_iff] at h ⊢
    intro hend
    obtain ⟨front, rfl⟩ := Text.endsWith_iff.1 hend
    exact h (Text.endsWith_iff.2 ⟨front ++ ".", by rw [String.append_assoc]; rfl⟩)
  rw [Bars, hdotted, h]
  rfl

theorem bars_below : Bars (package ++ ".*") text ↔
    segments package <+: segments text ∧ segments package ≠ segments text := by
  rw [Bars, if_pos (Text.endsWith_iff.2 ⟨package, rfl⟩), segments_star, List.dropLast_concat]

/-- A text is an entry or lies below it if the segments of the entry begin those of the text. -/
theorem isAtOrBelow_iff :
    isAtOrBelow entry.toList text.toList = true ↔ segments entry <+: segments text := by
  rw [segments_prefix_iff, isAtOrBelow]
  cases hdrop : Text.dropPrefix? entry.toList text.toList with
  | none =>
    have hnot : ∀ rest, text.toList ≠ entry.toList ++ rest := by
      intro rest heq
      rw [heq, Text.dropPrefix?_append] at hdrop
      cases hdrop
    simpa [hnot] using hnot []
  | some rest =>
    rw [Text.eq_append_of_dropPrefix? hdrop]
    cases rest <;> simp

/-- An entry without a star at its end covers the names that begin with its segments. -/
theorem covers_of_not_endsWith (h : Text.endsWith "*" entry = false) :
    covers entry text = true ↔ segments entry <+: segments text := by
  have hwhole : Text.dropSuffix? ['*'] entry.toList = none := by
    cases hdrop : Text.dropSuffix? ['*'] entry.toList with
    | none => rfl
    | some front =>
      have hend : Text.endsWith "*" entry = true :=
        List.isSuffixOf_iff_suffix.2 ⟨front, (Text.eq_append_of_dropSuffix? hdrop).symm⟩
      exact absurd hend (by simp [h])
  rw [covers, hwhole]
  exact isAtOrBelow_iff

/-- An entry with a star at its end covers the texts that begin with what stands before the star. -/
theorem covers_star (front : String) :
    covers (front ++ "*") text = true ↔ front.toList <+: text.toList := by
  have hdrop : Text.dropSuffix? ['*'] (front ++ "*").toList = some front.toList := by
    rw [String.toList_append]
    exact Text.dropSuffix?_append front.toList ['*']
  rw [covers, hdrop]
  exact List.isPrefixOf_iff_prefix

/-- The texts that begin with a package and a dot have a segment more than the package. -/
theorem covers_below : covers (package ++ ".*") text = true ↔
    segments package <+: segments text ∧ segments package ≠ segments text := by
  have hstar : package ++ ".*" = package ++ "." ++ "*" := by
    rw [String.append_assoc]
    rfl
  rw [hstar, covers_star, segments_strictPrefix_iff, String.toList_append]
  constructor
  · rintro ⟨rest, hrest⟩
    exact ⟨rest, by simp [← hrest]⟩
  · rintro ⟨rest, hrest⟩
    exact ⟨rest, by simp [hrest]⟩

/-- An entry covers the names that it bans by its segments. -/
theorem covers_eq_true_iff : covers entry text = true ↔ Bars entry text := by
  by_cases hstar : Text.endsWith "*" entry = true
  · by_cases hdotted : Text.endsWith ".*" entry = true
    · obtain ⟨package, rfl⟩ := Text.endsWith_iff.1 hdotted
      rw [covers_below, bars_below]
    · obtain ⟨front, rfl⟩ := Text.endsWith_iff.1 hstar
      have hfront : (front ++ "*").toList.dropLast = front.toList := by
        rw [String.toList_append]
        exact List.dropLast_concat
      rw [covers_star, Bars, if_neg hdotted, if_pos hstar, hfront]
  · rw [Bool.not_eq_true] at hstar
    rw [covers_of_not_endsWith hstar, bars_of_not_endsWith hstar]

example : Bars "a.b.C" "a.b.C.inner" ∧ ¬ Bars "a.b.C" "a.b.Cx" ∧ Bars "a.b.*" "a.b." ∧
    ¬ Bars "a.b.*" "a.b" ∧ ¬ Bars "a.b.*" "a.bc.D" ∧ Bars "" ".a" := by
  decide +kernel

/-- A segment that goes on is not the one of the entry. -/
theorem covers_longer (h : Text.endsWith "*" entry = false) {c : Char} (hc : c ≠ '.')
    (rest : List Char) : covers entry (entry ++ String.ofList (c :: rest)) = false := by
  rw [Bool.eq_false_iff, ne_eq, covers_of_not_endsWith h, segments_prefix_iff]
  simp [hc]

/-- A package that goes on is another package. -/
theorem covers_below_longer {c : Char} (hc : c ≠ '.') (rest : List Char) :
    covers (package ++ ".*") (package ++ String.ofList (c :: rest)) = false := by
  rw [Bool.eq_false_iff, ne_eq, covers_below, segments_strictPrefix_iff]
  simp [hc]

/-! ## Names that are looked up -/

theorem covering_eq_some_iff {o : Options} :
    covering o text = some entry ↔ IsFirst (Bars · text) o.bannedNames entry :=
  find?_eq_some_iff_isFirst fun _ => covers_eq_true_iff

/-- At a node the rule reads a name that it looks up among the entries: what is imported, a type
with a dot in its name, and qualified names and accesses that are not a part of something else. -/
inductive Spells (t : Tree) (i : NodeId) : String → Prop
  | imported {token : String} (hkind : t.kind i = .importDecl) (htoken : t.token i = some token) :
      Spells t i token
  | type {token : String} (hkind : t.kind i = .typeName) (htoken : t.token i = some token)
      (hdotted : '.' ∈ (normalized token).toList) : Spells t i (normalized token)
  | qualified (hkind : t.kind i = .qualifiedName)
      (himport : (t.parent i).map t.kind ≠ some .importDecl)
      (hpackage : (t.parent i).map t.kind ≠ some .packageDecl) : Spells t i (normalized (t.text i))
  | access (hkind : t.kind i = .fieldAccess)
      (houter : (t.parent i).map t.kind ≠ some .fieldAccess) : Spells t i (normalized (t.text i))

/-- At a call the rule compares the called name behind what it is called on.  A call without a
receiver begins with its arguments or with its own name. -/
inductive Targets (t : Tree) (i : NodeId) : String → Prop
  | call {receiver : NodeId} {called : String} (hkind : t.kind i = .methodCall)
      (hreceiver : (t.children i).head? = some receiver) (hcalled : t.token i = some called)
      (harguments : t.kind receiver ≠ .argumentList)
      (hname : ¬ (t.token receiver = some called ∧ t.kind receiver = .ident)) :
      Targets t i (normalized (t.text receiver) ++ "." ++ called)

section Hits

variable {t : Tree} {i : NodeId} {o : Options}

theorem hit_of_spells (h : Spells t i text) : hit o t i = covering o text := by
  cases h with
  | imported hkind htoken => simp [hit, hkind, htoken]
  | type hkind htoken hdotted => simp [hit, hkind, htoken, hdotted]
  | qualified hkind himport hpackage => simp [hit, hkind, himport, hpackage]
  | access hkind houter => simp [hit, hkind, houter]

theorem hit_of_targets (h : Targets t i text) :
    hit o t i = o.bannedNames.find? fun entry => entry == text := by
  cases h with
  | call hkind hreceiver hcalled harguments hname =>
    simp only [hit, hkind, hreceiver, hcalled]
    simp [harguments, hname]

theorem Spells.kind_mem (h : Spells t i text) : t.kind i ∈ (rule o).kinds := by
  cases h with
  | imported hkind | type hkind | qualified hkind | access hkind => rw [hkind]; simp [rule]

theorem Targets.kind_mem (h : Targets t i text) : t.kind i ∈ (rule o).kinds := by
  cases h with
  | call hkind => rw [hkind]; simp [rule]

end Hits

/-! ## Reports -/

section Walk

variable {rules : List ActiveRule} {input : WalkInput} {place : Nat} {o : Options} {i : NodeId}
  {finding : Finding}

/-- A node with a name is reported for the first entry that bans the name. -/
theorem reportsAt_iff_of_spells (hrule : (rules[place]?).map ActiveRule.rule = some (rule o))
    (h : Spells input.tree i text) : ReportsAt rules input place i finding ↔
      ∃ entry, IsFirst (Bars · text) o.bannedNames entry ∧
        finding = remark o input.tree i entry := by
  rw [reportsAt_iff_hit hrule h.kind_mem]
  simp only [hit_of_spells h, covering_eq_some_iff]

/-- A call is reported for the first entry that is its target. -/
theorem reportsAt_iff_of_targets (hrule : (rules[place]?).map ActiveRule.rule = some (rule o))
    (h : Targets input.tree i text) : ReportsAt rules input place i finding ↔
      ∃ entry, IsFirst (· = text) o.bannedNames entry ∧
        finding = remark o input.tree i entry := by
  rw [reportsAt_iff_hit hrule h.kind_mem]
  simp only [hit_of_targets h, find?_eq_some_iff_isFirst fun _ => beq_iff_eq]

end Walk

end BannedApi

namespace Logging

/-- What is reported about an import that a package bans. -/
def importRemark (o : Options) (t : Tree) (i : NodeId) (package : String) : Finding :=
  t.finding i
    ("Import of '" ++ (t.token i).getD "" ++ "' is not allowed; '" ++ package ++
      "' is not the SDK logging framework")
    (some ("Log through " ++ o.loggerType))

/-- The package that is found is the first whose segments begin those of the imported name. -/
theorem bannedPackage_eq_some_iff {o : Options} {imported package : String} :
    bannedPackage o imported = some package ↔
      IsFirst (fun entry => BannedApi.segments entry <+: BannedApi.segments imported)
        o.bannedPackages package :=
  find?_eq_some_iff_isFirst fun _ => BannedApi.isAtOrBelow_iff

/-- Over entries without a star at the end both rules find the same one. -/
theorem bannedPackage_eq_covering {o : Options} (other : BannedApi.Options)
    (hlists : o.bannedPackages = other.bannedNames)
    (hstars : ∀ entry ∈ o.bannedPackages, Text.endsWith "*" entry = false) (imported : String) :
    bannedPackage o imported = BannedApi.covering other imported := by
  rw [bannedPackage, BannedApi.covering, ← hlists]
  refine List.find?_congr fun entry hentry => ?_
  rw [Bool.eq_iff_iff, BannedApi.isAtOrBelow_iff,
    BannedApi.covers_of_not_endsWith (hstars entry hentry)]

/-- An import is reported for the first package whose segments begin its own. -/
theorem reportsAt_import_iff {rules : List ActiveRule} {input : WalkInput} {place : Nat}
    {o : Options} {i : NodeId} {finding : Finding}
    (hrule : (rules[place]?).map ActiveRule.rule = some (rule o))
    (hkind : input.tree.kind i = .importDecl) : ReportsAt rules input place i finding ↔
      ∃ package, IsFirst
          (fun entry => BannedApi.segments entry <+:
            BannedApi.segments ((input.tree.token i).getD ""))
          o.bannedPackages package ∧ finding = importRemark o input.tree i package := by
  have hi : i < input.tree.size := Tree.lt_size_of_kind (by rw [hkind]; decide)
  have hcheck : (rule o).check = .ofNodes (judge o) := rfl
  have hfindings (scopes : ScopeStack) : (judge o (input.context scopes) i).findings =
      (bannedPackage o ((input.tree.token i).getD "")).toList.map
        (importRemark o input.tree i) := by
    have htree : (input.context scopes).tree = input.tree := rfl
    rw [judge, htree, hkind]
    dsimp only [checkImport]
    cases bannedPackage o ((input.tree.token i).getD "") <;> rfl
  rw [reportsAt_iff_of_ofNodes hcheck (fun cx j => (judge_meets cx j o).mild) hrule hi
    (by rw [hkind]; simp [rule]) hfindings]
  simp [← bannedPackage_eq_some_iff, eq_comm]

end Logging

/-! ## Both rules -/

/-- Both rules decide by the segments of names, and report the first entry of their list that bans
what is written. -/
structure BarsBySegments (rules : List ActiveRule) (input : WalkInput) : Prop where
  /-- An entry covers the names that it bans by its segments. -/
  covers_iff : ∀ entry text, BannedApi.covers entry text = true ↔ BannedApi.Bars entry text
  /-- What goes on in the last segment of an entry is not covered. -/
  longer : ∀ entry c rest, Text.endsWith "*" entry = false → c ≠ '.' →
    BannedApi.covers entry (entry ++ String.ofList (c :: rest)) = false
  /-- What goes on in the last segment of a package is not covered by all that is below it. -/
  longerBelow : ∀ package c rest, c ≠ '.' →
    BannedApi.covers (package ++ ".*") (package ++ String.ofList (c :: rest)) = false
  /-- The rule about logging finds the first entry whose segments begin those of an import. -/
  bannedPackage_iff : ∀ o imported package, Logging.bannedPackage o imported = some package ↔
    IsFirst (fun entry => BannedApi.segments entry <+: BannedApi.segments imported)
      o.bannedPackages package
  /-- Over entries without a star at the end this is the first one that bans the import. -/
  sameRelation : ∀ o imported package,
    (∀ entry ∈ o.bannedPackages, Text.endsWith "*" entry = false) →
    (Logging.bannedPackage o imported = some package ↔
      IsFirst (BannedApi.Bars · imported) o.bannedPackages package)
  /-- The rule about banned names reports the first entry that bans a name. -/
  named : ∀ place o, (rules[place]?).map ActiveRule.rule = some (BannedApi.rule o) →
    ∀ i text, BannedApi.Spells input.tree i text → ∀ finding,
    (ReportsAt rules input place i finding ↔
      ∃ entry, IsFirst (BannedApi.Bars · text) o.bannedNames entry ∧
        finding = BannedApi.remark o input.tree i entry)
  /-- Of a call it reports the first entry that is the target. -/
  called : ∀ place o, (rules[place]?).map ActiveRule.rule = some (BannedApi.rule o) →
    ∀ i target, BannedApi.Targets input.tree i target → ∀ finding,
    (ReportsAt rules input place i finding ↔
      ∃ entry, IsFirst (· = target) o.bannedNames entry ∧
        finding = BannedApi.remark o input.tree i entry)
  /-- Of an import the rule about logging reports the first entry whose segments begin it. -/
  imported : ∀ place o, (rules[place]?).map ActiveRule.rule = some (Logging.rule o) →
    ∀ i, input.tree.kind i = .importDecl → ∀ finding,
    (ReportsAt rules input place i finding ↔
      ∃ package, IsFirst
          (fun entry => BannedApi.segments entry <+:
            BannedApi.segments ((input.tree.token i).getD ""))
          o.bannedPackages package ∧
        finding = Logging.importRemark o input.tree i package)

/-- Both rules decide by segments in every walk. -/
theorem bars_by_segments (rules : List ActiveRule) (input : WalkInput) :
    BarsBySegments rules input where
  covers_iff _ _ := BannedApi.covers_eq_true_iff
  longer _ _ rest hstar hc := BannedApi.covers_longer hstar hc rest
  longerBelow _ _ rest hc := BannedApi.covers_below_longer hc rest
  bannedPackage_iff _ _ _ := Logging.bannedPackage_eq_some_iff
  sameRelation o imported package hstars := by
    rw [Logging.bannedPackage_eq_covering { bannedNames := o.bannedPackages } rfl hstars imported,
      BannedApi.covering_eq_some_iff]
  named _ _ hrule _ _ hspells _ := BannedApi.reportsAt_iff_of_spells hrule hspells
  called _ _ hrule _ _ htargets _ := BannedApi.reportsAt_iff_of_targets hrule htargets
  imported _ _ hrule _ hkind _ := Logging.reportsAt_import_iff hrule hkind

/-- Two imports and a call on a receiver. -/
def barredOutline : Outline :=
  .sketch .compilationUnit none
    [.sketch .importDecl (some "a.b.C.D") [],
      .sketch .importDecl (some "a.bc.D") [],
      .sketch .methodCall (some "of")
        [.node .fieldAccess ⟨0, 5⟩ ⟨1, 1⟩ (some "C") [], .sketch .argumentList none []]]

def barredInput : WalkInput where
  file := .ofPath "A.java" "" ""
  tree := barredOutline.toTree "a.b.C.of()"
  resolver := fun _ => none

def barredOptions : BannedApi.Options :=
  { bannedNames := ["a.b.Cx", "a.b.C", "a.b.*", "a.b.C.of"] }

def barredPackages : Logging.Options :=
  { bannedPackages := ["a.b", "a"] }

/-- A name that goes on in its last segment is not covered.  The first import is reported for the
class around what is imported and the call for its target.  The second import is not below `a.b` but
below `a`. -/
theorem barredInput_bySegments :
    let rules := [(BannedApi.rule barredOptions).active, (Logging.rule barredPackages).active]
    let t := barredInput.tree
    BarsBySegments rules barredInput ∧
      (BannedApi.covers "a.b.C" "a.b.Cx" = false ∧ BannedApi.covers "a.b.*" "a.bc.D" = false) ∧
      ReportsAt rules barredInput 0 1 (BannedApi.remark barredOptions t 1 "a.b.C") ∧
      (∀ finding, ¬ ReportsAt rules barredInput 0 2 finding) ∧
      ReportsAt rules barredInput 0 3 (BannedApi.remark barredOptions t 3 "a.b.C.of") ∧
      ReportsAt rules barredInput 1 2 (Logging.importRemark barredPackages t 2 "a") := by
  intro rules t
  have hall : BarsBySegments rules barredInput := bars_by_segments rules barredInput
  have hfirst : BannedApi.Spells t 1 "a.b.C.D" :=
    .imported (by decide +kernel) (by decide +kernel)
  have hsecond : BannedApi.Spells t 2 "a.bc.D" :=
    .imported (by decide +kernel) (by decide +kernel)
  have hcall : BannedApi.Targets t 3 "a.b.C.of" := by
    have htarget : BannedApi.normalized (t.text 4) ++ "." ++ "of" = "a.b.C.of" := by
      decide +kernel
    rw [← htarget]
    exact .call (by decide +kernel) (by decide +kernel) (by decide +kernel) (by decide +kernel)
      (by decide +kernel)
  refine ⟨hall, ⟨hall.longer "a.b.C" 'x' [] (by decide) (by decide),
    hall.longerBelow "a.b" 'c' ".D".toList (by decide)⟩, ?_, ?_, ?_, ?_⟩
  · rw [hall.named 0 barredOptions rfl 1 _ hfirst]
    exact ⟨_, ⟨by decide +kernel, ["a.b.Cx"], _, rfl, by decide +kernel⟩, rfl⟩
  · intro finding
    rw [hall.named 0 barredOptions rfl 2 _ hsecond]
    rintro ⟨entry, hentry, -⟩
    have hnone : ∀ entry ∈ barredOptions.bannedNames, ¬ BannedApi.Bars entry "a.bc.D" := by
      decide +kernel
    exact hnone entry hentry.mem hentry.1
  · rw [hall.called 0 barredOptions rfl 3 _ hcall]
    exact ⟨_, ⟨rfl, ["a.b.Cx", "a.b.C", "a.b.*"], _, rfl, by decide +kernel⟩, rfl⟩
  · rw [hall.imported 1 barredPackages rfl 2 (by decide +kernel)]
    exact ⟨_, ⟨by decide +kernel, ["a.b"], _, rfl, by decide +kernel⟩, rfl⟩

end SdkLint
