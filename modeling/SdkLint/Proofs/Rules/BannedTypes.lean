import SdkLint.Proofs.Rules.Verdicts
import SdkLint.Proofs.Text.Cuts
import SdkLint.Proofs.Tree.Building
import SdkLint.Proofs.Walk.Answers

/-!
# Banned types as they are written

A type can be written with type arguments, as a member of another type, as the element of an array
and with a mark such as an annotation in front of it.  Of all this the rule about banned names reads
what stands before the first type argument.  There it finds a banned name that is written with type
arguments or on its own.  Where the name is the element of an array and has no type arguments, the
brackets count as a part of the name, and type arguments are not read at all.

Main definitions:

- `WrittenType`: a type as it is written, apart from blanks.
- `WrittenType.head`: what is written before the first type argument.
- `WrittenType.Mentions`: a type is made of another one.
- `WrittenType.Leads`: a name is all that is written before the first type argument.
- `BannedApi.Bans`: the rule reports a node for one of its entries.

Main results:

- Theorem `WrittenType.takeWhile_text`: the text before the first `<` is the head of the type.
- Theorem `WrittenType.Leads.mentions`: a type with a name in front is made of the one with it.
- Theorem `BannedApi.reportsAt_iff_hit`: a node is reported for the entry that it hits.
- Theorem `BannedApi.bans_iff`: a type is reported exactly if its head is banned.
- Theorem `BannedApi.bans_of_leads`: which types that are made of a banned one are reported.
-/

namespace SdkLint

/-! ## Written types -/

/-- A type as it is written, apart from blanks. -/
inductive WrittenType where
  /-- A name, with type arguments or without.  The wildcard `?` counts as a name. -/
  | named (name : List Char) (arguments : List WrittenType)
  /-- A member of a type that is written in front of it. -/
  | member (outer : WrittenType) (name : List Char) (arguments : List WrittenType)
  | array (element : WrittenType)
  /-- A type behind a mark, as an annotation is or `?extends`. -/
  | marked (mark : List Char) (type : WrittenType)

namespace WrittenType

/-! ## Texts -/

mutual

/-- The text of a type. -/
def text : WrittenType → List Char
  | .named name arguments => name ++ argumentText arguments
  | .member outer name arguments => outer.text ++ '.' :: (name ++ argumentText arguments)
  | .array element => element.text ++ ['[', ']']
  | .marked mark type => mark ++ type.text

/-- The text of type arguments, which is empty if there are none. -/
def argumentText : List WrittenType → List Char
  | [] => []
  | first :: later => '<' :: (first.text ++ laterText later)

/-- The text of the type arguments behind the first one, and what ends them. -/
def laterText : List WrittenType → List Char
  | [] => ['>']
  | next :: later => ',' :: (next.text ++ laterText later)

end

/-- Whether there are type arguments outside of type arguments. -/
def hasArguments : WrittenType → Bool
  | .named _ arguments => !arguments.isEmpty
  | .member outer _ arguments => outer.hasArguments || !arguments.isEmpty
  | .array element => element.hasArguments
  | .marked _ type => type.hasArguments

/-- What is written before the first type argument. -/
def head : WrittenType → List Char
  | .named name _ => name
  | .member outer name _ => if outer.hasArguments then outer.head else outer.head ++ '.' :: name
  | .array element => if element.hasArguments then element.head else element.head ++ ['[', ']']
  | .marked mark type => mark ++ type.head

/-- The name of a type that is neither an array nor marked, without type arguments. -/
def name? : WrittenType → Option (List Char)
  | .named name _ => some name
  | .member outer name _ => outer.name?.map (· ++ '.' :: name)
  | .array _ | .marked _ _ => none

/-- Outside of type arguments no name and no mark holds the sign that opens them. -/
def Plain : WrittenType → Prop
  | .named name _ => '<' ∉ name
  | .member outer name _ => outer.Plain ∧ '<' ∉ name
  | .array element => element.Plain
  | .marked mark type => '<' ∉ mark ∧ type.Plain

/-- A type is made of the one with a name: it is this type, an array of it, or has it among its type
arguments, at any depth. -/
inductive Mentions (name : List Char) : WrittenType → Prop
  | itself {type : WrittenType} (h : type.name? = some name) : Mentions name type
  | element {type : WrittenType} (h : type.Mentions name) : Mentions name (.array type)
  | argument {own : List Char} {arguments : List WrittenType} {type : WrittenType}
      (hmem : type ∈ arguments) (h : type.Mentions name) : Mentions name (.named own arguments)
  | memberArgument {outer : WrittenType} {own : List Char} {arguments : List WrittenType}
      {type : WrittenType} (hmem : type ∈ arguments) (h : type.Mentions name) :
      Mentions name (.member outer own arguments)
  | outer {outer : WrittenType} {own : List Char} {arguments : List WrittenType}
      (h : outer.Mentions name) : Mentions name (.member outer own arguments)
  | marked {mark : List Char} {type : WrittenType} (h : type.Mentions name) :
      Mentions name (.marked mark type)

/-- A name is all that is written before the first type argument: the type has the name and no type
arguments in the middle of it, or it is an array of such a type with type arguments at its end. -/
inductive Leads (name : List Char) : WrittenType → Prop
  | named (arguments : List WrittenType) : Leads name (.named name arguments)
  | member {outer : WrittenType} {own : List Char} (arguments : List WrittenType)
      (hname : (WrittenType.member outer own arguments).name? = some name)
      (hplain : outer.hasArguments = false) : Leads name (.member outer own arguments)
  | array {element : WrittenType} (h : element.Leads name) (hargs : element.hasArguments = true) :
      Leads name (.array element)

/-! ## Heads -/

theorem argumentText_cases (arguments : List WrittenType) :
    arguments.isEmpty = true ∧ argumentText arguments = [] ∨
      arguments.isEmpty = false ∧ ∃ rest, argumentText arguments = '<' :: rest := by
  cases arguments with
  | nil => exact .inl ⟨rfl, by rw [argumentText]⟩
  | cons first later => exact .inr ⟨rfl, _, by rw [argumentText]⟩

/-- A type is written as its head, with type arguments behind it if it has any. -/
theorem text_cases : ∀ type : WrittenType,
    type.hasArguments = false ∧ type.text = type.head ∨
      type.hasArguments = true ∧ ∃ rest, type.text = type.head ++ '<' :: rest
  | .named name arguments => by
    rw [hasArguments, text, head]
    rcases argumentText_cases arguments with ⟨hempty, htext⟩ | ⟨hempty, rest, htext⟩
    · exact .inl ⟨by rw [hempty]; rfl, by rw [htext, List.append_nil]⟩
    · exact .inr ⟨by rw [hempty]; rfl, rest, by rw [htext]⟩
  | .member outer name arguments => by
    rw [hasArguments, text, head]
    rcases text_cases outer with ⟨hnone, houter⟩ | ⟨hsome, rest, houter⟩
    · rw [hnone, houter]
      rcases argumentText_cases arguments with ⟨hempty, htext⟩ | ⟨hempty, rest, htext⟩
      · exact .inl ⟨by rw [hempty]; rfl, by simp [htext]⟩
      · exact .inr ⟨by rw [hempty]; rfl, rest, by simp [htext]⟩
    · rw [hsome, houter]
      exact .inr ⟨rfl, rest ++ '.' :: (name ++ argumentText arguments), by simp⟩
  | .array element => by
    rw [hasArguments, text, head]
    rcases text_cases element with ⟨hnone, helement⟩ | ⟨hsome, rest, helement⟩
    · exact .inl ⟨hnone, by simp [hnone, helement]⟩
    · exact .inr ⟨hsome, rest ++ ['[', ']'], by simp [hsome, helement]⟩
  | .marked mark type => by
    rw [hasArguments, text, head]
    rcases text_cases type with ⟨hnone, htype⟩ | ⟨hsome, rest, htype⟩
    · exact .inl ⟨hnone, by rw [htype]⟩
    · exact .inr ⟨hsome, rest, by rw [htype, List.append_assoc]⟩

theorem bracket_notMem_head : ∀ {type : WrittenType}, type.Plain → '<' ∉ type.head
  | .named name arguments, h => h
  | .member outer name arguments, h => by
    have houter := bracket_notMem_head h.1
    rw [head]
    split
    · exact houter
    · simp [houter, h.2]
  | .array element, h => by
    have helement : '<' ∉ element.head := bracket_notMem_head (show element.Plain from h)
    rw [head]
    split
    · exact helement
    · simp [helement]
  | .marked mark type, h => by
    rw [head, List.mem_append, not_or]
    exact ⟨h.1, bracket_notMem_head h.2⟩

/-- The text before the first `<` is the head. -/
theorem takeWhile_text {type : WrittenType} (h : type.Plain) :
    type.text.takeWhile (· != '<') = type.head := by
  have hhead := bracket_notMem_head h
  rcases text_cases type with ⟨-, htext⟩ | ⟨-, rest, htext⟩
  · rw [htext, List.takeWhile_eq_self_iff]
    intro c hc
    simpa using ne_of_mem_of_not_mem hc hhead
  · rw [htext, Text.takeWhile_append_of_notMem hhead]

theorem head_eq_of_name? : ∀ {type : WrittenType} {name : List Char}, type.name? = some name →
    type.hasArguments = false → type.head = name
  | .named own arguments, name, hname, _ => Option.some.inj hname
  | .member outer own arguments, name, hname, hnone => by
    obtain ⟨front, hfront, rfl⟩ := Option.map_eq_some_iff.1 hname
    have houter : outer.hasArguments = false := (Bool.or_eq_false_iff.1 hnone).1
    rw [head, houter, head_eq_of_name? hfront houter]
    rfl

namespace Leads

variable {name : List Char} {type : WrittenType}

theorem head_eq (h : type.Leads name) : type.head = name := by
  induction h with
  | named arguments => rfl
  | member arguments hname hplain =>
    obtain ⟨front, hfront, rfl⟩ := Option.map_eq_some_iff.1 hname
    rw [head, hplain, head_eq_of_name? hfront hplain]
    rfl
  | array _ hargs ih => rw [head, hargs, if_pos rfl, ih]

/-- A type with a name in front is made of the one with this name. -/
theorem mentions (h : type.Leads name) : type.Mentions name := by
  induction h with
  | named arguments => exact .itself rfl
  | member arguments hname hplain => exact .itself hname
  | array _ hargs ih => exact .element ih

end Leads

end WrittenType

namespace BannedApi

/-! ## Reports -/

/-- What is reported about a node that offends against an entry. -/
def remark (o : Options) (t : Tree) (i : NodeId) (entry : String) : Finding :=
  t.finding i (Text.replace "\x7bname\x7d" entry o.message)

/-- In a walk the rule at a place of the list reports a node for one of its entries. -/
def Bans (rules : List ActiveRule) (input : WalkInput) (place : Nat) (o : Options) (i : NodeId) :
    Prop :=
  ∃ entry ∈ o.bannedNames, ReportsAt rules input place i (remark o input.tree i entry)

/-- An entry without a star at its end covers itself. -/
theorem covers_self {entry : String} (h : entry.toList.getLast? ≠ some '*') :
    covers entry entry = true := by
  have hwhole : Text.dropSuffix? ['*'] entry.toList = none :=
    Text.dropSuffix?_of_getLast?_ne (by decide) h
  have hself : Text.dropPrefix? entry.toList entry.toList = some [] := by
    simpa using Text.dropPrefix?_append entry.toList []
  simp only [covers, hwhole, isAtOrBelow, hself]

theorem of_covering_eq_some {o : Options} {text entry : String} (h : covering o text = some entry) :
    entry ∈ o.bannedNames ∧ covers entry text = true := by
  rw [covering] at h
  have hcovers := List.find?_some h
  exact ⟨List.mem_of_find?_eq_some h, hcovers⟩

theorem covering_eq_none_iff {o : Options} {text : String} :
    covering o text = none ↔ ∀ entry ∈ o.bannedNames, covers entry text = false := by
  simp [covering]

/-- The entry that a node offends against is one of the options. -/
theorem mem_bannedNames_of_hit {o : Options} {t : Tree} {i : NodeId} {entry : String}
    (h : hit o t i = some entry) : entry ∈ o.bannedNames := by
  have hcovering {text : String} (h : covering o text = some entry) : entry ∈ o.bannedNames :=
    (of_covering_eq_some h).1
  unfold hit at h
  dsimp only at h
  split at h
  · -- An import.
    obtain ⟨_, -, h⟩ := Option.bind_eq_some_iff.1 h
    exact hcovering h
  · -- A type.
    obtain ⟨_, -, h⟩ := Option.bind_eq_some_iff.1 h
    split at h
    · exact hcovering h
    · cases h
  · -- A qualified name.
    split at h
    · cases h
    · exact hcovering h
  · -- A field access.
    split at h
    · cases h
    · exact hcovering h
  · -- A call.
    split at h
    · split at h
      · cases h
      · split at h
        · cases h
        · exact List.mem_of_find?_eq_some h
    · cases h
  · cases h

/-- Nothing is hit if there are no entries. -/
theorem hit_of_isEmpty {o : Options} {t : Tree} {i : NodeId} (h : o.bannedNames.isEmpty = true) :
    hit o t i = none := by
  cases hhit : hit o t i with
  | none => rfl
  | some entry =>
    have hmem := mem_bannedNames_of_hit hhit
    rw [List.isEmpty_iff.1 h] at hmem
    cases hmem

section Walk

variable {rules : List ActiveRule} {input : WalkInput} {place : Nat} {o : Options} {i : NodeId}

/-- The answers about a node are the same wherever it stands. -/
theorem findings_judge (scopes : ScopeStack) :
    (judge o (input.context scopes) i).findings =
      (hit o input.tree i).toList.map (remark o input.tree i) := by
  rw [judge]
  split
  · rename_i hempty
    rw [hit_of_isEmpty hempty]
    rfl
  · have htree : (input.context scopes).tree = input.tree := rfl
    rw [htree]
    cases hit o input.tree i <;> rfl

/-- A node is reported for the entry that it hits, and for nothing else. -/
theorem reportsAt_iff_hit (hrule : (rules[place]?).map ActiveRule.rule = some (rule o))
    (hkind : input.tree.kind i ∈ (rule o).kinds) {finding : Finding} :
    ReportsAt rules input place i finding ↔
      ∃ entry, hit o input.tree i = some entry ∧ finding = remark o input.tree i entry := by
  have hi : i < input.tree.size := by
    refine Tree.lt_size_of_kind fun hother => ?_
    rw [hother] at hkind
    simp [rule] at hkind
  have hcheck : (rule o).check = .ofNodes (judge o) := rfl
  rw [reportsAt_iff_of_ofNodes hcheck (fun cx j => (judge_meets cx j o).mild) hrule hi hkind
    findings_judge]
  simp [eq_comm]

variable {token : String} {type : WrittenType}

/-- Of a type the rule looks at the head, if there is a dot in it. -/
theorem hit_of_written (hkind : input.tree.kind i = .typeName)
    (htoken : input.tree.token i = some token) (hplain : type.Plain)
    (hwritten : Text.squeeze token.toList = type.text) :
    hit o input.tree i =
      if '.' ∈ type.head then covering o (String.ofList type.head) else none := by
  have hnormalized : normalized token = String.ofList type.head := by
    rw [normalized, hwritten, WrittenType.takeWhile_text hplain]
  simp [hit, hkind, htoken, hnormalized]

/-- A type is reported exactly if its head has a dot and is banned. -/
theorem bans_iff (hrule : (rules[place]?).map ActiveRule.rule = some (rule o))
    (hkind : input.tree.kind i = .typeName) (htoken : input.tree.token i = some token)
    (hplain : type.Plain) (hwritten : Text.squeeze token.toList = type.text) :
    Bans rules input place o i ↔ '.' ∈ type.head ∧
      ∃ entry ∈ o.bannedNames, covers entry (String.ofList type.head) = true := by
  have hkinds : input.tree.kind i ∈ (rule o).kinds := by
    rw [hkind]
    simp [rule]
  simp only [Bans, reportsAt_iff_hit hrule hkinds, hit_of_written hkind htoken hplain hwritten]
  constructor
  · rintro ⟨-, -, found, hfound, -⟩
    split at hfound
    · rename_i hdot
      exact ⟨hdot, found, of_covering_eq_some hfound⟩
    · cases hfound
  · rintro ⟨hdot, entry, hentry, hcovers⟩
    rw [if_pos hdot]
    cases hcovering : covering o (String.ofList type.head) with
    | none =>
      rw [covering_eq_none_iff.1 hcovering entry hentry] at hcovers
      cases hcovers
    | some found => exact ⟨found, (of_covering_eq_some hcovering).1, found, rfl, rfl⟩

/-- A type with a banned name in front is reported.  Any other type that is made of the banned one
is reported only if what is written in front happens to be banned. -/
theorem bans_of_leads (hrule : (rules[place]?).map ActiveRule.rule = some (rule o))
    {name : String} (hbanned : name ∈ o.bannedNames) (hdotted : '.' ∈ name.toList)
    (hwhole : name.toList.getLast? ≠ some '*') (hkind : input.tree.kind i = .typeName)
    (htoken : input.tree.token i = some token) (hplain : type.Plain)
    (hwritten : Text.squeeze token.toList = type.text) :
    (type.Leads name.toList → Bans rules input place o i) ∧
      (type.Mentions name.toList → ¬ type.Leads name.toList →
        (Bans rules input place o i ↔ '.' ∈ type.head ∧
          ∃ entry ∈ o.bannedNames, covers entry (String.ofList type.head) = true)) := by
  have hbans := bans_iff hrule hkind htoken hplain hwritten
  refine ⟨fun hleads => hbans.2 ?_, fun _ _ => hbans⟩
  rw [hleads.head_eq, String.ofList_toList]
  exact ⟨hdotted, name, hbanned, covers_self hwhole⟩

end Walk

/-! ## Three types made of one -/

/-- Arrays of dates with a type argument. -/
def listedDates : WrittenType :=
  .array (.named "java.util.Date".toList [.named "String".toList []])

def arrayOfDates : WrittenType :=
  .array (.named "java.util.Date".toList [])

def datesByKey : WrittenType :=
  .named "Map".toList [.named "K".toList [], arrayOfDates]

def datedOutline : Outline :=
  .sketch .compilationUnit none
    [.sketch .typeName (some "java.util. Date < String >[ ]") [],
      .sketch .typeName (some "java.util.Date[]") [],
      .sketch .typeName (some "Map<K, java.util.Date[]>") []]

def datedInput : WalkInput where
  file := .ofPath "A.java" "" ""
  tree := datedOutline.toTree ""
  resolver := fun _ => none

def datedOptions : Options :=
  { bannedNames := ["java.util.Date"] }

/-- Three types are made of a banned one.  The array of dates with a type argument is reported, and
the other two are not. -/
theorem datedInput_bans :
    let bans := Bans [(rule datedOptions).active] datedInput 0 datedOptions
    let date := "java.util.Date".toList
    (listedDates.Mentions date ∧ listedDates.Leads date ∧ bans 1) ∧
      (arrayOfDates.Mentions date ∧ ¬ arrayOfDates.Leads date ∧ ¬ bans 2) ∧
      datesByKey.Mentions date ∧ ¬ datesByKey.Leads date ∧ ¬ bans 3 := by
  intro bans date
  have hrule : ([(rule datedOptions).active][0]?).map ActiveRule.rule =
      some (rule datedOptions) := rfl
  have hbanned : "java.util.Date" ∈ datedOptions.bannedNames := List.mem_singleton_self _
  have hdotted : '.' ∈ "java.util.Date".toList := by decide
  have hwhole : "java.util.Date".toList.getLast? ≠ some '*' := by decide
  have hkinds : ∀ i ∈ [1, 2, 3], datedInput.tree.kind i = .typeName := by decide +kernel
  have hlisted : (listedDates.Leads date → bans 1) ∧ _ :=
    bans_of_leads hrule hbanned hdotted hwhole (hkinds 1 (by simp)) rfl
      (show '<' ∉ date by decide) (by decide +kernel)
  have harray : _ ∧ (arrayOfDates.Mentions date → ¬ arrayOfDates.Leads date → (bans 2 ↔ _)) :=
    bans_of_leads hrule hbanned hdotted hwhole (hkinds 2 (by simp)) rfl
      (show '<' ∉ date by decide) (by decide +kernel)
  have hkeyed : _ ∧ (datesByKey.Mentions date → ¬ datesByKey.Leads date → (bans 3 ↔ _)) :=
    bans_of_leads hrule hbanned hdotted hwhole (hkinds 3 (by simp)) rfl
      (show '<' ∉ "Map".toList by decide) (by decide +kernel)
  have hmade : arrayOfDates.Mentions date := .element (.itself rfl)
  have hbelow : datesByKey.Mentions date :=
    .argument (List.mem_cons_of_mem _ (List.mem_singleton_self _)) hmade
  have hleads : listedDates.Leads date := .array (.named _) rfl
  have hbrackets : ¬ arrayOfDates.Leads date := by
    intro h
    exact absurd h.head_eq (by decide)
  have hhidden : ¬ datesByKey.Leads date := by
    intro h
    exact absurd h.head_eq (by decide)
  refine ⟨⟨hleads.mentions, hleads, hlisted.1 hleads⟩, ⟨hmade, hbrackets, ?_⟩, hbelow, hhidden, ?_⟩
  · rw [harray.2 hmade hbrackets]
    decide +kernel
  · rw [hkeyed.2 hbelow hhidden]
    decide +kernel

end BannedApi

end SdkLint
