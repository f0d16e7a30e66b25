import SdkLint.Finding.Directive
import SdkLint.Proofs.Text.NumberedLines

/-!
# The lines on which a rule is allowed

A rule may be allowed on a line by a directive on the line itself or on the line before it.  The
earlier of the two that allows the rule gives the reason, and no other line of the text matters.
There is no line 0, so that nothing is allowed there and the first line has none before it.

Main definitions:

- `Directive.Names`: a directive names a rule.
- `Directive.AllowsOn`: a line holds a directive that names a rule.
- `Directive.DecidedByWindow`: two lines decide whether a rule is allowed.

Main results:

- Theorem `Directive.check_succ`: the two lines that are looked at.
- Theorem `Directive.check_decidedByWindow`: these lines decide whether a rule is allowed.
-/

namespace SdkLint.Directive

open Text

/-! ## Lines with a directive -/

/-- A directive names a rule by its name or code, or all rules. -/
def Names (d : Directive) (name code : String) : Prop :=
  "all" ∈ d.rules ∨ name ∈ d.rules ∨ code ∈ d.rules

/-- The line of a text with a number holds a directive that names a rule. -/
def AllowsOn (content : List Char) (number : Nat) (name code : String) (d : Directive) : Prop :=
  ∃ line, IsLine content number line ∧ parse line = some d ∧ d.Names name code

/-- Whether a rule is allowed on a line is decided by that line and the one before it. -/
structure DecidedByWindow (content : List Char) (line : Nat) (name code : String) : Prop where
  /-- The rule is allowed exactly if one of the two lines names it. -/
  allowed_iff : (∃ reason, check content line name code = .allowed reason) ↔
    1 ≤ line ∧ ∃ d, AllowsOn content (line - 1) name code d ∨ AllowsOn content line name code d
  /-- The line before gives its reason if it names the rule. -/
  earlier : ∀ d, AllowsOn content (line - 1) name code d →
    check content line name code = .allowed d.reason
  /-- The line itself gives its reason if the one before does not name the rule. -/
  later : ∀ d, (∀ d', ¬ AllowsOn content (line - 1) name code d') →
    AllowsOn content line name code d → check content line name code = .allowed d.reason
  /-- Texts that agree on the two lines agree on the rule. -/
  unaffected : ∀ content',
    (∀ text, IsLine content' (line - 1) text ↔ IsLine content (line - 1) text) →
    (∀ text, IsLine content' line text ↔ IsLine content line text) →
    check content' line name code = check content line name code

theorem covers_iff_names {d : Directive} {name code : String} :
    d.covers name code = true ↔ d.Names name code := by
  simp [covers, Names, or_assoc]

variable {content : List Char} {name code : String} {d : Directive}

/-! ## The lines that are looked at -/

/-- The line of a text with a number, if there is one. -/
def lineAt? (content : List Char) : Nat → Option (List Char)
  | 0 => none
  | n + 1 => (lines content)[n]?

theorem lineAt?_eq_some_iff {number : Nat} {line : List Char} :
    lineAt? content number = some line ↔ IsLine content number line := by
  cases number with
  | zero =>
    constructor
    · exact nofun
    · rintro ⟨before, after, -, -, hcount, -⟩
      cases hcount
  | succ n => exact getElem?_lines_eq_some_iff

/-- The directive of a line that allows a rule. -/
def coveringIn (name code : String) (line : List Char) : Option Directive :=
  match parse line with
  | some d => if d.covers name code then some d else none
  | none => none

theorem coveringIn_eq_some_iff {line : List Char} :
    coveringIn name code line = some d ↔ parse line = some d ∧ d.Names name code := by
  rw [coveringIn]
  cases parse line with
  | none => simp
  | some d' =>
    simp only [Option.ite_none_right_eq_some, Option.some.injEq, covers_iff_names]
    constructor
    · rintro ⟨hnames, rfl⟩
      exact ⟨rfl, hnames⟩
    · rintro ⟨rfl, hnames⟩
      exact ⟨hnames, rfl⟩

/-- The directive of the line with a number that allows a rule. -/
def coveringOn (content : List Char) (name code : String) (number : Nat) : Option Directive :=
  (lineAt? content number).bind (coveringIn name code)

theorem coveringOn_eq_some_iff {number : Nat} :
    coveringOn content name code number = some d ↔ AllowsOn content number name code d := by
  simp only [coveringOn, Option.bind_eq_some_iff, lineAt?_eq_some_iff, coveringIn_eq_some_iff,
    AllowsOn]

theorem coveringOn_eq_none_iff {number : Nat} :
    coveringOn content name code number = none ↔
      ∀ d, ¬ AllowsOn content number name code d := by
  simp only [Option.eq_none_iff_forall_ne_some, ne_eq, coveringOn_eq_some_iff]

/-- The directive depends on the line alone. -/
theorem coveringOn_congr {content' : List Char} {number : Nat}
    (h : ∀ line, IsLine content' number line ↔ IsLine content number line) :
    coveringOn content' name code number = coveringOn content name code number := by
  have hline : lineAt? content' number = lineAt? content number := by
    refine Option.ext fun line => ?_
    rw [lineAt?_eq_some_iff, lineAt?_eq_some_iff, h]
  rw [coveringOn, coveringOn, hline]

/-- The lines that are looked at are the line before and the line itself, as far as they exist. -/
theorem window_eq (content : List Char) (n : Nat) :
    ((lines content).drop (n + 1 - 2)).take (n + 1 - (n + 1 - 2)) =
      (lineAt? content n).toList ++ (lineAt? content (n + 1)).toList := by
  cases n with
  | zero => simp [lineAt?, List.take_add_one]
  | succ m =>
    have hfirst : m + 1 + 1 - 2 = m := by omega
    have hcount : m + 1 + 1 - m = 2 := by omega
    rw [hfirst, hcount]
    simp [lineAt?, List.take_add_one]

theorem findSome?_toList {α β : Type} (o : Option α) (f : α → Option β) :
    o.toList.findSome? f = o.bind f := by
  cases o with
  | none => rfl
  | some a => simp

/-- A rule is allowed on a line by the line before it or else by the line itself. -/
theorem check_succ (content : List Char) (n : Nat) (name code : String) :
    check content (n + 1) name code =
      match (coveringOn content name code n).or (coveringOn content name code (n + 1)) with
      | some d => .allowed d.reason
      | none => .denied := by
  rw [check, if_neg (Nat.succ_ne_zero n)]
  change (match (((lines content).drop (n + 1 - 2)).take (n + 1 - (n + 1 - 2))).findSome?
    (coveringIn name code) with
    | some d => Allowance.allowed d.reason
    | none => .denied) = _
  rw [window_eq, List.findSome?_append, findSome?_toList, findSome?_toList]
  rfl

/-! ## The decision -/

theorem not_allowsOn_zero : ¬ AllowsOn content 0 name code d := by
  rw [← coveringOn_eq_some_iff]
  exact nofun

section Decision

variable {n : Nat}

theorem check_of_earlier (h : AllowsOn content n name code d) :
    check content (n + 1) name code = .allowed d.reason := by
  rw [check_succ, coveringOn_eq_some_iff.2 h]
  rfl

theorem check_of_later (hnone : ∀ d', ¬ AllowsOn content n name code d')
    (h : AllowsOn content (n + 1) name code d) :
    check content (n + 1) name code = .allowed d.reason := by
  rw [check_succ, coveringOn_eq_none_iff.2 hnone, coveringOn_eq_some_iff.2 h]
  rfl

theorem check_of_none (hnone : ∀ d', ¬ AllowsOn content n name code d')
    (hlast : ∀ d', ¬ AllowsOn content (n + 1) name code d') :
    check content (n + 1) name code = .denied := by
  rw [check_succ, coveringOn_eq_none_iff.2 hnone, coveringOn_eq_none_iff.2 hlast]
  rfl

/-- A rule is allowed on a line exactly if the line or the one before it names the rule. -/
theorem exists_allowed_iff : (∃ reason, check content (n + 1) name code = .allowed reason) ↔
    ∃ d, AllowsOn content n name code d ∨ AllowsOn content (n + 1) name code d := by
  constructor
  · rintro ⟨reason, hallowed⟩
    by_contra hnone
    have hboth : ∀ d, ¬ AllowsOn content n name code d ∧
        ¬ AllowsOn content (n + 1) name code d := by
      simpa only [not_exists, not_or] using hnone
    rw [check_of_none (fun d => (hboth d).1) fun d => (hboth d).2] at hallowed
    cases hallowed
  · rintro ⟨d, hearlier | hlater⟩
    · exact ⟨d.reason, check_of_earlier hearlier⟩
    · by_cases hnone : ∃ d', AllowsOn content n name code d'
      · obtain ⟨d', hearlier⟩ := hnone
        exact ⟨d'.reason, check_of_earlier hearlier⟩
      · exact ⟨d.reason, check_of_later (not_exists.1 hnone) hlater⟩

end Decision

/-- Two lines decide whether a rule is allowed on a line. -/
theorem check_decidedByWindow (content : List Char) (line : Nat) (name code : String) :
    DecidedByWindow content line name code := by
  cases line with
  | zero =>
    have hdenied (content : List Char) : check content 0 name code = .denied := rfl
    constructor
    case allowed_iff => simp [hdenied]
    case earlier => exact fun d h => absurd h not_allowsOn_zero
    case later => exact fun d _ h => absurd h not_allowsOn_zero
    case unaffected => exact fun content' _ _ => rfl
  | succ n =>
    have hbefore : n + 1 - 1 = n := Nat.add_sub_cancel n 1
    constructor
    case allowed_iff =>
      rw [hbefore, exists_allowed_iff]
      simp
    case earlier =>
      intro d h
      rw [hbefore] at h
      exact check_of_earlier h
    case later =>
      intro d hnone h
      rw [hbefore] at hnone
      exact check_of_later hnone h
    case unaffected =>
      intro content' hprevious hself
      rw [hbefore] at hprevious
      rw [check_succ, check_succ, coveringOn_congr hprevious, coveringOn_congr hself]

end SdkLint.Directive
