import SdkLint.Finding.Directive
import SdkLint.Proofs.Text.Cuts

/-!
# Directives read back as written

A line comment that is written to allow some rules, behind any code that has no comment itself,
reads back as the directive that lists these rules and gives the reason, if there is one.  The
reason may hold anything but a quotation mark: parentheses, slashes and marks of comments as well.

Main definitions:

- `Directive.IsRuleName`: a name that can be listed.
- `Directive.text`, `Directive.lineComment`: a directive as it is written.

Main results:

- Theorem `Directive.rulesOf_join`: the list of rules reads back.
- Theorem `Directive.reasonOf_reasonText`: the reason reads back.
- Theorem `Directive.parse_of_commentText?`: the directive of a comment is found in it.
- Theorem `Directive.parse_lineComment`: a line with a directive at its end reads back.
-/

namespace SdkLint.Directive

open Text

/-! ## Directives as written -/

/-- A name that can be listed between the parentheses of a directive: it has no blanks around it and
none of the marks that end a name or the list. -/
structure IsRuleName (name : String) : Prop where
  nonempty : name ≠ ""
  trimmed : trim name = name
  comma : ',' ∉ name.toList
  parenthesis : ')' ∉ name.toList

/-- The reason as it follows the list of rules. -/
def reasonText (reason : Option String) : String :=
  match reason with
  | some text => " reason=\"" ++ text ++ "\""
  | none => ""

/-- A directive that allows some rules, with a reason or without. -/
def text (names : List String) (reason : Option String) : String :=
  "apilint: allow(" ++ join ", " names ++ ")" ++ reasonText reason

/-- A directive in a comment up to the end of the line. -/
def lineComment (names : List String) (reason : Option String) : String :=
  "// " ++ text names reason

/-! ## Lists of rules -/

theorem IsRuleName.trimBoth_eq {name : String} (h : IsRuleName name) :
    trimBoth name.toList = name.toList := by
  have htrimmed := congrArg String.toList h.trimmed
  rwa [trim, String.toList_ofList] at htrimmed

theorem toList_join (names : List String) :
    (join ", " names).toList = [',', ' '].intercalate (names.map String.toList) := by
  rw [join, String.toList_intercalate]
  rfl

/-- Names that are listed are read back in their order. -/
theorem rulesOf_join {names : List String} (hnames : names ≠ [])
    (h : ∀ name ∈ names, IsRuleName name) : rulesOf (join ", " names).toList = names := by
  have hpieces : (splitOn ',' (join ", " names).toList).map trimBoth = names.map String.toList := by
    rw [toList_join,
      map_trimBoth_splitOn_intercalate (by decide) (by decide) (by simpa using hnames)]
    · rw [List.map_map]
      exact List.map_congr_left fun name hname => (h name hname).trimBoth_eq
    · exact List.forall_mem_map.2 fun name hname => (h name hname).comma
  have hfilter : (names.map String.toList).filter (!·.isEmpty) = names.map String.toList := by
    refine List.filter_eq_self.2 (List.forall_mem_map.2 fun name hname => ?_)
    have hne : name.toList ≠ [] := by simpa using (h name hname).nonempty
    simpa using hne
  rw [rulesOf, hpieces, hfilter, List.map_map]
  exact List.map_id'' (fun name => String.ofList_toList) names

/-- No parenthesis stands in a list of names. -/
theorem parenthesis_notMem_join {names : List String} (h : ∀ name ∈ names, IsRuleName name) :
    ')' ∉ (join ", " names).toList := by
  rw [toList_join]
  refine notMem_intercalate (by decide) (List.forall_mem_map.2 fun name hname => ?_)
  exact (h name hname).parenthesis

/-! ## Reasons -/

theorem getLast?_quoted (cs : List Char) : ('"' :: (cs ++ ['"'])).getLast? = some '"' := by
  rw [← List.cons_append, List.getLast?_concat]

theorem trimBoth_quoted (cs : List Char) :
    trimBoth ('"' :: (cs ++ ['"'])) = '"' :: (cs ++ ['"']) := by
  refine trimBoth_eq_self (fun c hc => ?_) fun c hc => ?_
  · obtain rfl : '"' = c := by simpa using hc
    decide
  · obtain rfl : '"' = c := by simpa [getLast?_quoted] using hc
    decide

/-- A reason is read back. -/
theorem reasonOf_reasonText {reason : Option String} (h : ∀ text ∈ reason, '"' ∉ text.toList) :
    reasonOf (reasonText reason).toList = reason := by
  cases reason with
  | none => rfl
  | some text =>
    have hquote : '"' ∉ text.toList := h text rfl
    have hwritten : (reasonText (some text)).toList =
        ' ' :: ("reason=".toList ++ ('"' :: (text.toList ++ ['"']))) := by
      simp [reasonText]
    have htrim : trimBoth (reasonText (some text)).toList =
        "reason=".toList ++ ('"' :: (text.toList ++ ['"'])) := by
      rw [hwritten, trimBoth_cons (by decide)]
      refine trimBoth_eq_self (fun c hc => ?_) fun c hc => ?_
      · obtain rfl : 'r' = c := by simpa using hc
        decide
      · rw [List.getLast?_append, getLast?_quoted] at hc
        obtain rfl : '"' = c := by simpa using hc
        decide
    rw [reasonOf, htrim, dropPrefix?_append]
    simp only [trimBoth_quoted]
    rw [if_pos (by simp), takeWhile_append_of_notMem hquote, String.ofList_toList]

/-- The character that a directive ends with: a parenthesis, or the quotation mark of its reason. -/
def lastMark (reason : Option String) : Char :=
  match reason with
  | some _ => '"'
  | none => ')'

theorem isBlank_lastMark (reason : Option String) : isBlank (lastMark reason) = false := by
  rcases reason with _ | _
  · exact (by decide : isBlank ')' = false)
  · exact (by decide : isBlank '"' = false)

theorem getLast?_reasonText (list : List Char) (reason : Option String) :
    (list ++ ')' :: (reasonText reason).toList).getLast? = some (lastMark reason) := by
  cases reason with
  | none => simp [reasonText, lastMark]
  | some text =>
    have hwritten : list ++ ')' :: (reasonText (some text)).toList =
        (list ++ ')' :: (" reason=\"".toList ++ text.toList)) ++ ['"'] := by
      simp [reasonText]
    rw [hwritten, List.getLast?_concat, lastMark]

/-- Nothing is taken off a directive that is written without blanks around it. -/
theorem trimBoth_directive {c : Char} (hc : isBlank c = false) (list : List Char)
    (reason : Option String) :
    trimBoth (c :: (list ++ ')' :: (reasonText reason).toList)) =
      c :: (list ++ ')' :: (reasonText reason).toList) := by
  refine trimBoth_eq_self (fun first hfirst => ?_) fun last hlast => ?_
  · obtain rfl : c = first := by simpa using hfirst
    exact hc
  · rw [← List.cons_append, getLast?_reasonText] at hlast
    obtain rfl : lastMark reason = last := by simpa using hlast
    exact isBlank_lastMark reason

/-! ## Comments -/

theorem toList_text (names : List String) (reason : Option String) :
    (text names reason).toList = "apilint:".toList ++ (' ' :: ("allow(".toList ++
      ((join ", " names).toList ++ ')' :: (reasonText reason).toList))) := by
  delta text
  simp

/-- The directive that is all of a comment is found in it. -/
theorem parse_of_commentText? {names : List String} {reason : Option String}
    (hnames : names ≠ []) (h : ∀ name ∈ names, IsRuleName name)
    (hreason : ∀ text ∈ reason, '"' ∉ text.toList) {line comment : List Char}
    (hcomment : commentText? line = some comment)
    (hstrip : stripComment comment = (text names reason).toList) :
    parse line = some { rules := names, reason } := by
  have htrim : trimBoth (' ' :: ("allow(".toList ++
      ((join ", " names).toList ++ ')' :: (reasonText reason).toList))) =
      "allow(".toList ++ ((join ", " names).toList ++ ')' :: (reasonText reason).toList) := by
    rw [trimBoth_cons (by decide)]
    exact trimBoth_directive (by decide) ("llow(".toList ++ (join ", " names).toList) reason
  have hlist : ((join ", " names).toList ++ ')' :: (reasonText reason).toList).takeWhile
      (· != ')') = (join ", " names).toList :=
    takeWhile_append_of_notMem (parenthesis_notMem_join h) _
  have hrest : ((join ", " names).toList ++ ')' :: (reasonText reason).toList).drop
      ((join ", " names).toList.length + 1) = (reasonText reason).toList := by
    rw [List.drop_append, List.drop_eq_nil_of_le (by omega)]
    simp
  have hnonempty : names.isEmpty = false := by simpa using hnames
  simp only [parse, hcomment, Option.bind_eq_bind, Option.bind_some, hstrip, toList_text,
    dropPrefix?_append, htrim, hlist, hrest, rulesOf_join hnames h, reasonOf_reasonText hreason,
    hnonempty]
  simp

/-- A comment up to the end of the line that is a directive is stripped down to it. -/
theorem stripComment_lineComment {lead : List Char} (hlead : lead = [] ∨ lead = ['/'])
    (names : List String) (reason : Option String) :
    stripComment (lead ++ ' ' :: (text names reason).toList) = (text names reason).toList := by
  have hslashes : (lead ++ ' ' :: (text names reason).toList).dropWhile
      (fun c => c == '/' || c == '*') = ' ' :: (text names reason).toList := by
    rcases hlead with rfl | rfl <;> simp
  have htrim : trimBoth (text names reason).toList = (text names reason).toList := by
    rw [toList_text]
    exact trimBoth_directive (by decide)
      ("pilint:".toList ++ (' ' :: ("allow(".toList ++ (join ", " names).toList))) reason
  have hend : dropSuffix? ['*', '/'] (text names reason).toList = none := by
    refine dropSuffix?_of_getLast?_ne (by decide) ?_
    have hlast : (text names reason).toList.getLast? = some (lastMark reason) := by
      rw [toList_text]
      exact getLast?_reasonText
        ("apilint:".toList ++ (' ' :: ("allow(".toList ++ (join ", " names).toList))) reason
    rw [hlast]
    cases reason <;> simp [lastMark]
  rw [stripComment, hslashes, trimBoth_cons (by decide), htrim]
  simp only [hend, Option.getD_none, htrim]

/-- A line that has a directive in a comment at its end reads back: it allows the rules that are
listed, for the reason that is written.  The text before the comment may end with a slash, and a
mark that opens a block comment in it makes no difference. -/
theorem parse_lineComment {before : List Char} {names : List String} {reason : Option String}
    (plain : ¬ ['/', '/'] <:+: before) (named : names ≠ [])
    (proper : ∀ name ∈ names, IsRuleName name) (quotable : ∀ text ∈ reason, '"' ∉ text.toList) :
    parse (before ++ (lineComment names reason).toList) = some { rules := names, reason } := by
  obtain ⟨upTo, lead, hcut, hlead⟩ := cutAt_doubled plain (' ' :: (text names reason).toList)
  have hwritten : (lineComment names reason).toList =
      '/' :: '/' :: ' ' :: (text names reason).toList := by
    simp [lineComment]
  have hcomment : commentText? (before ++ (lineComment names reason).toList) =
      some (lead ++ ' ' :: (text names reason).toList) := by
    rw [commentText?, hwritten, hcut]
  exact parse_of_commentText? named proper quotable hcomment
    (stripComment_lineComment hlead names reason)

/-- Code that ends with a slash, a name with a blank in it and a reason with all kinds of marks. -/
theorem parse_lineComment_behind_slash :
    let before := "int x = 6 /".toList
    let names := ["AP004", "a rule"]
    let reason := some "legacy (see // and */)"
    (¬ ['/', '/'] <:+: before ∧ names ≠ [] ∧ (∀ name ∈ names, IsRuleName name) ∧
      ∀ text ∈ reason, '"' ∉ text.toList) ∧
    parse (before ++ (lineComment names reason).toList) = some { rules := names, reason } := by
  have plain : ¬ ['/', '/'] <:+: "int x = 6 /".toList := by decide +kernel
  have proper : ∀ name ∈ ["AP004", "a rule"], IsRuleName name := by
    intro name hname
    simp only [List.mem_cons, List.not_mem_nil, or_false] at hname
    rcases hname with rfl | rfl
    · exact ⟨by decide, by decide +kernel, by decide +kernel, by decide +kernel⟩
    · exact ⟨by decide, by decide +kernel, by decide +kernel, by decide +kernel⟩
  have quotable : ∀ text ∈ some "legacy (see // and */)", '"' ∉ text.toList := by
    rintro _ ⟨⟩
    decide +kernel
  have named : ["AP004", "a rule"] ≠ [] := List.cons_ne_nil _ _
  exact ⟨⟨plain, named, proper, quotable⟩, parse_lineComment plain named proper quotable⟩

end SdkLint.Directive
