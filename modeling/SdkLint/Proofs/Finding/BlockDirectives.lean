import SdkLint.Proofs.Finding.WrittenDirectives
import SdkLint.Proofs.Text.Occurrences

/-!
# Directives in block comments

A block comment that is written to allow some rules, behind any code that has no comment itself,
reads back as it is written as long as no two slashes stand next to each other in its reason.  Two
slashes there, as every address of a page has them, are taken for the beginning of the comment,
unless a slash stands right before the block comment.  What is read behind them never has a reason.

Main definition:

- `Directive.blockComment`: a directive in a comment that ends on its line.

Main results:

- Theorem `Directive.stripComment_blockComment`: the marks around the directive are taken off.
- Theorem `Directive.slashes_infix_text_iff`: only a reason can hold two slashes.
- Theorem `Directive.reason_eq_none_of_parse`: a comment with a single quotation mark has no reason.
- Theorem `Directive.parse_blockComment_iff`: when a block comment reads back.
-/

namespace SdkLint.Directive

open Text

/-- A directive in a comment that ends on its line. -/
def blockComment (names : List String) (reason : Option String) : String :=
  "/* " ++ text names reason ++ " */"

variable {names : List String} {reason : Option String}

theorem toList_blockComment (names : List String) (reason : Option String) :
    (blockComment names reason).toList =
      '/' :: '*' :: ' ' :: ((text names reason).toList ++ [' ', '*', '/']) := by
  simp [blockComment]

/-! ## The marks of the comment -/

theorem head?_text (names : List String) (reason : Option String) :
    (text names reason).toList.head? = some 'a' := by
  rw [toList_text]
  rfl

theorem getLast?_text (names : List String) (reason : Option String) :
    (text names reason).toList.getLast? = some (lastMark reason) := by
  rw [toList_text]
  exact getLast?_reasonText
    ("apilint:".toList ++ (' ' :: ("allow(".toList ++ (join ", " names).toList))) reason

/-- The marks around a directive in a block comment are taken off. -/
theorem stripComment_blockComment {lead : List Char} (hlead : lead = [] ∨ lead = ['*'])
    (names : List String) (reason : Option String) :
    stripComment (lead ++ ' ' :: ((text names reason).toList ++ [' ', '*', '/'])) =
      (text names reason).toList := by
  have hmarks : (lead ++ ' ' :: ((text names reason).toList ++ [' ', '*', '/'])).dropWhile
      (fun c => c == '/' || c == '*') = ' ' :: ((text names reason).toList ++ [' ', '*', '/']) := by
    rcases hlead with rfl | rfl <;> simp
  have hinner : trimBoth (' ' :: ((text names reason).toList ++ [' ', '*', '/'])) =
      (text names reason).toList ++ [' '] ++ ['*', '/'] := by
    rw [trimBoth_cons (by decide), List.append_assoc]
    refine trimBoth_eq_self (fun c hc => ?_) fun c hc => ?_
    · rw [List.head?_append, head?_text] at hc
      obtain rfl : 'a' = c := by simpa using hc
      decide
    · obtain rfl : '/' = c := by simpa using hc
      decide
  have htext : trimBoth ((text names reason).toList ++ [' ']) = (text names reason).toList := by
    rw [trimBoth_concat (by decide)]
    refine trimBoth_eq_self (fun c hc => ?_) fun c hc => ?_
    · obtain rfl : 'a' = c := by simpa [head?_text] using hc
      decide
    · obtain rfl : lastMark reason = c := by simpa [getLast?_text] using hc
      exact isBlank_lastMark reason
  rw [stripComment, hmarks, hinner]
  simp only [dropSuffix?_append, Option.getD_some, htext]

/-! ## Slashes in a directive -/

/-- What stands before the reason of a directive has no slash. -/
theorem text_eq_append (h : ∀ name ∈ names, '/' ∉ name.toList) (reason : Option String) :
    ∃ front, (text names reason).toList = front ++ (reasonText reason).toList ∧ '/' ∉ front ∧
      front.getLast? = some ')' := by
  have hjoin : '/' ∉ (join ", " names).toList := by
    rw [toList_join]
    exact notMem_intercalate (by decide) (List.forall_mem_map.2 h)
  refine ⟨("apilint:".toList ++ (' ' :: ("allow(".toList ++ (join ", " names).toList))) ++ [')'],
    ?_, ?_, List.getLast?_concat⟩
  · rw [toList_text]
    simp only [List.append_assoc, List.cons_append, List.nil_append]
  · simp only [List.mem_append, List.mem_cons, hjoin]
    decide

theorem toList_reasonText_some (given : String) :
    (reasonText (some given)).toList = " reason=\"".toList ++ (given.toList ++ ['"']) := by
  simp [reasonText]

/-- Of a directive only the reason can hold two slashes next to each other. -/
theorem slashes_infix_text_iff (h : ∀ name ∈ names, '/' ∉ name.toList) :
    ['/', '/'] <:+: (text names reason).toList ↔
      ∃ given ∈ reason, ['/', '/'] <:+: given.toList := by
  obtain ⟨front, htext, hslash, hlast⟩ := text_eq_append h reason
  have hfront : ¬ ['/', '/'] <:+: front := not_pair_infix_of_notMem hslash
  rw [htext, pair_infix_append_iff, hlast]
  cases reason with
  | none => simp [hfront, reasonText]
  | some given =>
    have hopen : ¬ ['/', '/'] <:+: " reason=\"".toList := not_pair_infix_of_notMem (by decide)
    have hquote : " reason=\"".toList.getLast? = some '"' := by decide
    have hclose : ¬ ['/', '/'] <:+: ['"'] := not_pair_infix_of_notMem (by decide)
    rw [toList_reasonText_some, pair_infix_append_iff, pair_infix_append_iff, hquote]
    generalize " reason=\"".toList = opening at hopen
    simp [hfront, hopen, hclose]

/-! ## Comments without a reason -/

/-- A reason stands between two quotation marks. -/
theorem two_le_count_of_reasonOf {rest : List Char} {given : String}
    (h : reasonOf rest = some given) : 2 ≤ rest.count '"' := by
  rw [reasonOf] at h
  split at h
  · cases h
  · rename_i value hvalue
    split at h
    · rename_i quoted hquoted
      split at h
      · rename_i hclosed
        have hmem : '"' ∈ quoted := List.contains_iff_mem.1 hclosed
        calc
          2 ≤ ('"' :: quoted).count '"' := by
            have hpos := List.count_pos_iff.2 hmem
            rw [List.count_cons_self]
            omega
          _ = (trimBoth value).count '"' := by rw [hquoted]
          _ ≤ value.count '"' := (trimBoth_sublist value).count_le _
          _ ≤ (trimBoth rest).count '"' := by
            rw [eq_append_of_dropPrefix? hvalue]
            exact (List.sublist_append_right _ _).count_le _
          _ ≤ rest.count '"' := (trimBoth_sublist rest).count_le _
      · cases h
    · cases h

theorem stripComment_sublist (comment : List Char) : (stripComment comment).Sublist comment := by
  have hinner : (trimBoth (comment.dropWhile fun c => c == '/' || c == '*')).Sublist comment :=
    (trimBoth_sublist _).trans (List.dropWhile_sublist _)
  rw [stripComment]
  generalize trimBoth (comment.dropWhile fun c => c == '/' || c == '*') = opened at hinner ⊢
  refine (trimBoth_sublist _).trans (List.Sublist.trans ?_ hinner)
  cases hend : dropSuffix? ['*', '/'] opened with
  | none => exact .refl _
  | some inner =>
    rw [eq_append_of_dropSuffix? hend]
    exact List.sublist_append_left _ _

/-- The reason of a directive is read from a part of its comment. -/
theorem exists_reasonOf_of_parse {line : List Char} {d : Directive} (h : parse line = some d) :
    ∃ comment, commentText? line = some comment ∧
      ∃ rest, rest.Sublist comment ∧ d.reason = reasonOf rest := by
  rw [parse] at h
  obtain ⟨comment, hcomment, h⟩ := Option.bind_eq_some_iff.1 h
  obtain ⟨directive, hdirective, h⟩ := Option.bind_eq_some_iff.1 h
  obtain ⟨content, hcontent, h⟩ := Option.bind_eq_some_iff.1 h
  have hinner : directive.Sublist comment :=
    (sublist_of_dropPrefix? hdirective).trans (stripComment_sublist comment)
  have hsublist : content.Sublist comment :=
    (sublist_of_dropPrefix? hcontent).trans ((trimBoth_sublist directive).trans hinner)
  refine ⟨comment, hcomment, content.drop ((content.takeWhile (· != ')')).length + 1),
    (List.drop_sublist _ content).trans hsublist, ?_⟩
  dsimp only at h
  split at h
  · split at h
    · cases h
    · rw [← Option.some.inj h]
  · cases h

/-- No reason is read from a comment with a single quotation mark. -/
theorem reason_eq_none_of_parse {line comment : List Char} {d : Directive}
    (hcomment : commentText? line = some comment) (hcount : comment.count '"' < 2)
    (h : parse line = some d) : d.reason = none := by
  obtain ⟨comment', hcomment', rest, hrest, hreason⟩ := exists_reasonOf_of_parse h
  obtain rfl : comment = comment' := Option.some.inj (hcomment.symm.trans hcomment')
  rw [hreason, Option.eq_none_iff_forall_ne_some]
  intro given hgiven
  have htwo := two_le_count_of_reasonOf hgiven
  have hle := hrest.count_le '"'
  omega

/-! ## Reading back -/

/-- Two slashes neither stand next to each other before a comment nor at its mark. -/
theorem not_slashes_infix_opened {before rest : List Char} (plain : ¬ ['/', '/'] <:+: before)
    (hlast : before.getLast? ≠ some '/') (hrest : ¬ ['/', '/'] <:+: rest) :
    ¬ ['/', '/'] <:+: before ++ '/' :: '*' :: rest := by
  simp [pair_infix_append_iff, List.infix_cons_iff, List.cons_prefix_cons, plain, hlast, hrest]

/-- A block comment behind a slash is taken for a comment up to the end of the line. -/
theorem commentText?_of_slash {before : List Char} (plain : ¬ ['/', '/'] <:+: before)
    (hlast : before.getLast? = some '/') (rest : List Char) :
    commentText? (before ++ '/' :: '*' :: rest) = some ('*' :: rest) := by
  obtain ⟨front, rfl⟩ := List.getLast?_eq_some_iff.1 hlast
  rw [pair_infix_append_iff] at plain
  have hcut : cutAt ['/', '/'] (front ++ ['/'] ++ '/' :: '*' :: rest) =
      some (front, '*' :: rest) := by
    rw [List.append_assoc, List.singleton_append, cutAt_pair_append]
    · simp [cutAt, dropPrefix?]
    · exact fun hfront => plain (.inl hfront)
    · exact fun hboth => plain (.inr (.inr ⟨hboth.1, rfl⟩))
  rw [commentText?, hcut]

/-- A block comment is found if no two slashes stand in its line. -/
theorem commentText?_of_not_slashes {before : List Char} (unopened : ¬ ['/', '*'] <:+: before)
    {rest : List Char} (h : ¬ ['/', '/'] <:+: before ++ '/' :: '*' :: rest) :
    commentText? (before ++ '/' :: '*' :: rest) = some rest := by
  have hslashes : cutAt ['/', '/'] (before ++ '/' :: '*' :: rest) = none := by
    rwa [← Option.not_isSome_iff_eq_none, isSome_cutAt_iff]
  have hblock : cutAt ['/', '*'] (before ++ '/' :: '*' :: rest) = some (before, rest) := by
    rw [cutAt_pair_append unopened (by simp)]
    simp [cutAt, dropPrefix?]
  simp only [commentText?, hslashes, hblock, Option.map_some]

/-- Two slashes in the reason of a directive hide what stands before them. -/
theorem commentText?_of_slashes {before : List Char} (plain : ¬ ['/', '/'] <:+: before)
    (hlast : before.getLast? ≠ some '/') (unslashed : ∀ name ∈ names, '/' ∉ name.toList)
    {given : String} (hgiven : ['/', '/'] <:+: given.toList) :
    ∃ hidden rest, given.toList = hidden ++ '/' :: '/' :: rest ∧
      commentText? (before ++ (blockComment names (some given)).toList) =
        some (rest ++ '"' :: " */".toList) := by
  obtain ⟨front, htext, hslash, -⟩ := text_eq_append unslashed (some given)
  obtain ⟨⟨hidden, rest⟩, hcut⟩ := Option.isSome_iff_exists.1 (isSome_cutAt_iff.2 hgiven)
  -- The line up to the reason, which ends with a quotation mark.
  have hopen : '/' ∉ ' ' :: (front ++ " reason=\"".toList) := by
    simp only [List.mem_cons, List.mem_append, hslash]
    decide
  have hquote : (before ++ '/' :: '*' :: ' ' :: (front ++ " reason=\"".toList)).getLast? =
      some '"' := by
    have hmark : " reason=\"".toList = " reason=".toList ++ ['"'] := by decide
    simp only [hmark, ← List.append_assoc, ← List.cons_append, List.getLast?_concat]
  have hline : before ++ (blockComment names (some given)).toList =
      (before ++ '/' :: '*' :: ' ' :: (front ++ " reason=\"".toList)) ++
        (given.toList ++ '"' :: " */".toList) := by
    rw [toList_blockComment, htext, toList_reasonText_some]
    simp only [List.append_assoc, List.cons_append, List.nil_append]
    rfl
  refine ⟨hidden, rest, eq_append_of_cutAt hcut, ?_⟩
  rw [hline, commentText?, cutAt_pair_append, cutAt_append_of_some hcut]
  · rfl
  · exact not_slashes_infix_opened plain hlast (not_pair_infix_of_notMem hopen)
  · rw [hquote]
    exact fun hboth => absurd hboth.1 (by decide)

/-- A line with a directive in a block comment at its end reads back unless two slashes stand next
to each other in the reason, and even then if the code before the comment ends with a slash. -/
theorem parse_blockComment_iff {before : List Char} (plain : ¬ ['/', '/'] <:+: before)
    (unopened : ¬ ['/', '*'] <:+: before) (named : names ≠ [])
    (proper : ∀ name ∈ names, IsRuleName name) (unslashed : ∀ name ∈ names, '/' ∉ name.toList)
    (quotable : ∀ given ∈ reason, '"' ∉ given.toList) :
    parse (before ++ (blockComment names reason).toList) = some { rules := names, reason } ↔
      before.getLast? = some '/' ∨ ∀ given ∈ reason, ¬ ['/', '/'] <:+: given.toList := by
  have hread {lead : List Char} (hlead : lead = [] ∨ lead = ['*'])
      (hcomment : commentText? (before ++ (blockComment names reason).toList) =
        some (lead ++ ' ' :: ((text names reason).toList ++ [' ', '*', '/']))) :
      parse (before ++ (blockComment names reason).toList) = some { rules := names, reason } :=
    parse_of_commentText? named proper quotable hcomment
      (stripComment_blockComment hlead names reason)
  by_cases hlast : before.getLast? = some '/'
  · refine iff_of_true (hread (.inr rfl) ?_) (.inl hlast)
    rw [toList_blockComment]
    exact commentText?_of_slash plain hlast _
  by_cases hslashes : ∃ given ∈ reason, ['/', '/'] <:+: given.toList
  · obtain ⟨given, rfl, hgiven⟩ := hslashes
    refine iff_of_false (fun hparse => ?_) fun h => ?_
    · -- Behind the slashes only the mark at the end of the reason is left.
      obtain ⟨hidden, rest, hsplit, hcomment⟩ :=
        commentText?_of_slashes plain hlast unslashed hgiven
      have hrest : '"' ∉ rest := by
        intro hmem
        exact quotable given rfl (hsplit ▸ by simp [hmem])
      have hcount : (rest ++ '"' :: " */".toList).count '"' < 2 := by
        rw [List.count_append, List.count_eq_zero_of_not_mem hrest]
        decide
      cases reason_eq_none_of_parse hcomment hcount hparse
    · exact h.elim hlast fun h => h given rfl hgiven
  · have hnone : ∀ given ∈ reason, ¬ ['/', '/'] <:+: given.toList :=
      fun given hgiven hinside => hslashes ⟨given, hgiven, hinside⟩
    refine iff_of_true (hread (.inl rfl) ?_) (.inr hnone)
    have htext : ¬ ['/', '/'] <:+: (text names reason).toList := by
      rw [slashes_infix_text_iff unslashed]
      rintro ⟨given, hgiven, hinside⟩
      exact hnone given hgiven hinside
    have hend : ¬ ['/', '/'] <:+: ' ' :: ((text names reason).toList ++ [' ', '*', '/']) := by
      simp [List.infix_cons_iff, List.cons_prefix_cons, pair_infix_append_iff, htext]
    rw [toList_blockComment]
    exact commentText?_of_not_slashes unopened (not_slashes_infix_opened plain hlast hend)

/-- A reason with an address is read back behind a slash and not behind a blank. -/
theorem parse_blockComment_with_address :
    let names := ["AP001", "a rule"]
    let reason := some "see https://example.com/a (b)"
    (names ≠ [] ∧ (∀ name ∈ names, IsRuleName name) ∧ (∀ name ∈ names, '/' ∉ name.toList) ∧
      ∀ given ∈ reason, '"' ∉ given.toList) ∧
    (¬ ['/', '/'] <:+: "int x; ".toList ∧ ¬ ['/', '*'] <:+: "int x; ".toList ∧
      parse ("int x; ".toList ++ (blockComment names reason).toList) ≠
        some { rules := names, reason }) ∧
    ¬ ['/', '/'] <:+: "x = 6 /".toList ∧ ¬ ['/', '*'] <:+: "x = 6 /".toList ∧
      parse ("x = 6 /".toList ++ (blockComment names reason).toList) =
        some { rules := names, reason } := by
  have named : ["AP001", "a rule"] ≠ [] := List.cons_ne_nil _ _
  have proper : ∀ name ∈ ["AP001", "a rule"], IsRuleName name := by
    intro name hname
    simp only [List.mem_cons, List.not_mem_nil, or_false] at hname
    rcases hname with rfl | rfl
    · exact ⟨by decide, by decide +kernel, by decide +kernel, by decide +kernel⟩
    · exact ⟨by decide, by decide +kernel, by decide +kernel, by decide +kernel⟩
  have unslashed : ∀ name ∈ ["AP001", "a rule"], '/' ∉ name.toList := by decide +kernel
  have quotable : ∀ given ∈ some "see https://example.com/a (b)", '"' ∉ given.toList := by
    rintro _ ⟨⟩
    decide +kernel
  have plain : ¬ ['/', '/'] <:+: "int x; ".toList := by decide +kernel
  have unopened : ¬ ['/', '*'] <:+: "int x; ".toList := by decide +kernel
  have plain' : ¬ ['/', '/'] <:+: "x = 6 /".toList := by decide +kernel
  have unopened' : ¬ ['/', '*'] <:+: "x = 6 /".toList := by decide +kernel
  refine ⟨⟨named, proper, unslashed, quotable⟩, ⟨plain, unopened, ?_⟩, plain', unopened', ?_⟩
  · intro hparse
    rcases (parse_blockComment_iff plain unopened named proper unslashed quotable).1 hparse with
      hlast | hnone
    · exact absurd hlast (by decide)
    · exact absurd (hnone _ rfl) (by decide +kernel)
  · exact (parse_blockComment_iff plain' unopened' named proper unslashed quotable).2
      (.inl (by decide))

end SdkLint.Directive
