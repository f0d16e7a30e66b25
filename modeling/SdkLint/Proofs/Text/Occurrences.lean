import SdkLint.Proofs.Text.Cuts

/-!
# Where a pattern occurs

Cutting a text at a pattern succeeds exactly if the pattern occurs in it, and then at its first
occurrence: what stands behind the text makes no difference to an occurrence inside it, and what
stands before it is passed over if the pattern neither occurs there nor at the joint.

Main results:

- Theorem `isSome_cutAt_iff`: a pattern is found exactly if it occurs.
- Theorem `cutAt_append_of_some`: what follows a text leaves an occurrence in it where it is.
- Theorem `pair_infix_append_iff`: two characters occur next to each other on one side of a joint,
  on the other, or at it.
- Theorem `cutAt_pair_append`: what stands before a joint is passed over.
- Theorem `cutAt_of_notMem`: so is what stands before the first character of a pattern.
-/

namespace SdkLint.Text

/-! ## Occurrences -/

section Occurrences

variable {pattern cs before after : List Char}

theorem dropPrefix?_append_of_some {rest : List Char} (h : dropPrefix? pattern cs = some rest)
    (more : List Char) : dropPrefix? pattern (cs ++ more) = some (rest ++ more) := by
  rw [eq_append_of_dropPrefix? h, List.append_assoc, dropPrefix?_append]

theorem sublist_of_dropPrefix? {rest : List Char} (h : dropPrefix? pattern cs = some rest) :
    rest.Sublist cs := by
  rw [eq_append_of_dropPrefix? h]
  exact List.sublist_append_right pattern rest

theorem eq_append_of_cutAt (h : cutAt pattern cs = some (before, after)) :
    cs = before ++ (pattern ++ after) := by
  induction cs generalizing before with
  | nil =>
    rw [cutAt] at h
    split at h
    · rename_i hempty
      obtain ⟨rfl, rfl⟩ := Prod.mk.inj (Option.some.inj h)
      simp [List.isEmpty_iff.1 hempty]
    · cases h
  | cons c cs ih =>
    rw [cutAt] at h
    split at h
    · rename_i rest hdrop
      obtain ⟨rfl, rfl⟩ := Prod.mk.inj (Option.some.inj h)
      rw [List.nil_append]
      exact eq_append_of_dropPrefix? hdrop
    · obtain ⟨⟨first, rest⟩, hcut, heq⟩ := Option.map_eq_some_iff.1 h
      obtain ⟨rfl, rfl⟩ := Prod.mk.inj heq
      rw [ih hcut, List.cons_append]

/-- A pattern is found exactly if it occurs. -/
theorem isSome_cutAt_iff : (cutAt pattern cs).isSome = true ↔ pattern <:+: cs := by
  constructor
  · intro h
    obtain ⟨⟨before, after⟩, hcut⟩ := Option.isSome_iff_exists.1 h
    refine ⟨before, after, ?_⟩
    rw [List.append_assoc]
    exact (eq_append_of_cutAt hcut).symm
  · intro h
    induction cs with
    | nil =>
      rw [List.infix_nil.1 h]
      rfl
    | cons c cs ih =>
      rw [cutAt]
      split
      · rfl
      · rename_i hdrop
        rcases List.infix_cons_iff.1 h with ⟨rest, hrest⟩ | hlater
        · rw [← hrest, dropPrefix?_append] at hdrop
          cases hdrop
        · rw [Option.isSome_map]
          exact ih hlater

/-- What follows a text leaves an occurrence in it where it is. -/
theorem cutAt_append_of_some (h : cutAt pattern cs = some (before, after)) (more : List Char) :
    cutAt pattern (cs ++ more) = some (before, after ++ more) := by
  induction cs generalizing before with
  | nil =>
    rw [cutAt] at h
    split at h
    · rename_i hempty
      obtain ⟨rfl, rfl⟩ := Prod.mk.inj (Option.some.inj h)
      rw [List.isEmpty_iff.1 hempty, List.nil_append]
      cases more with
      | nil => rfl
      | cons c more => rfl
    · cases h
  | cons c cs ih =>
    rw [cutAt] at h
    split at h
    · rename_i rest hdrop
      obtain ⟨rfl, rfl⟩ := Prod.mk.inj (Option.some.inj h)
      have hmore := dropPrefix?_append_of_some hdrop more
      rw [List.cons_append] at hmore
      rw [List.cons_append, cutAt, hmore]
    · rename_i hdrop
      obtain ⟨⟨first, rest⟩, hcut, heq⟩ := Option.map_eq_some_iff.1 h
      obtain ⟨rfl, rfl⟩ := Prod.mk.inj heq
      -- The pattern cannot reach from the first character into what follows the text.
      have hnone : dropPrefix? pattern (c :: (cs ++ more)) = none := by
        cases hreach : dropPrefix? pattern (c :: (cs ++ more)) with
        | none => rfl
        | some behind =>
          have hstarts : pattern <+: c :: cs := by
            have hwhole : pattern <+: (c :: cs) ++ more :=
              ⟨behind, (eq_append_of_dropPrefix? hreach).symm⟩
            refine List.prefix_of_prefix_length_le hwhole (List.prefix_append _ _) ?_
            have hlength := congrArg List.length (eq_append_of_cutAt hcut)
            simp only [List.length_append] at hlength
            simp only [List.length_cons]
            omega
          obtain ⟨behind', hbehind⟩ := hstarts
          rw [← hbehind, dropPrefix?_append] at hdrop
          cases hdrop
      rw [List.cons_append, cutAt, hnone]
      simp only [ih hcut, Option.map_some]

end Occurrences

/-! ## Pairs of characters -/

section Pairs

variable {a b : Char}

/-- Two characters occur next to each other on one side of a joint, on the other, or at it. -/
theorem pair_infix_append_iff {before rest : List Char} :
    [a, b] <:+: before ++ rest ↔ [a, b] <:+: before ∨ [a, b] <:+: rest ∨
      before.getLast? = some a ∧ rest.head? = some b := by
  induction before with
  | nil => simp
  | cons c before ih =>
    rw [List.cons_append, List.infix_cons_iff, List.infix_cons_iff, ih]
    cases before with
    | nil =>
      cases rest with
      | nil => simp
      | cons d rest =>
        simp [List.cons_prefix_cons, or_comm, eq_comm (a := a), eq_comm (a := b)]
    | cons d before => simp [List.cons_prefix_cons, or_assoc]

theorem not_pair_infix_of_notMem {cs : List Char} (h : a ∉ cs) : ¬ [a, b] <:+: cs :=
  fun hinside => h (hinside.subset List.mem_cons_self)

/-- What stands before a joint is passed over if two characters neither occur next to each other
there nor at the joint. -/
theorem cutAt_pair_append {before : List Char} (h : ¬ [a, b] <:+: before) {rest : List Char}
    (joint : ¬ (before.getLast? = some a ∧ rest.head? = some b)) :
    cutAt [a, b] (before ++ rest) =
      (cutAt [a, b] rest).map fun (first, after) => (before ++ first, after) := by
  induction before with
  | nil => simp
  | cons c before ih =>
    have hrest : ¬ [a, b] <:+: before := fun hinside => h (List.infix_cons hinside)
    have hnone : dropPrefix? [a, b] (c :: (before ++ rest)) = none := by
      cases hdrop : dropPrefix? [a, b] (c :: (before ++ rest)) with
      | none => rfl
      | some after =>
        have hpair : c :: (before ++ rest) = [a, b] ++ after := eq_append_of_dropPrefix? hdrop
        cases before with
        | nil =>
          obtain ⟨rfl, rfl⟩ : c = a ∧ rest = b :: after := by simpa using hpair
          exact absurd ⟨rfl, rfl⟩ joint
        | cons d before =>
          obtain ⟨rfl, rfl, -⟩ : c = a ∧ d = b ∧ before ++ rest = after := by simpa using hpair
          exact absurd (List.prefix_append [c, d] before).isInfix h
    have hjoint : ¬ (before.getLast? = some a ∧ rest.head? = some b) := by
      intro hboth
      cases before with
      | nil => cases hboth.1
      | cons d before => exact joint hboth
    rw [List.cons_append, cutAt, hnone]
    simp only [ih hrest hjoint, Option.map_map]
    rfl

end Pairs

/-! ## Replacement -/

section Replacement

variable {pattern replacement cs : List Char}

/-- What stands before the only place where a pattern can begin is passed over. -/
theorem cutAt_of_notMem {p : Char} {before : List Char} (h : p ∉ before)
    (rest : List Char) : cutAt (p :: pattern) (before ++ (p :: pattern ++ rest)) =
      some (before, rest) := by
  induction before with
  | nil =>
    have hdrop : dropPrefix? (p :: pattern) (p :: (pattern ++ rest)) = some rest :=
      dropPrefix?_append (p :: pattern) rest
    rw [List.nil_append, List.cons_append, cutAt, hdrop]
  | cons c before ih =>
    obtain ⟨hc, hbefore⟩ := not_or.1 (List.mem_cons.not.1 h)
    rw [List.cons_append, cutAt, dropPrefix?, if_neg hc]
    simp only [ih hbefore, Option.map_some]

/-- A text in which a pattern does not occur is left as it is. -/
theorem replaceAll_eq_self (h : ¬ pattern <:+: cs) : replaceAll pattern replacement cs = cs := by
  have hpattern : pattern ≠ [] := fun hnil => h (hnil ▸ List.nil_infix)
  have hcut : cutAt pattern cs = none := by
    rwa [← Option.not_isSome_iff_eq_none, isSome_cutAt_iff]
  rw [replaceAll, dif_neg hpattern]
  split
  · rfl
  · rename_i hsome
    rw [hcut] at hsome
    cases hsome

/-- The first occurrence of a pattern is replaced, and then those in what is left. -/
theorem replaceAll_of_cutAt {before after : List Char} (hpattern : pattern ≠ [])
    (h : cutAt pattern cs = some (before, after)) :
    replaceAll pattern replacement cs =
      before ++ replacement ++ replaceAll pattern replacement after := by
  rw [replaceAll, dif_neg hpattern]
  split
  · rename_i hnone
    rw [h] at hnone
    cases hnone
  · rename_i hsome
    rw [h] at hsome
    cases hsome
    rfl

end Replacement

end SdkLint.Text
