import SdkLint.Rule.Context

/-!
# Chains of superclasses under more knowledge

Knowing more about types makes a chain of superclasses longer, or leaves it as it is: a chain goes
on from type to type as long as something is known, so that what was known before is followed in the
same way, and the chain that ended at an unknown type may now go on.  The limit and the types
already seen cut both chains off at the same place, as long as both go on.

Main definition:

- `TypeResolver.Within`: what is known about types is known elsewhere, too.

Main results:

- Theorem `TypeTable.within_of_entries`: a table is within another one that has its entries.
- Theorem `superclassChain_isPrefix`: a chain is a prefix of the one under more knowledge.
-/

namespace SdkLint

/-! ## More knowledge -/

/-- What is known about a type is known elsewhere, too, and in the same words. -/
def TypeResolver.Within (known more : TypeResolver) : Prop :=
  ∀ name info, known name = some info → more name = some info

/-- Knowing nothing is within everything. -/
theorem TypeResolver.nothing_within (more : TypeResolver) : Within (fun _ => none) more := by
  intro name info h
  cases h

/-- A table is within another one that has its entries. -/
theorem TypeTable.within_of_entries {table other : TypeTable}
    (h : ∀ entry ∈ table.entries, other.resolve entry.1 = some entry.2) :
    table.resolve.Within other.resolve := by
  intro name info hknown
  obtain ⟨before, after, hentries, -⟩ := List.lookup_eq_some_iff.1 hknown
  exact h (name, info) (by simp [hentries])

section More

variable {known more : TypeResolver}

/-- What is known about a type that may be named is known under more knowledge. -/
theorem TypeResolver.Within.bind (h : known.Within more) {name : Option String} {info : TypeInfo}
    (hinfo : name.bind known = some info) : name.bind more = some info := by
  obtain ⟨written, rfl, hknown⟩ := Option.bind_eq_some_iff.1 hinfo
  exact h written info hknown

/-! ## Chains -/

/-- A chain begins with the type that it starts at. -/
theorem chainFrom_eq_cons (resolver : TypeResolver) (limit : Nat) (seen : List String)
    (name : String) : ∃ above, chainFrom resolver limit seen name = name :: above := by
  cases limit with
  | zero => exact ⟨[], rfl⟩
  | succ limit =>
      rw [chainFrom]
      split
      · exact ⟨[], rfl⟩
      · split
        · exact ⟨[], rfl⟩
        · exact ⟨_, rfl⟩

theorem chainFrom_isPrefix (h : known.Within more) (limit : Nat) (seen : List String)
    (name : String) : chainFrom known limit seen name <+: chainFrom more limit seen name := by
  induction limit generalizing seen name with
  | zero => exact List.prefix_rfl
  | succ limit ih =>
      rcases hnext : (known name).bind TypeInfo.superclass with _ | next
      · -- The chain ends here; under more knowledge it may go on.
        obtain ⟨above, habove⟩ := chainFrom_eq_cons more (limit + 1) seen name
        rw [habove, chainFrom, hnext]
        exact ⟨above, rfl⟩
      · obtain ⟨info, hinfo, hsuper⟩ := Option.bind_eq_some_iff.1 hnext
        have hmore : (more name).bind TypeInfo.superclass = some next := by
          rw [h name info hinfo, Option.bind_some, hsuper]
        rw [chainFrom, hnext, chainFrom, hmore]
        dsimp only
        split
        · exact List.prefix_rfl
        · exact (List.prefix_cons_inj name).2 (ih (name :: seen) next)

/-- A chain of superclasses is a prefix of the one under more knowledge. -/
theorem superclassChain_isPrefix (h : known.Within more) (name : String) (limit : Nat) :
    superclassChain known name limit <+: superclassChain more name limit :=
  chainFrom_isPrefix h limit [] name

end More

end SdkLint
