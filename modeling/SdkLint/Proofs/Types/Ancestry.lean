import Mathlib.Data.List.Chain
import Mathlib.Data.List.Nodup
import SdkLint.Proofs.Types.Chain

/-!
# Chains of superclasses

The chain of a type climbs from superclass to superclass and goes on as long as it can: it ends at
its limit, at a type of which no superclass is known, or before a type that it has met already.  A
hierarchy may have cycles of any length, which need not pass through the type at the start, and may
go on without end; that a type has one superclass at most is all that is needed for two climbs from
one start to agree as far as both go.

Main definitions:

- `TypeResolver.EndsClimb`: a chain has to end at a type.
- `TypeResolver.IsClimb`: what it means that a list is the chain of a type.

Main results:

- Theorem `TypeResolver.IsClimb.isPrefix`: a climb is a prefix of any that may be longer.
- Theorem `superclassChain_climbs`: the chain of a type is its one climb, and a beginning of those
  with larger limits.
-/

namespace SdkLint

namespace TypeResolver

variable (resolver : TypeResolver)

/-- The superclass of a type, if one is known. -/
def superclass? (name : String) : Option String :=
  (resolver name).bind TypeInfo.superclass

/-- A chain has to end at a type: the type is unknown, has no superclass, or has one that is in the
chain already. -/
def EndsClimb (chain : List String) (last : String) : Prop :=
  resolver last = none ∨
    ∃ info, resolver last = some info ∧
      (info.superclass = none ∨ ∃ next ∈ chain, info.superclass = some next)

/-- A list of types climbs from a type, at most `limit` steps up and as far as it can. -/
structure IsClimb (start : String) (limit : Nat) (chain : List String) : Prop where
  head?_eq : chain.head? = some start
  /-- Each type is followed by its superclass. -/
  linked : chain.IsChain fun below above => resolver.superclass? below = some above
  nodup : chain.Nodup
  length_le : chain.length ≤ limit + 1
  /-- A chain that is shorter than it may be ends where it has to. -/
  maximal : chain.length < limit + 1 →
    ∃ last, chain.getLast? = some last ∧ resolver.EndsClimb chain last

variable {resolver} {start name : String} {limit : Nat} {chain : List String}

/-- A type at which a chain has to end has no superclass outside of the chain. -/
theorem EndsClimb.mem {last next : String} (h : resolver.EndsClimb chain last)
    (hnext : resolver.superclass? last = some next) : next ∈ chain := by
  obtain ⟨info, hinfo, hsuper⟩ := Option.bind_eq_some_iff.1 hnext
  rcases h with hnone | ⟨info', hinfo', hends⟩
  · rw [hnone] at hinfo
    cases hinfo
  · obtain rfl : info' = info := Option.some.inj (hinfo'.symm.trans hinfo)
    rcases hends with hnone | ⟨next', hmem, hnext'⟩
    · rw [hnone] at hsuper
      cases hsuper
    · obtain rfl : next' = next := Option.some.inj (hnext'.symm.trans hsuper)
      exact hmem

theorem EndsClimb.of_superclass? {last : String}
    (h : ∀ next, resolver.superclass? last = some next → next ∈ chain) :
    resolver.EndsClimb chain last := by
  rcases hinfo : resolver last with _ | info
  · exact .inl hinfo
  · refine .inr ⟨info, hinfo, ?_⟩
    cases hsuper : info.superclass with
    | none => exact .inl rfl
    | some next =>
      exact .inr ⟨next, h next (Option.bind_eq_some_iff.2 ⟨info, hinfo, hsuper⟩), rfl⟩

/-! ## Climbs from one start -/

/-- Of two lists that follow the superclasses from one type, one begins the other. -/
theorem isPrefix_or_isPrefix {above above' : List String}
    (h : (start :: above).IsChain fun a b => resolver.superclass? a = some b)
    (h' : (start :: above').IsChain fun a b => resolver.superclass? a = some b) :
    start :: above <+: start :: above' ∨ start :: above' <+: start :: above := by
  rw [List.prefix_cons_inj, List.prefix_cons_inj]
  induction above generalizing start above' with
  | nil => exact .inl List.nil_prefix
  | cons next above ih =>
    cases above' with
    | nil => exact .inr List.nil_prefix
    | cons next' above' =>
      obtain ⟨hnext, hrest⟩ := List.isChain_cons_cons.1 h
      obtain ⟨hnext', hrest'⟩ := List.isChain_cons_cons.1 h'
      obtain rfl : next = next' := Option.some.inj (hnext.symm.trans hnext')
      rw [List.prefix_cons_inj, List.prefix_cons_inj]
      exact ih hrest hrest'

namespace IsClimb

variable {larger : Nat} {longer : List String}

theorem eq_cons (h : resolver.IsClimb start limit chain) : ∃ above, chain = start :: above := by
  obtain ⟨above, habove⟩ := List.head?_eq_some_iff.1 h.head?_eq
  exact ⟨above, habove⟩

/-- A climb that has to end does not go on: it is no proper beginning of a list that follows the
superclasses without repeating a type. -/
theorem eq_of_isPrefix (h : resolver.IsClimb start limit chain) (hshort : chain.length < limit + 1)
    (hstarts : chain <+: longer) (hnodup : longer.Nodup)
    (hlinked : longer.IsChain fun a b => resolver.superclass? a = some b) : chain = longer := by
  obtain ⟨more, rfl⟩ := hstarts
  cases more with
  | nil => exact (List.append_nil chain).symm
  | cons next more =>
    obtain ⟨last, hlast, hends⟩ := h.maximal hshort
    obtain ⟨before, rfl⟩ := List.getLast?_eq_some_iff.1 hlast
    have hnext : resolver.superclass? last = some next := by
      rw [List.append_assoc, List.singleton_append] at hlinked
      exact (List.isChain_cons_cons.1 (List.isChain_split.1 hlinked).2).1
    have hfresh : next ∉ before ++ [last] := fun hmem =>
      (List.nodup_append.1 hnodup).2.2 next hmem next List.mem_cons_self rfl
    exact absurd (hends.mem hnext) hfresh

/-- A climb is a beginning of any climb from the same type with the same limit or a larger one. -/
theorem isPrefix (h : resolver.IsClimb start limit chain)
    (hlonger : resolver.IsClimb start larger longer) (hlimit : limit ≤ larger) :
    chain <+: longer := by
  obtain ⟨above, rfl⟩ := h.eq_cons
  obtain ⟨above', rfl⟩ := hlonger.eq_cons
  rcases isPrefix_or_isPrefix h.linked hlonger.linked with hstarts | hstarts
  · exact hstarts
  · -- The longer climb does not end sooner, unless it has to.
    by_cases hshort : (start :: above').length < larger + 1
    · have hsame := hlonger.eq_of_isPrefix hshort hstarts h.nodup h.linked
      exact hsame ▸ List.prefix_rfl
    · have hlength := h.length_le
      have hsame := hstarts.eq_of_length_le (by omega)
      exact hsame ▸ List.prefix_rfl

theorem unique {other : List String} (h : resolver.IsClimb start limit chain)
    (hother : resolver.IsClimb start limit other) : chain = other :=
  (h.isPrefix hother (Nat.le_refl limit)).eq_of_length_le
    (hother.isPrefix h (Nat.le_refl limit)).length_le

end IsClimb

end TypeResolver

/-! ## The chain climbs -/

section Chain

variable (resolver : TypeResolver)

/-- A chain ends at its first type, by the limit or for want of another superclass, or goes on to a
superclass that has not been met. -/
theorem chainFrom_cases (limit : Nat) (seen : List String) (name : String) :
    (chainFrom resolver limit seen name = [name] ∧
        (limit = 0 ∨ ∀ next, resolver.superclass? name = some next → next ∈ name :: seen)) ∨
      ∃ fewer next, limit = fewer + 1 ∧ resolver.superclass? name = some next ∧
        next ∉ name :: seen ∧
        chainFrom resolver limit seen name =
          name :: chainFrom resolver fewer (name :: seen) next := by
  cases limit with
  | zero => exact .inl ⟨rfl, .inl rfl⟩
  | succ fewer =>
    rw [chainFrom, ← TypeResolver.superclass?]
    rcases hnext : resolver.superclass? name with _ | next
    · refine .inl ⟨rfl, .inr fun next h => ?_⟩
      cases h
    · dsimp only
      split
      · rename_i hmet
        refine .inl ⟨rfl, .inr fun _ h => ?_⟩
        obtain rfl := Option.some.inj h
        exact List.contains_iff_mem.1 hmet
      · rename_i hfresh
        exact .inr ⟨fewer, next, rfl, rfl, fun hmem => hfresh (List.contains_iff_mem.2 hmem), rfl⟩

variable (limit : Nat) {seen : List String} {name : String}

theorem length_chainFrom_le :
    (chainFrom resolver limit seen name).length ≤ limit + 1 := by
  induction limit generalizing seen name with
  | zero => exact Nat.le_refl 1
  | succ limit ih =>
    rcases chainFrom_cases resolver (limit + 1) seen name with
      ⟨hend, -⟩ | ⟨fewer, next, hlimit, -, -, hgo⟩
    · rw [hend, List.length_singleton]
      omega
    · obtain rfl : limit = fewer := Nat.succ.inj hlimit
      rw [hgo, List.length_cons]
      exact Nat.succ_le_succ ih

theorem isChain_chainFrom : (chainFrom resolver limit seen name).IsChain fun below above =>
    resolver.superclass? below = some above := by
  induction limit generalizing seen name with
  | zero => exact .singleton name
  | succ limit ih =>
    rcases chainFrom_cases resolver (limit + 1) seen name with
      ⟨hend, -⟩ | ⟨fewer, next, hlimit, hnext, -, hgo⟩
    · exact hend ▸ .singleton name
    · obtain rfl : limit = fewer := Nat.succ.inj hlimit
      obtain ⟨above, habove⟩ := chainFrom_eq_cons resolver limit (name :: seen) next
      have hrest := @ih (name :: seen) next
      rw [habove] at hrest
      rw [hgo, habove]
      exact .cons_cons hnext hrest

/-- A chain meets no type twice, and none of those met before it. -/
theorem nodup_chainFrom (hfresh : name ∉ seen) :
    (chainFrom resolver limit seen name).Nodup ∧
      ∀ type ∈ chainFrom resolver limit seen name, type ∉ seen := by
  have hend {seen : List String} {name : String} (hfresh : name ∉ seen) :
      [name].Nodup ∧ ∀ type ∈ [name], type ∉ seen :=
    ⟨List.nodup_singleton name, List.forall_mem_singleton.2 hfresh⟩
  induction limit generalizing seen name with
  | zero => exact hend hfresh
  | succ limit ih =>
    rcases chainFrom_cases resolver (limit + 1) seen name with
      ⟨heq, -⟩ | ⟨fewer, next, hlimit, -, hnext, hgo⟩
    · exact heq ▸ hend hfresh
    · obtain rfl : limit = fewer := Nat.succ.inj hlimit
      obtain ⟨hnodup, hunmet⟩ := ih hnext
      rw [hgo, List.nodup_cons, List.forall_mem_cons]
      refine ⟨⟨fun hmem => hunmet name hmem List.mem_cons_self, hnodup⟩, hfresh, ?_⟩
      exact fun type htype hmem => hunmet type htype (List.mem_cons_of_mem name hmem)

/-- A chain that is shorter than it may be ends at a type whose superclass, if it has one, has been
met. -/
theorem met_of_length_chainFrom_lt
    (hshort : (chainFrom resolver limit seen name).length < limit + 1) :
    ∃ last, (chainFrom resolver limit seen name).getLast? = some last ∧
      ∀ next, resolver.superclass? last = some next →
        next ∈ chainFrom resolver limit seen name ∨ next ∈ seen := by
  induction limit generalizing seen name with
  | zero => exact absurd hshort (Nat.lt_irrefl 1)
  | succ limit ih =>
    rcases chainFrom_cases resolver (limit + 1) seen name with
      ⟨hend, hlimit | hmet⟩ | ⟨fewer, next, hlimit, -, -, hgo⟩
    · cases hlimit
    · rw [hend]
      exact ⟨name, rfl, fun next hnext => by simpa using hmet next hnext⟩
    · obtain rfl : limit = fewer := Nat.succ.inj hlimit
      rw [hgo, List.length_cons] at hshort
      obtain ⟨last, hlast, hmet⟩ := ih (Nat.lt_of_succ_lt_succ hshort)
      rw [hgo]
      refine ⟨last, by rw [List.getLast?_cons, hlast]; rfl, fun above habove => ?_⟩
      rcases hmet above habove with hmem | hmem
      · exact .inl (List.mem_cons_of_mem name hmem)
      · rcases List.mem_cons.1 hmem with rfl | hmem
        · exact .inl List.mem_cons_self
        · exact .inr hmem

/-- The chain of a type is a climb. -/
theorem isClimb_superclassChain (name : String) :
    resolver.IsClimb name limit (superclassChain resolver name limit) where
  head?_eq := by
    obtain ⟨above, habove⟩ := chainFrom_eq_cons resolver limit [] name
    rw [superclassChain, habove, List.head?_cons]
  linked := isChain_chainFrom resolver limit
  nodup := (nodup_chainFrom resolver limit List.not_mem_nil).1
  length_le := length_chainFrom_le resolver limit
  maximal := by
    intro hshort
    obtain ⟨last, hlast, hmet⟩ := met_of_length_chainFrom_lt resolver limit hshort
    refine ⟨last, hlast, .of_superclass? fun next hnext => ?_⟩
    exact (hmet next hnext).resolve_right List.not_mem_nil

/-- The chain of a type is the one list that climbs from the type, repeats nothing, respects the
limit and ends before it only where it has to, whatever is known about types; with a larger limit it
goes on from there. -/
theorem superclassChain_climbs (start : String) (limit : Nat) :
    (∀ chain, resolver.IsClimb start limit chain ↔ chain = superclassChain resolver start limit) ∧
      ∀ more, superclassChain resolver start limit <+:
        superclassChain resolver start (limit + more) := by
  have hclimb (limit : Nat) := isClimb_superclassChain resolver limit start
  refine ⟨fun chain => ⟨fun h => h.unique (hclimb limit), fun h => h ▸ hclimb limit⟩, fun more => ?_⟩
  exact (hclimb limit).isPrefix (hclimb (limit + more)) (Nat.le_add_right limit more)

end Chain

end SdkLint
