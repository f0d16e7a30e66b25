import Mathlib.Logic.Relation
import Mathlib.Tactic.Tauto
import SdkLint.Cause.Flow

/-!
# A trace finds what can be reached

The aliases of a caught exception are the slots that can be reached from it along all edges, and its
identities are those that can be reached along whole edges.  A trace finds them whatever the order
is in which it looks at the slots on its list and goes through the references of the body.

A slot may be found as an alias first and turn out to be an identity later.  The invariant therefore
speaks of both sets at once: what is found can be reached, and a slot that is not to be looked at
any more has passed on what it holds.

Main definitions:

- `Leads`: an edge between slots, as the tree gives it.
- `Reached`, `ReachedWhole`: reachability from the caught exception.
- `Tracing.Step`: one step of a trace in any order.
- `Tracing.Valid`: the invariant.

Main results:

- Theorem `Tracing.Step.valid`: every step keeps the invariant.
- Theorem `Tracing.Step.remaining_lt`: every step leaves less to be done.
- Theorem `Tracing.run_reaches`: a trace makes such steps until nothing is left to be looked at.
- Theorem `trace_finds_reachable`: a trace finds exactly what can be reached, in every order.
-/

namespace SdkLint.CauseFlow

/-! ## Reachability -/

/-- An edge between slots: a reference inside the body that may mean `s` is assigned to a target that
may mean `w`.  The flag tells whether the value arrives whole. -/
def Leads (t : Tree) (body : NodeId) (caught : String) (whole : Bool) (s w : Slot) : Prop :=
  ∃ r ∈ references t body, ∃ target, assignmentTarget t body r = some (target, whole) ∧
    s ∈ slotsOf t (localsOf t body caught) r ∧ w ∈ slotsOf t (localsOf t body caught) target

/-- The slots that can be reached from the caught exception along all edges. -/
def Reached (t : Tree) (body : NodeId) (caught : String) : Slot → Prop :=
  Relation.ReflTransGen (fun s w => ∃ whole, Leads t body caught whole s w) (.localVar caught)

/-- The slots that can be reached from the caught exception along whole edges. -/
def ReachedWhole (t : Tree) (body : NodeId) (caught : String) : Slot → Prop :=
  Relation.ReflTransGen (Leads t body caught true) (.localVar caught)

variable {t : Tree} {body : NodeId} {caught : String}

/-- The edges of some references are those that the tree gives between slots. -/
theorem mem_flatMap_edgesFrom {refs : List NodeId} (hrefs : refs.Perm (references t body))
    {e : Edge} :
    e ∈ refs.flatMap (edgesFrom t (localsOf t body caught) body) ↔
      Leads t body caught e.whole e.source e.target := by
  rw [List.mem_flatMap]
  constructor
  · rintro ⟨r, hr, he⟩
    rw [hrefs.mem_iff] at hr
    rcases htarget : assignmentTarget t body r with _ | ⟨target, whole⟩
    · simp [edgesFrom, htarget] at he
    · simp only [edgesFrom, htarget, List.mem_flatMap, List.mem_map] at he
      obtain ⟨s, hs, w, hw, rfl⟩ := he
      exact ⟨r, hr, target, htarget, hs, hw⟩
  · rintro ⟨r, hr, target, htarget, hs, hw⟩
    refine ⟨r, hrefs.mem_iff.2 hr, ?_⟩
    simp only [edgesFrom, htarget, List.mem_flatMap, List.mem_map]
    exact ⟨e.source, hs, e.target, hw, rfl⟩

namespace Tracing

variable {s s' : Tracing} {slot x : Slot} {whole : Bool} {edges order : List Edge}

/-! ## What is written -/

theorem mem_aliases_write : x ∈ (s.write slot whole).aliases ↔ x ∈ s.aliases ∨ x = slot := by
  by_cases h : slot ∈ s.aliases
  · have hold : x = slot → x ∈ s.aliases := fun heq => heq ▸ h
    simpa [write, h] using hold
  · simp [write, h, or_comm]

theorem mem_identities_write :
    x ∈ (s.write slot whole).identities ↔ x ∈ s.identities ∨ whole = true ∧ x = slot := by
  by_cases h : whole = true ∧ slot ∉ s.identities
  · simp [write, h, or_comm]
  · have hold : whole = true → x = slot → x ∈ s.identities := by
      rintro hwhole rfl
      exact Decidable.not_not.1 fun hnew => h ⟨hwhole, hnew⟩
    simpa [write, h] using hold

/-- What is new in either respect is put on the list. -/
theorem mem_pending_write :
    x ∈ (s.write slot whole).pending ↔
      x ∈ s.pending ∨ x = slot ∧ (slot ∉ s.aliases ∨ whole = true ∧ slot ∉ s.identities) := by
  by_cases h : slot ∉ s.aliases ∨ whole = true ∧ slot ∉ s.identities
  · simp [write, h, or_comm]
  · simp [write, h]

/-! ## Looking at a slot -/

theorem mem_aliases_foldl (holds : Bool) (leaving : List Edge) (s : Tracing) :
    x ∈ (leaving.foldl (fun s e => s.write e.target (holds && e.whole)) s).aliases ↔
      x ∈ s.aliases ∨ ∃ e ∈ leaving, e.target = x := by
  induction leaving generalizing s with
  | nil => simp
  | cons e leaving ih =>
      rw [List.foldl_cons, ih, mem_aliases_write, or_assoc]
      simp only [List.mem_cons, exists_eq_or_imp]
      exact or_congr_right (or_congr_left eq_comm)

theorem mem_identities_foldl (holds : Bool) (leaving : List Edge) (s : Tracing) :
    x ∈ (leaving.foldl (fun s e => s.write e.target (holds && e.whole)) s).identities ↔
      x ∈ s.identities ∨ holds = true ∧ ∃ e ∈ leaving, e.whole = true ∧ e.target = x := by
  induction leaving generalizing s with
  | nil => simp
  | cons e leaving ih =>
      rw [List.foldl_cons, ih, mem_identities_write, or_assoc]
      simp only [List.mem_cons, exists_eq_or_imp, and_or_left, Bool.and_eq_true, and_assoc]
      exact or_congr_right (or_congr_left (and_congr_right' (and_congr_right' eq_comm)))

/-- What is new after some edges in either respect is on the list, and so is what was there. -/
theorem mem_pending_foldl (holds : Bool) (leaving : List Edge) (s : Tracing)
    {s' : Tracing}
    (hs' : leaving.foldl (fun s e => s.write e.target (holds && e.whole)) s = s') :
    x ∈ s'.pending ↔
      x ∈ s.pending ∨ x ∈ s'.aliases ∧ x ∉ s.aliases ∨ x ∈ s'.identities ∧ x ∉ s.identities := by
  induction leaving generalizing s with
  | nil =>
      subst hs'
      simp
  | cons e leaving ih =>
      rw [List.foldl_cons] at hs'
      -- What the first edge writes is kept by the others.
      have halias : x ∈ (s.write e.target (holds && e.whole)).aliases → x ∈ s'.aliases :=
        fun h => hs' ▸ (mem_aliases_foldl holds leaving _).2 (Or.inl h)
      have hidentity : x ∈ (s.write e.target (holds && e.whole)).identities →
          x ∈ s'.identities :=
        fun h => hs' ▸ (mem_identities_foldl holds leaving _).2 (Or.inl h)
      rw [mem_aliases_write] at halias
      rw [mem_identities_write] at hidentity
      rw [ih _ hs', mem_pending_write, mem_aliases_write, mem_identities_write]
      grind

/-- Looking at a slot finds what any edge leads to. -/
theorem mem_aliases_follow :
    x ∈ (follow order s slot).aliases ↔
      x ∈ s.aliases ∨ ∃ e ∈ order, e.source = slot ∧ e.target = x := by
  rw [follow, mem_aliases_foldl]
  simp [and_assoc]

/-- The exception itself is passed on along whole edges if the slot is known to hold it. -/
theorem mem_identities_follow :
    x ∈ (follow order s slot).identities ↔
      x ∈ s.identities ∨
        slot ∈ s.identities ∧ ∃ e ∈ order, e.source = slot ∧ e.whole = true ∧ e.target = x := by
  rw [follow, mem_identities_foldl]
  simp [and_assoc]

/-- What is new after looking at a slot in either respect is on the list, and so is what was there. -/
theorem mem_pending_follow :
    x ∈ (follow order s slot).pending ↔
      x ∈ s.pending ∨ x ∈ (follow order s slot).aliases ∧ x ∉ s.aliases ∨
        x ∈ (follow order s slot).identities ∧ x ∉ s.identities :=
  mem_pending_foldl _ _ s rfl

/-! ## Steps in any order -/

/-- One step of a trace: some slot is taken from the list, whichever it is, and looked at, with the
references of the body in any order. -/
inductive Step (t : Tree) (body : NodeId) (caught : String) : Tracing → Tracing → Prop
  | look {s : Tracing} {before after : List Slot} {slot : Slot} {refs : List NodeId} :
      s.pending = before ++ slot :: after → refs.Perm (references t body) →
      Step t body caught s
        (follow (refs.flatMap (edgesFrom t (localsOf t body caught) body))
          { s with pending := before ++ after } slot)

/-- Every step leaves less to be done. -/
theorem Step.remaining_lt (h : Step t body caught s s') :
    remaining (edgesOf t (localsOf t body caught) body) s' <
      remaining (edgesOf t (localsOf t body caught) body) s := by
  obtain ⟨hpending, hrefs⟩ := h
  rename_i before after slot refs
  have horder : ∀ e ∈ refs.flatMap (edgesFrom t (localsOf t body caught) body),
      e ∈ edgesOf t (localsOf t body caught) body := fun e he =>
    (mem_flatMap_edgesFrom (List.Perm.refl _)).2 ((mem_flatMap_edgesFrom hrefs).1 he)
  have hle := remaining_follow_le horder { s with pending := before ++ after } slot
  refine Nat.lt_of_le_of_lt hle ?_
  simp only [remaining, hpending, List.length_append, List.length_cons]
  omega

/-- A trace makes steps until nothing is left to be looked at. -/
theorem run_reaches (t : Tree) (body : NodeId) (caught : String) (s : Tracing) :
    Relation.ReflTransGen (Step t body caught) s
        (run (edgesOf t (localsOf t body caught) body) s) ∧
      (run (edgesOf t (localsOf t body caught) body) s).pending = [] := by
  fun_induction run (edgesOf t (localsOf t body caught) body) s with
  | case1 s hpending => exact ⟨.refl, hpending⟩
  | case2 s slot rest hpending ih =>
      refine ⟨.head ?_ ih.1, ih.2⟩
      have hfirst : s.pending = [] ++ slot :: rest := hpending
      exact Step.look hfirst (List.Perm.refl _)

/-! ## The invariant -/

/-- What is found can be reached, and a slot that is not on the list any more has passed on what it
holds. -/
structure Valid (t : Tree) (body : NodeId) (caught : String) (s : Tracing) : Prop where
  seed : Slot.localVar caught ∈ s.identities
  identities_subset : ∀ x ∈ s.identities, x ∈ s.aliases
  pending_subset : ∀ x ∈ s.pending, x ∈ s.aliases
  aliases_reached : ∀ x ∈ s.aliases, Reached t body caught x
  identities_reached : ∀ x ∈ s.identities, ReachedWhole t body caught x
  aliases_closed : ∀ x ∈ s.aliases, x ∉ s.pending →
    ∀ whole y, Leads t body caught whole x y → y ∈ s.aliases
  identities_closed : ∀ x ∈ s.identities, x ∉ s.pending →
    ∀ y, Leads t body caught true x y → y ∈ s.identities

theorem valid_start (t : Tree) (body : NodeId) (caught : String) :
    Valid t body caught (start caught) where
  seed := by simp [start]
  identities_subset := by simp [start]
  pending_subset := by simp [start]
  aliases_reached := by
    intro x hx
    rw [List.mem_singleton.1 hx]
    exact .refl
  identities_reached := by
    intro x hx
    rw [List.mem_singleton.1 hx]
    exact .refl
  aliases_closed := fun x hx hpending => absurd hx hpending
  identities_closed := fun x hx hpending => absurd hx hpending

/-- Every step keeps the invariant. -/
theorem Step.valid (h : Step t body caught s s') (hs : s.Valid t body caught) :
    s'.Valid t body caught := by
  obtain ⟨hpending, hrefs⟩ := h
  rename_i before after slot refs
  have horder : ∀ e, e ∈ refs.flatMap (edgesFrom t (localsOf t body caught) body) ↔
      Leads t body caught e.whole e.source e.target := fun _ => mem_flatMap_edgesFrom hrefs
  generalize refs.flatMap (edgesFrom t (localsOf t body caught) body) = order at horder
  have hslot : slot ∈ s.aliases := hs.pending_subset slot (by simp [hpending])
  have hrest : ∀ x, x ∈ before ++ after → x ∈ s.pending := by
    intro x hx
    rw [hpending]
    simp only [List.mem_append, List.mem_cons] at hx ⊢
    tauto
  -- A slot other than the one looked at is off the list afterwards only if it was so before and
  -- nothing new has been found out about it.
  have hoff : ∀ x, x ≠ slot →
      x ∉ (follow order { s with pending := before ++ after } slot).pending →
      x ∉ s.pending ∧
        (x ∈ (follow order { s with pending := before ++ after } slot).aliases → x ∈ s.aliases) ∧
        (x ∈ (follow order { s with pending := before ++ after } slot).identities →
          x ∈ s.identities) := by
    intro x hx hoff
    rw [mem_pending_follow] at hoff
    rw [hpending]
    simp only [List.mem_append, List.mem_cons] at hoff ⊢
    tauto
  constructor
  case seed => exact mem_identities_follow.2 (Or.inl hs.seed)
  case identities_subset =>
    intro x hx
    rw [mem_aliases_follow]
    rcases mem_identities_follow.1 hx with hx | ⟨-, e, he, hsource, -, htarget⟩
    · exact Or.inl (hs.identities_subset x hx)
    · exact Or.inr ⟨e, he, hsource, htarget⟩
  case pending_subset =>
    intro x hx
    rcases mem_pending_follow.1 hx with hx | hx | hx
    · exact mem_aliases_follow.2 (Or.inl (hs.pending_subset x (hrest x hx)))
    · exact hx.1
    · rw [mem_aliases_follow]
      rcases mem_identities_follow.1 hx.1 with hx | ⟨-, e, he, hsource, -, htarget⟩
      · exact Or.inl (hs.identities_subset x hx)
      · exact Or.inr ⟨e, he, hsource, htarget⟩
  case aliases_reached =>
    intro x hx
    rcases mem_aliases_follow.1 hx with hx | ⟨e, he, rfl, rfl⟩
    · exact hs.aliases_reached x hx
    · exact (hs.aliases_reached _ hslot).tail ⟨e.whole, (horder e).1 he⟩
  case identities_reached =>
    intro x hx
    rcases mem_identities_follow.1 hx with hx | ⟨hholds, e, he, rfl, hwhole, rfl⟩
    · exact hs.identities_reached x hx
    · exact (hs.identities_reached _ hholds).tail (hwhole ▸ (horder e).1 he)
  case aliases_closed =>
    intro x hx hdone whole y hlead
    rw [mem_aliases_follow]
    by_cases hxslot : x = slot
    · exact Or.inr ⟨⟨x, y, whole⟩, (horder ⟨x, y, whole⟩).2 hlead, hxslot, rfl⟩
    · obtain ⟨hbefore, hold, -⟩ := hoff x hxslot hdone
      exact Or.inl (hs.aliases_closed x (hold hx) hbefore whole y hlead)
  case identities_closed =>
    intro x hx hdone y hlead
    rw [mem_identities_follow]
    by_cases hxslot : x = slot
    · -- Looking at a slot does not teach anything about the slot itself that would let it pass on
      -- more than it has passed on by then.
      subst hxslot
      have hholds : x ∈ s.identities := by
        rcases mem_identities_follow.1 hx with hx | hx
        · exact hx
        · exact hx.1
      exact Or.inr ⟨hholds, ⟨x, y, true⟩, (horder ⟨x, y, true⟩).2 hlead, rfl, rfl, rfl⟩
    · obtain ⟨hbefore, -, hold⟩ := hoff x hxslot hdone
      exact Or.inl (hs.identities_closed x (hold hx) hbefore y hlead)

/-- A trace in any order keeps the invariant. -/
theorem valid_of_reaches (h : Relation.ReflTransGen (Step t body caught) (start caught) s) :
    s.Valid t body caught := by
  induction h with
  | refl => exact valid_start t body caught
  | tail _ hstep ih => exact hstep.valid ih

/-- With nothing left to be looked at the aliases are the slots that can be reached. -/
theorem Valid.mem_aliases_iff (h : s.Valid t body caught) (hdone : s.pending = []) :
    x ∈ s.aliases ↔ Reached t body caught x := by
  refine ⟨h.aliases_reached x, fun hx => ?_⟩
  induction hx with
  | refl => exact h.identities_subset _ h.seed
  | tail _ hlead ih =>
      obtain ⟨whole, hlead⟩ := hlead
      exact h.aliases_closed _ ih (by simp [hdone]) whole _ hlead

/-- With nothing left to be looked at the identities are the slots that can be reached along whole
edges. -/
theorem Valid.mem_identities_iff (h : s.Valid t body caught) (hdone : s.pending = []) :
    x ∈ s.identities ↔ ReachedWhole t body caught x := by
  refine ⟨h.identities_reached x, fun hx => ?_⟩
  induction hx with
  | refl => exact h.seed
  | tail _ hlead ih => exact h.identities_closed _ ih (by simp [hdone]) _ hlead

end Tracing

/-! ## Traces -/

theorem mem_aliases_trace {x : Slot} :
    x ∈ (trace t body caught).aliases ↔ Reached t body caught x := by
  obtain ⟨hreaches, hdone⟩ := Tracing.run_reaches t body caught (.start caught)
  exact (Tracing.valid_of_reaches hreaches).mem_aliases_iff hdone

theorem mem_identities_trace {x : Slot} :
    x ∈ (trace t body caught).identities ↔ ReachedWhole t body caught x := by
  obtain ⟨hreaches, hdone⟩ := Tracing.run_reaches t body caught (.start caught)
  exact (Tracing.valid_of_reaches hreaches).mem_identities_iff hdone

/-- What it means that a trace finds exactly what can be reached, in every order. -/
structure FindsReachable (t : Tree) (body : NodeId) (caught : String) : Prop where
  /-- The aliases are the slots that can be reached along all edges. -/
  aliases : ∀ x, x ∈ (trace t body caught).aliases ↔ Reached t body caught x
  /-- The identities are the slots that can be reached along whole edges. -/
  identities : ∀ x, x ∈ (trace t body caught).identities ↔ ReachedWhole t body caught x
  /-- All identities are aliases. -/
  subset : ∀ x ∈ (trace t body caught).identities, x ∈ (trace t body caught).aliases
  /-- Whatever the order, a trace comes to an end. -/
  ends : WellFounded fun s' s => Tracing.Step t body caught s s'
  /-- Whatever the order, a trace at its end has found the same slots. -/
  anyOrder : ∀ s, Relation.ReflTransGen (Tracing.Step t body caught) (.start caught) s →
    s.pending = [] → ∀ x,
      (x ∈ s.aliases ↔ x ∈ (trace t body caught).aliases) ∧
      (x ∈ s.identities ↔ x ∈ (trace t body caught).identities)

/-- A trace finds exactly the slots that can be reached, whatever the order is in which it looks at
slots and goes through references. -/
theorem trace_finds_reachable (t : Tree) (body : NodeId) (caught : String) :
    FindsReachable t body caught where
  aliases := fun _ => mem_aliases_trace
  identities := fun _ => mem_identities_trace
  subset := by
    intro x hx
    rw [mem_identities_trace] at hx
    rw [mem_aliases_trace]
    exact Relation.ReflTransGen.mono (fun _ _ hlead => ⟨true, hlead⟩) _ _ hx
  ends := by
    refine Subrelation.wf (fun hstep => ?_)
      (measure (Tracing.remaining (edgesOf t (localsOf t body caught) body))).wf
    exact hstep.remaining_lt
  anyOrder := by
    intro s hreaches hdone x
    have hvalid := Tracing.valid_of_reaches hreaches
    exact ⟨(hvalid.mem_aliases_iff hdone).trans mem_aliases_trace.symm,
      (hvalid.mem_identities_iff hdone).trans mem_identities_trace.symm⟩

end SdkLint.CauseFlow
