import SdkLint.Rule.Basic

/-!
# Which rules are called for which nodes

Before a walk a table is made that gives, for every kind of node, the places of the rules that asked
for it.  The rules are entered one after the other, each with the kinds that it lists; a kind that a
rule lists again changes nothing.

Main definitions:

- `Dispatch.ofKinds`: the table of some rules, given the kinds that each of them lists.
- `Dispatch.askers`: the places of the rules that list a kind, found without a table.

Main statement: the table gives for every kind the places of the rules that list it, each once and
in order (`Dispatch.subscribers_ofKinds`, `Dispatch.nodup_askers`).
-/

namespace SdkLint

/-- For every kind that some rule asked for, the places of these rules in the list of rules. -/
abbrev Dispatch :=
  List (NodeKind × List Nat)

namespace Dispatch

/-! ## Making the table -/

/-- The places of the rules that asked for a kind. -/
def subscribers : Dispatch → NodeKind → List Nat
  | [], _ => []
  | (k, places) :: rest, kind => if k = kind then places else subscribers rest kind

/-- Enters a rule under a kind, unless it is there already. -/
def subscribe (place : Nat) : Dispatch → NodeKind → Dispatch
  | [], kind => [(kind, [place])]
  | (k, places) :: rest, kind =>
    if k = kind then (k, if place ∈ places then places else places ++ [place]) :: rest
    else (k, places) :: subscribe place rest kind

/-- Enters a rule under all kinds that it lists. -/
def subscribeAll (d : Dispatch) (place : Nat) (kinds : List NodeKind) : Dispatch :=
  kinds.foldl (subscribe place) d

/-- The table of rules that list some kinds each. -/
def ofKinds (lists : List (List NodeKind)) : Dispatch :=
  lists.zipIdx.foldl (fun d (kinds, place) => d.subscribeAll place kinds) []

/-! ## What the table gives -/

theorem subscribers_subscribe (d : Dispatch) (place : Nat) (kind k : NodeKind) :
    (d.subscribe place kind).subscribers k =
      if kind = k ∧ place ∉ d.subscribers k then d.subscribers k ++ [place]
      else d.subscribers k := by
  induction d with
  | nil => by_cases h : kind = k <;> simp [subscribe, subscribers, h]
  | cons entry rest ih =>
    obtain ⟨first, places⟩ := entry
    by_cases hfirst : first = kind
    · subst hfirst
      by_cases hk : first = k
      · by_cases hp : place ∈ places <;> simp [subscribe, subscribers, hk, hp]
      · simp [subscribe, subscribers, hk]
    · by_cases hk : first = k
      · subst hk
        simp [subscribe, subscribers, hfirst, Ne.symm hfirst]
      · simp only [subscribe, hfirst, if_false, subscribers, hk, ih]

/-- A rule comes last under every kind that it lists, however often, unless it was there before. -/
theorem subscribers_subscribeAll (d : Dispatch) (place : Nat) (kinds : List NodeKind)
    (k : NodeKind) :
    (d.subscribeAll place kinds).subscribers k =
      if k ∈ kinds ∧ place ∉ d.subscribers k then d.subscribers k ++ [place]
      else d.subscribers k := by
  unfold subscribeAll
  induction kinds generalizing d with
  | nil => simp
  | cons kind kinds ih =>
    rw [List.foldl_cons, ih, subscribers_subscribe]
    by_cases hp : place ∈ d.subscribers k
    · simp [hp]
    · by_cases hk : kind = k
      · simp [hk, hp]
      · have hne : k ≠ kind := fun h => hk h.symm
        simp [hk, hne, hp]

/-- The places of the lists that contain a kind, in order. -/
def askers (lists : List (List NodeKind)) (kind : NodeKind) : List Nat :=
  (lists.zipIdx.filter fun entry => entry.1.contains kind).map Prod.snd

theorem nodup_askers (lists : List (List NodeKind)) (kind : NodeKind) :
    (askers lists kind).Nodup := by
  have hplaces : (lists.zipIdx.map Prod.snd).Nodup := by
    rw [List.zipIdx_map_snd]
    exact List.nodup_range'
  exact hplaces.sublist (List.filter_sublist.map Prod.snd)

theorem mem_askers {lists : List (List NodeKind)} {kind : NodeKind} {place : Nat} :
    place ∈ askers lists kind ↔ ∃ kinds, lists[place]? = some kinds ∧ kind ∈ kinds := by
  simp only [askers, List.mem_map, List.mem_filter, List.contains_iff_mem, Prod.exists,
    List.mem_zipIdx_iff_getElem?]
  constructor
  · rintro ⟨kinds, _, ⟨hget, hkind⟩, rfl⟩
    exact ⟨kinds, hget, hkind⟩
  · rintro ⟨kinds, hget, hkind⟩
    exact ⟨kinds, place, ⟨hget, hkind⟩, rfl⟩

/-- Entering further rules, with places from `next` on, adds those that list the kind. -/
theorem subscribers_foldl (lists : List (List NodeKind)) (next : Nat) (d : Dispatch)
    (k : NodeKind) (hnew : ∀ place ∈ d.subscribers k, place < next) :
    ((lists.zipIdx next).foldl (fun d (kinds, place) => d.subscribeAll place kinds) d).subscribers k =
      d.subscribers k ++
        ((lists.zipIdx next).filter fun entry => entry.1.contains k).map Prod.snd := by
  induction lists generalizing next d with
  | nil => simp
  | cons kinds lists ih =>
    have hfresh : next ∉ d.subscribers k := fun h => Nat.lt_irrefl _ (hnew _ h)
    have hone : (d.subscribeAll next kinds).subscribers k =
        if k ∈ kinds then d.subscribers k ++ [next] else d.subscribers k := by
      rw [subscribers_subscribeAll]
      simp [hfresh]
    rw [List.zipIdx_cons, List.foldl_cons, ih, hone]
    · by_cases hk : k ∈ kinds <;> simp [hk]
    · intro place hplace
      rw [hone] at hplace
      by_cases hk : k ∈ kinds
      · simp only [hk, if_true, List.mem_append, List.mem_singleton] at hplace
        rcases hplace with hplace | rfl
        · exact Nat.lt_succ_of_lt (hnew _ hplace)
        · exact Nat.lt_succ_self _
      · simp only [hk, if_false] at hplace
        exact Nat.lt_succ_of_lt (hnew _ hplace)

/-- The table gives for every kind the places of the rules that list it, in order. -/
theorem subscribers_ofKinds (lists : List (List NodeKind)) (k : NodeKind) :
    (ofKinds lists).subscribers k = askers lists k := by
  simpa [ofKinds, askers, subscribers] using
    subscribers_foldl lists 0 [] k (by simp [subscribers])

end Dispatch

end SdkLint
