import SdkLint.Rules.Expression

/-!
# Tracing a caught exception

Inside the body of a catch clause the caught exception may be copied to other variables and fields,
alone or as part of a new exception.  A `Slot` is a place that a name may refer to; a local and a
field of one name are different slots, and a bare name that the body does not declare may mean
either.

Every reference on the right-hand side of an assignment or an initializer gives an edge from its
slots to the slots that are written.  The edge is *whole* if the right-hand side is the reference
itself, apart from parentheses and casts.  The aliases of the exception are the slots reachable from
it along all edges; its identities, which hold the exception itself, are those reachable along whole
edges.

Both are found in one go.  A slot that is found is put on a list of slots to be looked at.  If it
turns out later that it holds the exception itself, it is put there once more, since the whole edges
that leave it now lead to identities.

Main definitions:

- `Slot`, `CauseFlow.Edge`: slots and the edges between them.
- `CauseFlow.Tracing`: a trace under way.
- `CauseFlow.trace`: what happens to a caught exception.
-/

namespace SdkLint

/-- A place that a name may refer to. -/
inductive Slot where
  /-- A catch parameter, parameter or local variable. -/
  | localVar (name : String)
  /-- A field. -/
  | field (name : String)
deriving DecidableEq, Repr, Inhabited

/-- A slot as the source would write it. -/
def Slot.written : Slot → String
  | .localVar name => name
  | .field name => "this." ++ name

/-- What happens to a caught exception in the body of its catch clause. -/
structure CauseFlow where
  /-- The names that the body declares, the caught one included. -/
  locals : List String
  /-- The throw statements of the body, in order. -/
  throws : List NodeId
  /-- The slots that may hold something made from the exception. -/
  aliases : List Slot
  /-- The slots that may hold the exception itself. -/
  identities : List Slot
deriving DecidableEq, Repr, Inhabited

namespace CauseFlow

variable (t : Tree)

/-! ## Slots and edges -/

/-- The slots that an identifier or field access may refer to, where `locals` are declared. -/
def slotsOf (locals : List String) (i : NodeId) : List Slot :=
  match t.token i, t.kind i with
  | some name, .fieldAccess => [.field name]
  | some name, .ident =>
    if t.isMemberName i then [.field name]
    else if locals.contains name then [.localVar name]
    else [.localVar name, .field name]
  | _, _ => []

/-- Where a value goes that stands in `child`, going up along `above` until `body`: the target of
the first assignment or declaration met, unless the value stands in the target, or a statement or a
body comes first.  The flag tells whether the value has arrived whole. -/
def targetAbove (body : NodeId) :
    (child : NodeId) → (whole : Bool) → (above : List NodeId) → Option (NodeId × Bool)
  | _, _, [] => none
  | child, whole, parent :: rest =>
    if parent == body then none
    else match t.kind parent with
      | .assign => (t.children parent).head?.bind fun target =>
          if target == child then none else some (target, whole)
      | .varDeclarator => (t.nameNode parent).bind fun name =>
          if name == child then none else some (name, whole)
      | .block | .exprStmt | .throwStmt | .returnStmt | .lambda | .classBody | .catchClause
      | .tryStmt | .forEach => none
      | _ => targetAbove body parent (whole && t.isTransparent parent) rest

/-- The expression that a reference stands for: the whole field access for the name of a field. -/
def accessOf (i : NodeId) : NodeId :=
  match t.parent i with
  | some access => if t.isMemberName i then access else i
  | none => i

/-- Where a reference inside `body` is assigned to, and whether it arrives whole. -/
def assignmentTarget (body reference : NodeId) : Option (NodeId × Bool) :=
  let child := accessOf t reference
  targetAbove t body child true (t.ancestors child)

/-- An edge from a slot that is read to a slot that is written. -/
structure Edge where
  source : Slot
  target : Slot
  whole : Bool
deriving DecidableEq, Repr, Inhabited

/-- The names that a body declares, after the caught name. -/
def localsOf (body : NodeId) (caught : String) : List String :=
  caught :: (t.descendants body).filterMap fun i =>
    match t.kind i with
    | .varDeclarator | .parameter | .catchParam => t.name i
    | _ => none

/-- The identifiers of a body that read a value. -/
def references (body : NodeId) : List NodeId :=
  (t.descendants body).filter fun i => t.kind i == .ident && t.isValueReference i

/-- The edges that a reference inside `body` gives. -/
def edgesFrom (locals : List String) (body reference : NodeId) : List Edge :=
  match assignmentTarget t body reference with
  | none => []
  | some (target, whole) =>
    (slotsOf t locals reference).flatMap fun source =>
      (slotsOf t locals target).map fun target => { source, target, whole }

/-- The edges of a body. -/
def edgesOf (locals : List String) (body : NodeId) : List Edge :=
  (references t body).flatMap (edgesFrom t locals body)

/-! ## Tracing -/

/-- A trace under way. -/
structure Tracing where
  /-- The slots found so far. -/
  aliases : List Slot
  /-- Those of them that are known to hold the exception itself. -/
  identities : List Slot
  /-- The slots still to be looked at. -/
  pending : List Slot
deriving DecidableEq, Repr

namespace Tracing

/-- The trace of a caught name before anything is looked at. -/
def start (caught : String) : Tracing :=
  { aliases := [.localVar caught], identities := [.localVar caught],
    pending := [.localVar caught] }

/-- Notes that a slot is written, with the exception itself or with something made from it.  The slot
is to be looked at if it is new in either respect. -/
def write (s : Tracing) (slot : Slot) (whole : Bool) : Tracing :=
  let fresh : Bool := slot ∉ s.aliases
  let promoted : Bool := whole && slot ∉ s.identities
  { aliases := if fresh then slot :: s.aliases else s.aliases
    identities := if promoted then slot :: s.identities else s.identities
    pending := if fresh || promoted then slot :: s.pending else s.pending }

/-- Looks at a slot: what the edges that leave it lead to is written. -/
def follow (edges : List Edge) (s : Tracing) (slot : Slot) : Tracing :=
  let holds : Bool := slot ∈ s.identities
  (edges.filter fun e => e.source = slot).foldl
    (fun s e => s.write e.target (holds && e.whole)) s

/-- Number of edges that lead to a slot not in `seen`. -/
def unseen (edges : List Edge) (seen : List Slot) : Nat :=
  edges.countP fun e => e.target ∉ seen

/-- A bound on the number of times that slots remain to be looked at. -/
def remaining (edges : List Edge) (s : Tracing) : Nat :=
  s.pending.length + unseen edges s.aliases + unseen edges s.identities

theorem unseen_cons_le (edges : List Edge) (seen : List Slot) (slot : Slot) :
    unseen edges (slot :: seen) ≤ unseen edges seen := by
  refine List.countP_mono_left fun e _ h => ?_
  simp only [List.mem_cons, not_or, decide_eq_true_eq] at h ⊢
  exact h.2

theorem unseen_cons_lt {edges : List Edge} {seen : List Slot} {e : Edge} (he : e ∈ edges)
    (hnew : e.target ∉ seen) : unseen edges (e.target :: seen) < unseen edges seen := by
  obtain ⟨before, after, rfl⟩ := List.append_of_mem he
  have hbefore := unseen_cons_le before seen e.target
  have hafter := unseen_cons_le after seen e.target
  simp only [unseen, List.countP_append] at hbefore hafter ⊢
  rw [List.countP_cons_of_neg (by simp), List.countP_cons_of_pos (by simpa using hnew)]
  omega

/-- What is written uses up an edge for every time that its slot is put on the list. -/
theorem remaining_write_le {edges : List Edge} {e : Edge} (he : e ∈ edges) (s : Tracing)
    (whole : Bool) : remaining edges (s.write e.target whole) ≤ remaining edges s := by
  have hfresh := fun h : e.target ∉ s.aliases => unseen_cons_lt he h
  have hpromoted := fun h : e.target ∉ s.identities => unseen_cons_lt he h
  unfold remaining write
  by_cases halias : e.target ∈ s.aliases
  · by_cases hidentity : whole ∧ e.target ∉ s.identities
    · have := hpromoted hidentity.2
      simp [halias, hidentity]
      omega
    · simp [halias, hidentity]
  · have := hfresh halias
    by_cases hidentity : whole ∧ e.target ∉ s.identities
    · have := hpromoted hidentity.2
      simp [halias, hidentity]
      omega
    · simp [halias, hidentity]
      omega

/-- Looking at a slot uses up an edge for every time that a slot is put on the list. -/
theorem remaining_follow_le {edges order : List Edge} (horder : ∀ e ∈ order, e ∈ edges)
    (s : Tracing) (slot : Slot) : remaining edges (follow order s slot) ≤ remaining edges s := by
  unfold follow
  generalize (decide (slot ∈ s.identities) : Bool) = holds
  have hleaving : ∀ e ∈ order.filter fun e => e.source = slot, e ∈ edges := fun e he =>
    horder e (List.mem_filter.1 he).1
  generalize (order.filter fun e => e.source = slot) = leaving at hleaving
  induction leaving generalizing s with
  | nil => exact Nat.le_refl _
  | cons e leaving ih =>
    exact Nat.le_trans (ih _ fun d hd => hleaving d (List.mem_cons_of_mem _ hd))
      (remaining_write_le (hleaving e List.mem_cons_self) s _)

/-- Looks at slots until none is left. -/
def run (edges : List Edge) (s : Tracing) : Tracing :=
  match _h : s.pending with
  | [] => s
  | slot :: rest => run edges (follow edges { s with pending := rest } slot)
termination_by remaining edges s
decreasing_by
  have := remaining_follow_le (fun (e : Edge) (he : e ∈ edges) => he)
    { s with pending := rest } slot
  simp only [remaining, _h, List.length_cons] at this ⊢
  omega

end Tracing

/-- Traces the exception caught as `caught` through `body`. -/
def trace (body : NodeId) (caught : String) : CauseFlow :=
  let locals := localsOf t body caught
  let final := Tracing.run (edgesOf t locals body) (.start caught)
  { locals
    throws := (t.descendants body).filter fun i => t.kind i == .throwStmt
    aliases := final.aliases
    identities := final.identities }

/-- Whether an expression mentions an alias. -/
def mentionsAlias (flow : CauseFlow) (expr : NodeId) : Bool :=
  (t.subtree expr).any fun i =>
    t.kind i == .ident && t.isValueReference i &&
      (slotsOf t flow.locals i).any flow.aliases.contains

/-- The throw statements whose expressions mention no alias. -/
def unrelatedThrows (flow : CauseFlow) : List NodeId :=
  flow.throws.filter fun i => (t.thrownExpression i).any fun expr => !flow.mentionsAlias t expr

/-- Whether an expression reads the exception itself. -/
def rethrowsCaught (flow : CauseFlow) (expr : NodeId) : Bool :=
  (t.kind expr == .ident || t.kind expr == .fieldAccess) &&
    (slotsOf t flow.locals expr).any flow.identities.contains

/-- The name that a catch clause catches and its body, if it has both. -/
def clauseParts (i : NodeId) : Option (String × NodeId) :=
  match (t.child i .catchParam).bind t.name, t.child i .block with
  | some caught, some body => some (caught, body)
  | _, _ => none

end CauseFlow

end SdkLint
