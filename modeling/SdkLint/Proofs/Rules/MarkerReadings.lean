import SdkLint.Proofs.Tree.AddedComments
import SdkLint.Proofs.Tree.Building
import SdkLint.Rules.ClientShape

/-!
# Markers with comments in them

What comments among the arguments of an annotation do to the values of its elements.  The first
argument that settles the search for an element stays the same one.  The value of a pair is read
right behind the key, or behind the equals sign, which is no node of a tree: a comment that stands
there is taken for the value, and all other comments change nothing.

Main definitions:

- `Tree.settling`: the argument of an annotation that settles the search for an element.
- `Tree.CommentBehindKey`: a comment that stands where the value of an element is read.
- `ClientShape.ReadAlike`: what it means that comments in a marker do not show, unless they stand in
  the place of a value.

Main results:

- Theorem `Tree.annotationValue_eq`: the value of an element is what the settling argument gives.
- Theorem `ClientShape.readAlike_of_commentsAdded`: the values of a marker, and what the rule for
  service clients makes of them, with comments and without them.
-/

namespace SdkLint

namespace Tree

/-! ## The argument that settles a search -/

/-- Whether the search for an element ends at an argument: a pair with this key or without any part,
or for `value` whatever else is no comment. -/
def settles (t : Tree) (key : String) (arg : NodeId) : Bool :=
  if t.kind arg == .elementValuePair then
    (t.children arg).head?.all fun name => t.token name == some key
  else key == "value" && t.kind arg != .comment

/-- The value that an argument gives: in a pair, what stands behind the key. -/
def givenBy (t : Tree) (arg : NodeId) : Option NodeId :=
  if t.kind arg == .elementValuePair then (t.children arg)[1]? else some arg

/-- The argument of an annotation that settles the search for an element. -/
def settling (t : Tree) (a : NodeId) (key : String) : Option NodeId :=
  (t.child a .argumentList).bind fun args => (t.children args).find? (t.settles key)

theorem elementValue_eq (t : Tree) (key : String) (args : List NodeId) :
    t.elementValue key args = (args.find? (t.settles key)).bind t.givenBy := by
  induction args with
  | nil => rfl
  | cons arg rest ih =>
      rw [elementValue, List.find?_cons, settles]
      by_cases hpair : t.kind arg == .elementValuePair
      · rw [if_pos hpair, if_pos hpair]
        rcases hparts : t.children arg with _ | ⟨name, parts⟩
        · simp [givenBy, hpair, hparts]
        · by_cases hkey : t.token name == some key
          · simp [givenBy, hpair, hparts, hkey, List.head?_eq_getElem?]
          · simp [hkey, ih]
      · rw [if_neg hpair, if_neg hpair]
        by_cases hsingle : (key == "value" && t.kind arg != .comment) = true
        · rw [if_pos hsingle, hsingle]
          simp [givenBy, hpair]
        · rw [if_neg hsingle, Bool.eq_false_of_not_eq_true hsingle]
          exact ih

/-- The value of an element is what the settling argument gives. -/
theorem annotationValue_eq (t : Tree) (a : NodeId) (key : String) :
    t.annotationValue a key = (t.settling a key).bind t.givenBy := by
  rw [annotationValue, settling, Option.bind_assoc]
  exact congrArg _ (funext fun args => t.elementValue_eq key (t.children args))

variable {t t' : Tree} {a : Nat} {f : Nat → Nat}

theorem of_settling {key : String} {arg : Nat} (harg : t.settling a key = some arg) :
    ∃ args, t.child a .argumentList = some args ∧ arg ∈ t.children args := by
  obtain ⟨args, hargs, hfound⟩ := Option.bind_eq_some_iff.1 harg
  exact ⟨args, hargs, List.mem_of_find?_eq_some hfound⟩

/-- A comment that was added where the value of an element is read: right behind the key of the pair
that settles the search. -/
def CommentBehindKey (t t' : Tree) (a : NodeId) (f : Nat → Nat) (key : String) (c : NodeId) :
    Prop :=
  ∃ arg, t.settling a key = some arg ∧ t.kind arg = .elementValuePair ∧
    (t'.children (f arg))[1]? = some c ∧ ¬ t.Keeps f c

namespace CommentsAdded

variable (h : t.CommentsAdded t' a f)
include h

/-- Comments settle no search, and other arguments settle the same searches. -/
theorem settling_eq (key : String) : t'.settling (f a) key = (t.settling a key).map f := by
  rw [settling, settling, h.child_eq h.annotation_lt_size (by decide)]
  rcases hlist : t.child a .argumentList with _ | args
  · rfl
  · have hargs : args < t.size := t.lt_size_of_mem_children (List.mem_of_find?_eq_some hlist)
    refine h.find?_children hargs ?_ ?_
    · intro arg harg
      have hlt : arg < t.size := t.lt_size_of_mem_children harg
      rw [settles, settles, h.kind arg hlt]
      by_cases hpair : t.kind arg = .elementValuePair
      · rw [hpair, h.head?_children hpair]
        rcases hparts : t.children arg with _ | ⟨name, parts⟩
        · rfl
        · have hname : name < t.size :=
            t.lt_size_of_mem_children (by simp [hparts] : name ∈ t.children arg)
          simp [h.token name hname]
      · simp [hpair]
    · intro c hc hadded
      simp [settles, h.kind_of_added hc hadded]

/-- A comment behind the key is taken for the value. -/
theorem annotationValue_of_commentBehindKey {key : String} {c : Nat}
    (hc : CommentBehindKey t t' a f key c) : t'.annotationValue (f a) key = some c := by
  obtain ⟨arg, harg, hpair, hsecond, _⟩ := hc
  have hkind : t'.kind (f arg) = .elementValuePair := by
    rw [h.kind arg (lt_size_of_kind (by simp [hpair])), hpair]
  rw [annotationValue_eq, h.settling_eq, harg]
  simp [givenBy, hkind, hsecond]

/-- Without a comment behind the key the value is the same node. -/
theorem annotationValue_of_no_comment {key : String}
    (hnone : ∀ c, ¬ CommentBehindKey t t' a f key c) :
    t'.annotationValue (f a) key = (t.annotationValue a key).map f := by
  rw [annotationValue_eq, annotationValue_eq, h.settling_eq]
  rcases harg : t.settling a key with _ | arg
  · rfl
  · obtain ⟨args, _, hmem⟩ := of_settling harg
    rw [Option.map_some, Option.bind_some, Option.bind_some, givenBy, givenBy,
      h.kind arg (t.lt_size_of_mem_children hmem)]
    by_cases hpair : t.kind arg = .elementValuePair
    · have hsecond : ∀ c, (t'.children (f arg))[1]? = some c → t.Keeps f c := by
        intro c hc
        by_contra hadded
        exact hnone c ⟨arg, harg, hpair, hc, hadded⟩
      rw [hpair]
      exact h.second_child_eq hpair hsecond
    · simp [hpair]

end CommentsAdded

/-! ## The text of a value -/

/-- A value is an argument itself or stands in a pair among the arguments. -/
theorem of_annotationValue {key : String} {v : Nat} (hv : t.annotationValue a key = some v) :
    ∃ args arg, t.child a .argumentList = some args ∧ arg ∈ t.children args ∧
      (t.kind arg = .elementValuePair ∧ v ∈ t.children arg ∨
        t.kind arg ≠ .elementValuePair ∧ v = arg) := by
  rw [annotationValue_eq] at hv
  obtain ⟨arg, harg, hgiven⟩ := Option.bind_eq_some_iff.1 hv
  obtain ⟨args, hargs, hmem⟩ := of_settling harg
  refine ⟨args, arg, hargs, hmem, ?_⟩
  rw [givenBy] at hgiven
  by_cases hpair : t.kind arg = .elementValuePair
  · rw [hpair] at hgiven
    exact Or.inl ⟨hpair, List.mem_of_getElem? hgiven⟩
  · rw [if_neg (by simpa using hpair)] at hgiven
    exact Or.inr ⟨hpair, (Option.some.inj hgiven).symm⟩

/-- A value comes after the list of arguments and takes no comments itself. -/
theorem value_place {key : String} {v : Nat} (hv : t.annotationValue a key = some v) :
    ∃ args, t.child a .argumentList = some args ∧ args < v ∧ v < t.size ∧
      v ∉ t.argumentNodes a := by
  obtain ⟨args, arg, hargs, harg, hvalue⟩ := of_annotationValue hv
  have hlt : args < arg := t.lt_of_mem_children harg
  refine ⟨args, hargs, ?_⟩
  rcases hvalue with ⟨_, hmem⟩ | ⟨hkind, rfl⟩
  · have hltv : arg < v := t.lt_of_mem_children hmem
    refine ⟨Nat.lt_trans hlt hltv, t.lt_size_of_mem_children hmem, fun hplace => ?_⟩
    rcases (mem_argumentNodes_iff_of_child hargs).1 hplace with rfl | ⟨hchild, _⟩
    · exact Nat.lt_irrefl _ (Nat.lt_trans hlt hltv)
    · -- The value would hang from the list of arguments and from a pair in it.
      have hsame : some arg = some args :=
        (t.mem_children.1 hmem).symm.trans (t.mem_children.1 hchild)
      exact Nat.ne_of_lt hlt (Option.some.inj hsame).symm
  · refine ⟨hlt, t.lt_size_of_mem_children harg, fun hplace => ?_⟩
    rcases (mem_argumentNodes_iff_of_child hargs).1 hplace with rfl | ⟨_, hpair⟩
    · exact Nat.lt_irrefl _ hlt
    · exact hkind hpair

namespace CommentsAdded

variable (h : t.CommentsAdded t' a f)
include h

/-- Going up from a node that takes comments leads to the list of arguments at once. -/
theorem le_of_mem_ancestors {args p x : Nat} (hargs : t.child a .argumentList = some args)
    (hp : p ∈ t.argumentNodes a) (hx : x ∈ t'.ancestors (f p)) : x ≤ f args := by
  rcases (mem_argumentNodes_iff_of_child hargs).1 hp with rfl | ⟨hchild, _⟩
  · exact Nat.le_of_lt (lt_of_mem_ancestors hx)
  · have hparent : t'.parent (f p) = some (f args) := by
      rw [h.parent p (t.lt_size_of_mem_children hchild), t.mem_children.1 hchild, Option.map_some]
    rw [ancestors_of_parent hparent] at hx
    exact le_of_mem_lineage hx

/-- No comment is added inside a value, so that its text stays. -/
theorem text_eq_of_value {key : String} {v : Nat} (hv : t.annotationValue a key = some v) :
    t'.text (f v) = t.text v := by
  obtain ⟨args, hargs, hlt, hsize, hnot⟩ := value_place hv
  refine h.text v hsize fun j hj hadded hmem => ?_
  obtain ⟨_, p, hp, hparent, _⟩ := h.added j hj hadded
  rw [ancestors_of_parent hparent] at hmem
  rcases List.mem_cons.1 hmem with heq | habove
  · have hvp : v = p := h.inj hsize (lt_size_of_mem_argumentNodes hp) heq
    rw [hvp] at hnot
    exact hnot hp
  · have hle : f v ≤ f args := h.le_of_mem_ancestors hargs hp habove
    exact Nat.not_lt_of_le hle (h.inOrder v hsize args hlt)

/-- What is read off the text of a value is the same without a comment behind the key. -/
theorem map_annotationValue_of_no_comment {α : Type} (read : String → α) {key : String}
    (hnone : ∀ c, ¬ CommentBehindKey t t' a f key c) :
    (t'.annotationValue (f a) key).map (fun v => read (t'.text v)) =
      (t.annotationValue a key).map fun v => read (t.text v) := by
  rw [h.annotationValue_of_no_comment hnone]
  rcases hv : t.annotationValue a key with _ | v
  · rfl
  · simp only [Option.map_some, h.text_eq_of_value hv]

end CommentsAdded

end Tree

/-! ## What the rule for service clients reads -/

namespace ClientShape

open SdkLint.Tree

variable {t t' : Tree} {a : Nat} {f : Nat → Nat}

/-- What the rule for service clients reads off a marker `a` is the same in a tree with comments
among its arguments, unless a comment stands in the place of a value. -/
structure ReadAlike (t t' : Tree) (a : Nat) (f : Nat → Nat) : Prop where
  /-- The value of an element is the same node. -/
  value_iff : ∀ key, t'.annotationValue (f a) key = (t.annotationValue a key).map f ↔
    ∀ c, ¬ CommentBehindKey t t' a f key c
  /-- Where a comment stands in its place, the comment is the value. -/
  comment : ∀ key c, CommentBehindKey t t' a f key c → t'.annotationValue (f a) key = some c
  /-- The client is of the same flavor. -/
  flavor : ∀ o i, t.annotationNamed i o.marker = some a →
    (∀ c, ¬ CommentBehindKey t t' a f "isAsync" c) → clientFlavor o t' (f i) = clientFlavor o t i
  flavor_comment : ∀ o i c, t.annotationNamed i o.marker = some a →
    CommentBehindKey t t' a f "isAsync" c →
    clientFlavor o t' (f i) = some (Text.trim (t'.text c) == "true")
  /-- The sort of the results of an operation is given by the same constant. -/
  returns : (∀ c, ¬ CommentBehindKey t t' a f "returns" c) →
    (t'.annotationValue (f a) "returns").map t'.enumConstant =
      (t.annotationValue a "returns").map t.enumConstant

theorem lt_size_of_annotationNamed {i : Nat} {name : String}
    (h : t.annotationNamed i name = some a) : i < t.size := by
  by_contra hi
  have hnil : t.children i = [] := t.children_eq_nil (Nat.le_of_not_lt hi)
  simp [annotationNamed, annotations, modifiers, child, hnil] at h

theorem clientFlavor_eq {o : Options} {i : Nat} (h : t.annotationNamed i o.marker = some a) :
    clientFlavor o t i =
      some (((t.annotationValue a "isAsync").map fun v => Text.trim (t.text v)) ==
        some "true") := by
  rw [clientFlavor, h, Option.map_some]
  rcases t.annotationValue a "isAsync" with _ | v
  · rfl
  · rw [Option.any_some, Option.map_some, Option.some_beq_some]

/-- Comments among the arguments of a marker do not show, unless one stands in the place of a
value. -/
theorem readAlike_of_commentsAdded (h : t.CommentsAdded t' a f) : ReadAlike t t' a f := by
  have hnamed : ∀ (o : Options) (i : Nat), t.annotationNamed i o.marker = some a →
      t'.annotationNamed (f i) o.marker = some (f a) := by
    intro o i hi
    rw [h.annotationNamed_eq (lt_size_of_annotationNamed hi), hi, Option.map_some]
  refine
    { value_iff := fun key => ⟨fun heq c hc => ?_, h.annotationValue_of_no_comment⟩
      comment := fun key c => h.annotationValue_of_commentBehindKey
      flavor := fun o i hi hnone => ?_
      flavor_comment := fun o i c hi hc => ?_
      returns := h.map_annotationValue_of_no_comment fun text =>
        String.ofList (Text.afterLast '.' (Text.trimBoth text.toList)) }
  · rw [h.annotationValue_of_commentBehindKey hc] at heq
    obtain ⟨v, hv, hsame⟩ := Option.map_eq_some_iff.1 heq.symm
    obtain ⟨_, _, _, hsize, _⟩ := value_place hv
    obtain ⟨_, _, _, _, hadded⟩ := hc
    exact hadded ⟨v, hsize, hsame⟩
  · rw [clientFlavor_eq hi, clientFlavor_eq (hnamed o i hi),
      h.map_annotationValue_of_no_comment Text.trim hnone]
  · rw [clientFlavor_eq (hnamed o i hi), h.annotationValue_of_commentBehindKey hc,
      Option.map_some, Option.some_beq_some]

/-! ## A marker with comments -/

/-- The text `true`, from an offset on. -/
def trueAt (start : Nat) : Outline :=
  .node .literal ⟨start, start + 4⟩ ⟨1, start + 1⟩ (some "true") []

/-- A comment of seven characters, from an offset on. -/
def commentAt (start : Nat) : Outline :=
  .node .comment ⟨start, start + 7⟩ ⟨1, start + 1⟩ none []

/-- A client that says in its marker whether it is asynchronous. -/
def markedClient (source : String) (before value : List Outline) : Tree :=
  let pair : Outline := .sketch .elementValuePair none (.sketchName "isAsync" :: value)
  (Outline.sketch .classDef none
    [.sketch .modifiers none
      [.sketch .annotationUse (some "ServiceClient")
        [.sketch .argumentList none (before ++ [pair])]],
      .sketchName "A"]).toTree source

def plainClient : Tree :=
  markedClient "@ServiceClient(isAsync = true) class A {}" [] [trueAt 25]

def commentedClient : Tree :=
  markedClient "@ServiceClient(/* a */ isAsync = true /* b */) class A {}" [commentAt 15]
    [trueAt 33, commentAt 38]

def misreadClient : Tree :=
  markedClient "@ServiceClient(isAsync = /* c */ true) class A {}" [] [commentAt 25, trueAt 33]

theorem commentsAdded_commentedClient :
    plainClient.CommentsAdded commentedClient 2 fun i =>
      if i < 4 then i else if i < 7 then i + 1 else i + 2 where
  annotation := by decide +kernel
  lt_size := by decide +kernel
  inOrder := by decide +kernel
  kind := by decide +kernel
  token := by decide +kernel
  parent := by decide +kernel
  added := by decide +kernel
  text := by decide +kernel

theorem commentsAdded_misreadClient :
    plainClient.CommentsAdded misreadClient 2 fun i => if i < 6 then i else i + 1 where
  annotation := by decide +kernel
  lt_size := by decide +kernel
  inOrder := by decide +kernel
  kind := by decide +kernel
  token := by decide +kernel
  parent := by decide +kernel
  added := by decide +kernel
  text := by decide +kernel

/-- The client is an asynchronous one with comments before the argument and behind the value, and is
taken for a synchronous one with a comment behind the key. -/
theorem markedClient_readAlike :
    clientFlavor {} plainClient 0 = some true ∧ clientFlavor {} commentedClient 0 = some true ∧
      clientFlavor {} misreadClient 0 = some false := by
  have hmarker : plainClient.annotationNamed 0 ({} : Options).marker = some 2 := by decide +kernel
  have hplain : clientFlavor {} plainClient 0 = some true := by decide +kernel
  have hcommented := readAlike_of_commentsAdded commentsAdded_commentedClient
  have hmisread := readAlike_of_commentsAdded commentsAdded_misreadClient
  refine ⟨hplain, ?_, ?_⟩
  · have hvalue := (hcommented.value_iff "isAsync").1 (by decide +kernel)
    exact (hcommented.flavor {} 0 hmarker hvalue).trans hplain
  · have hflavor := hmisread.flavor_comment {} 0 6 hmarker
      ⟨4, by decide +kernel, by decide +kernel, by decide +kernel, by decide +kernel⟩
    exact hflavor.trans (by decide +kernel)

end ClientShape

end SdkLint
