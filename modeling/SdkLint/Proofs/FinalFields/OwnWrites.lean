import SdkLint.Proofs.FinalFields.Writes
import SdkLint.Proofs.Java.Places

/-!
# Writes to fields of the current object

Inside a callable, a write to `this.x` goes to the last candidate `x` of the innermost type
declaration.  So the callables of a class do not write to `this.x` if `x` is reported as never
reassigned.  Initializer blocks, and lambdas in the initializers of fields, are no callables and may
do so.

The body of an anonymous class is no type declaration: inside, `this.x` is taken for the field `x`
of the class around it.  So a field that only constructors write is reported, unless a method of an
anonymous class writes to `this.x`.

Main definitions:

- `NeverReassignedIsSound`: nothing in a class writes to `this.x` if `x` is reported as never
  reassigned.
- `InConstructorOf`, `InAnonymousMethod`: where a write stands.
- `OnlyConstructed`: a field is written in its constructors, and anything else that is written by
  its name belongs to an anonymous class.

Main results:

- Theorem `neverReassigned_unwritten`: callables do not write to `this.x` if `x` is reported as
  never reassigned.
- Theorem `not_neverReassignedIsSound`: other parts of a class may do so.
- Theorem `onlyConstructed_reported`: when a field that only constructors write is reported.
-/

namespace SdkLint

/-- The body of an anonymous class: it belongs neither to a type declaration nor to another body. -/
def Tree.isAnonymousBody (t : Tree) (i : NodeId) : Bool :=
  t.kind i == .classBody &&
    (t.parent i).any fun p => !(t.kind p).isTypeDeclaration && t.kind p != .classBody

namespace FinalFields

variable {o : Options} {t : Tree} {w owner d : Nat} {x : String}

/-! ## Attribution -/

/-- In a callable, a write to `this.x` with a type declaration as the innermost one around it is
attributed to the last candidate `x` of this type declaration. -/
theorem attribution_of_innermost {callable : Nat} {kind : CallableKind} (h : WritesThis t w x)
    (hcallable : t.callableAround w = some (callable, kind))
    (howner : (t.typesAround w).head? = some owner) (hlast : lastNamed o t x owner = some d) :
    attribution o t w = some (d, kind) := by
  rw [attribution_of_writesThis h hcallable, howner, Option.bind_some, hlast, Option.map_some]

/-! ## Fields that are never reassigned -/

section NeverReassigned

variable {rules : List ActiveRule} {place : Nat} {severity : Severity}

/-- No callable writes to `this.x`, with a type declaration as the innermost one around it, if the
last candidate `x` of this type declaration is reported as never reassigned. -/
theorem neverReassigned_unwritten (hrule : rules[place]? = some ⟨rule o, severity⟩)
    (input : WalkInput) :
    findingsAt rules input place =
        (candidateDeclarators o input.tree).filterMap (expected o input.tree) ∧
      ∀ owner d x, lastNamed o input.tree x owner = some d →
        expected o input.tree d = some (neverReassigned input.tree d) →
        ∀ w, WritesThis input.tree w x → (input.tree.typesAround w).head? = some owner →
          input.tree.callableAround w = none := by
  refine ⟨findingsAt_eq hrule input, fun owner d x hlast hreported w hwrites howner => ?_⟩
  cases hcallable : input.tree.callableAround w with
  | none => rfl
  | some around =>
      obtain ⟨callable, kind⟩ := around
      have hattr := attribution_of_innermost hwrites hcallable howner hlast
      exact absurd hattr (attribution_ne_of_neverReassigned hreported w kind)

/-- Nothing that stands directly in a type declaration, however deep in it, writes to `this.x` if
the field `x` is reported as never reassigned. -/
def NeverReassignedIsSound (o : Options) (t : Tree) : Prop :=
  ∀ owner d x w, d ∈ declaratorsOf o t owner → t.name d = some x →
    expected o t d = some (neverReassigned t d) →
    (t.ancestors w).find? (fun j => (t.kind j).isTypeDeclaration || t.isAnonymousBody j) =
      some owner →
    ¬ WritesThis t w x

/-- A class that writes one of its fields in an initializer block, and in a method one that is
declared again after its initializer. -/
def reassignedText : String :=
  "class A \x7b int f = 1, g = 1, g; \x7b this.f = 2; \x7d void m() \x7b this.g = 2; \x7d \x7d"

def reassignedRows : List Java.Concrete.Row :=
  let node (depth : Nat) (kind : String) (start stop : Nat) (role : Option String := none) :
      Java.Concrete.Row :=
    { depth, kind, start, stop, field := role }
  let sign (depth : Nat) (kind : String) (start : Nat) (role : Option String := none) :
      Java.Concrete.Row :=
    { depth, kind, start, stop := start + kind.length, named := false, field := role }
  [node 0 "program" 0 73, node 1 "class_declaration" 0 73, sign 2 "class" 0,
    node 2 "identifier" 6 7 (some "name"), node 2 "class_body" 8 73, sign 3 "\x7b" 8,
    node 3 "field_declaration" 10 30, node 4 "integral_type" 10 13, sign 5 "int" 10,
    node 4 "variable_declarator" 14 19, node 5 "identifier" 14 15 (some "name"), sign 5 "=" 16,
    node 5 "decimal_integer_literal" 18 19, sign 4 "," 19, node 4 "variable_declarator" 21 26,
    node 5 "identifier" 21 22 (some "name"), sign 5 "=" 23,
    node 5 "decimal_integer_literal" 25 26, sign 4 "," 26, node 4 "variable_declarator" 28 29,
    node 5 "identifier" 28 29 (some "name"), sign 4 ";" 29, node 3 "block" 31 46,
    sign 4 "\x7b" 31, node 4 "expression_statement" 33 44, node 5 "assignment_expression" 33 43,
    node 6 "field_access" 33 39, node 7 "this" 33 37, sign 7 "." 37,
    node 7 "identifier" 38 39 (some "field"), sign 6 "=" 40 (some "operator"),
    node 6 "decimal_integer_literal" 42 43, sign 5 ";" 43, sign 4 "\x7d" 45,
    node 3 "method_declaration" 47 71, node 4 "void_type" 47 51,
    node 4 "identifier" 52 53 (some "name"), node 4 "formal_parameters" 53 55, sign 5 "(" 53,
    sign 5 ")" 54, node 4 "block" 56 71, sign 5 "\x7b" 56, node 5 "expression_statement" 58 69,
    node 6 "assignment_expression" 58 68, node 7 "field_access" 58 64, node 8 "this" 58 62,
    sign 8 "." 62, node 8 "identifier" 63 64 (some "field"), sign 7 "=" 65 (some "operator"),
    node 7 "decimal_integer_literal" 67 68, sign 6 ";" 68, sign 5 "\x7d" 70, sign 3 "\x7d" 72]

def reassignedConcrete : Java.Concrete :=
  (Java.Concrete.ofRows? reassignedText reassignedRows false).get (by decide +kernel)

def reassignedInput : WalkInput where
  file := .ofPath "A.java" reassignedText ""
  tree := (Java.treeOf? reassignedConcrete reassignedText).get (by decide +kernel)
  resolver := fun _ => none

/-- The class writes to the fields `f` and `g`. -/
theorem reassignedInput_writes :
    WritesThis reassignedInput.tree 16 "f" ∧ WritesThis reassignedInput.tree 27 "g" := by
  have htargets :
      (Writes reassignedInput.tree 16 17 ∧ reassignedInput.tree.kind 17 = .fieldAccess ∧
          reassignedInput.tree.token 17 = some "f" ∧
          (reassignedInput.tree.children 17).head? = some 18 ∧
          reassignedInput.tree.kind 18 = .thisRef) ∧
        (Writes reassignedInput.tree 27 28 ∧ reassignedInput.tree.kind 28 = .fieldAccess ∧
          reassignedInput.tree.token 28 = some "g" ∧
          (reassignedInput.tree.children 28).head? = some 29 ∧
          reassignedInput.tree.kind 29 = .thisRef) := by
    decide +kernel
  exact ⟨⟨17, 18, htargets.1⟩, ⟨28, 29, htargets.2⟩⟩

/-- The first field is reported although an initializer block writes to it, which is not in a
callable. -/
theorem reassignedInput_unwritten :
    [ActiveRule.mk (rule {}) .error][0]? = some ⟨rule {}, .error⟩ ∧
      lastNamed {} reassignedInput.tree "f" 1 = some 6 ∧
      expected {} reassignedInput.tree 6 = some (neverReassigned reassignedInput.tree 6) ∧
      WritesThis reassignedInput.tree 16 "f" ∧
      (reassignedInput.tree.typesAround 16).head? = some 1 ∧
      reassignedInput.tree.callableAround 16 = none := by
  have hrule : [ActiveRule.mk (rule {}) .error][0]? = some ⟨rule {}, .error⟩ := rfl
  obtain ⟨hlast, hreported, howner⟩ :
      lastNamed {} reassignedInput.tree "f" 1 = some 6 ∧
        expected {} reassignedInput.tree 6 = some (neverReassigned reassignedInput.tree 6) ∧
        (reassignedInput.tree.typesAround 16).head? = some 1 := by
    decide +kernel
  have hwrites := reassignedInput_writes.1
  exact ⟨hrule, hlast, hreported, hwrites, howner,
    (neverReassigned_unwritten hrule reassignedInput).2 1 6 "f" hlast hreported 16 hwrites howner⟩

/-- Writes outside of callables do not count, and a write in a callable counts for the last field of
the name only.  So two fields are reported as never reassigned that are written. -/
theorem not_neverReassignedIsSound :
    Java.parse reassignedConcrete reassignedText = .ok reassignedInput.tree ∧
      findingsAt [⟨rule {}, .error⟩] reassignedInput 0 =
        [neverReassigned reassignedInput.tree 6, neverReassigned reassignedInput.tree 9] ∧
      (WritesThis reassignedInput.tree 16 "f" ∧
        reassignedInput.tree.callableAround 16 = none) ∧
      (WritesThis reassignedInput.tree 27 "g" ∧
        reassignedInput.tree.callableAround 27 = some (21, .method) ∧
        lastNamed {} reassignedInput.tree "g" 1 = some 12) ∧
      ¬ NeverReassignedIsSound {} reassignedInput.tree := by
  have hparse : Java.parse reassignedConcrete reassignedText = .ok reassignedInput.tree :=
    Java.parse_of_treeOf? (Option.some_get (by decide +kernel)).symm
  have hrule : [ActiveRule.mk (rule {}) .error][0]? = some ⟨rule {}, .error⟩ := rfl
  obtain ⟨hreports, hdeclared, hname, hreported, hdirect, hnone, hsome⟩ :
      (candidateDeclarators {} reassignedInput.tree).filterMap (expected {} reassignedInput.tree) =
          [neverReassigned reassignedInput.tree 6, neverReassigned reassignedInput.tree 9] ∧
        6 ∈ declaratorsOf {} reassignedInput.tree 1 ∧ reassignedInput.tree.name 6 = some "f" ∧
        expected {} reassignedInput.tree 6 = some (neverReassigned reassignedInput.tree 6) ∧
        (reassignedInput.tree.ancestors 16).find? (fun j =>
            (reassignedInput.tree.kind j).isTypeDeclaration ||
              reassignedInput.tree.isAnonymousBody j) = some 1 ∧
        reassignedInput.tree.callableAround 16 = none ∧
        reassignedInput.tree.callableAround 27 = some (21, .method) ∧
        lastNamed {} reassignedInput.tree "g" 1 = some 12 := by
    decide +kernel
  obtain ⟨hf, hg⟩ := reassignedInput_writes
  refine ⟨hparse, (findingsAt_eq hrule reassignedInput).trans hreports, ⟨hf, hnone⟩, ⟨hg, hsome⟩,
    fun hsound => ?_⟩
  exact hsound 1 6 "f" 16 hdeclared hname hreported hdirect hf

end NeverReassigned

/-! ## Fields that only constructors write -/

/-- A node stands directly in a constructor of a type declaration: no other callable, type
declaration or class body is nearer. -/
def InConstructorOf (t : Tree) (w owner : NodeId) : Prop :=
  ∃ ctor ∈ t.members owner, t.kind ctor = .ctorDef ∧
    (t.ancestors w).find? (fun j => (t.kind j).endsCallableSearch || t.kind j == .classBody) =
      some ctor

/-- A node stands in a method of an anonymous class with a field of a name. -/
def InAnonymousMethod (t : Tree) (w : NodeId) (x : String) : Prop :=
  ∃ method body, method ∈ t.ancestors w ∧ t.kind method = .methodDef ∧
    method ∈ t.children body ∧ t.isAnonymousBody body = true ∧
    ∃ field ∈ t.childrenOf body .fieldDef, ∃ d ∈ t.childrenOf field .varDeclarator,
      t.name d = some x

/-- The only candidate of a name is assigned directly in a constructor, and whatever else is written
by its name is written as `this.x` directly in a constructor, or in a method of an anonymous class
with a field of the name. -/
structure OnlyConstructed (o : Options) (t : Tree) (owner d : NodeId) (x : String) : Prop where
  declared : d ∈ declaratorsOf o t owner
  named : t.name d = some x
  once : ∀ d' ∈ declaratorsOf o t owner, t.name d' = some x → d' = d
  assigned : ∃ w, t.kind w = .assign ∧ WritesThis t w x ∧ InConstructorOf t w owner
  others : ∀ w, WritesNamed t w x →
    WritesThis t w x ∧ (InConstructorOf t w owner ∨ InAnonymousMethod t w x)

/-- Around a write directly in a constructor of a type declaration there are this constructor and
this type declaration. -/
theorem around_of_inConstructorOf (h : InConstructorOf t w owner)
    (hwrite : t.kind w = .assign ∨ t.kind w = .update)
    (howner : (t.kind owner).isTypeDeclaration = true) :
    (∃ ctor, t.callableAround w = some (ctor, .constructor)) ∧
      (t.typesAround w).head? = some owner := by
  obtain ⟨ctor, hmember, hkind, hfind⟩ := h
  have hends : (t.kind w).endsCallableSearch = false := by
    rcases hwrite with h | h <;> rw [h] <;> rfl
  have hcallable : t.callableAround w = some (ctor, .constructor) := by
    have hctor : (t.kind ctor).endsCallableSearch = true := by rw [hkind]; rfl
    rw [Tree.callableAround_eq_of_not_ends hends, Tree.callableIn,
      find?_of_imp hfind hctor fun j hj => by rw [hj, Bool.true_or], Option.bind_some, hkind]
    rfl
  refine ⟨⟨ctor, hcallable⟩, ?_⟩
  rw [Tree.head?_typesAround_of_callableAround hcallable]
  exact Tree.head?_typesAround_of_mem_members hmember howner (by rw [hkind]; rfl)

/-- A candidate that is written in a constructor and in no method is reported as such. -/
theorem expected_of_no_method (hconstructor : ∃ w, attribution o t w = some (d, .constructor))
    (hmethod : ∀ w, attribution o t w ≠ some (d, .method)) :
    expected o t d = some (constructorOnly t d) := by
  refine if_pos ⟨mem_sortsAmong.2 hconstructor, fun hmem => ?_⟩
  obtain ⟨w, hattr⟩ := mem_sortsAmong.1 hmem
  exact hmethod w hattr

/-- A candidate that is written in a method is not reported. -/
theorem expected_of_method (hmethod : attribution o t w = some (d, .method)) :
    expected o t d = none := by
  have hmem := mem_sortsAmong.2 ⟨w, hmethod⟩
  rw [expected_eq, expectedAmong, if_neg fun h => h.2 hmem, if_neg fun h => ?_]
  rw [h.2] at hmem
  cases hmem

section OnlyConstructed

variable {rules : List ActiveRule} {place : Nat} {severity : Severity} {input : WalkInput}

theorem OnlyConstructed.isTypeDeclaration (h : OnlyConstructed o t owner d x) :
    (t.kind owner).isTypeDeclaration = true := by
  obtain ⟨hkind, -⟩ := mem_declaratorsOf.1 h.declared
  rcases hkind with hkind | hkind <;> rw [hkind] <;> rfl

/-- The writes that are attributed to a field that only constructors write stand, with its type
declaration as the innermost one, in callables of the sort. -/
theorem OnlyConstructed.attribution_eq_iff (h : OnlyConstructed o t owner d x)
    {kind : CallableKind} :
    attribution o t w = some (d, kind) ↔
      WritesThis t w x ∧ (t.typesAround w).head? = some owner ∧
        ∃ callable, t.callableAround w = some (callable, kind) := by
  have hlast := lastNamed_of_unique h.declared h.named h.once
  constructor
  · intro hattr
    obtain ⟨callable, x', hcallable, hname, hnamed⟩ := exists_of_attribution hattr
    obtain rfl : x = x' := Option.some.inj (h.named.symm.trans hname)
    have hwrites := (h.others w hnamed).1
    rw [attribution_of_writesThis hwrites hcallable] at hattr
    obtain ⟨d', hd', heq⟩ := Option.map_eq_some_iff.1 hattr
    obtain ⟨owner', howner', hlast'⟩ := Option.bind_eq_some_iff.1 hd'
    obtain ⟨rfl, -⟩ := Prod.mk.inj heq
    rw [owner_unique h.declared (mem_of_lastNamed hlast')]
    exact ⟨hwrites, howner', callable, hcallable⟩
  · rintro ⟨hwrites, howner, callable, hcallable⟩
    exact attribution_of_innermost hwrites hcallable howner hlast

/-- A field that only constructors write is reported once, as long as all writes to `this.x` with
its type declaration as the innermost one around them stand directly in constructors.  A method of
an anonymous class that writes to `this.x` hides the finding. -/
theorem onlyConstructed_reported (hrule : rules[place]? = some ⟨rule o, severity⟩)
    (h : OnlyConstructed o input.tree owner d x) :
    findingsAt rules input place =
        (candidateDeclarators o input.tree).filterMap (expected o input.tree) ∧
      (candidateDeclarators o input.tree).count d = 1 ∧
      ((∀ w, WritesThis input.tree w x → (input.tree.typesAround w).head? = some owner →
          InConstructorOf input.tree w owner) →
        expected o input.tree d = some (constructorOnly input.tree d)) ∧
      ∀ w callable, WritesThis input.tree w x → (input.tree.typesAround w).head? = some owner →
        input.tree.callableAround w = some (callable, .method) →
        InAnonymousMethod input.tree w x ∧ expected o input.tree d = none := by
  have howner := h.isTypeDeclaration
  have hcandidate : d ∈ candidateDeclarators o input.tree := by
    obtain ⟨hkind, field, hfield, hrest⟩ := mem_declaratorsOf.1 h.declared
    exact mem_candidateDeclarators.2 ⟨owner, field, hkind, hfield, hrest⟩
  refine ⟨findingsAt_eq hrule input,
    List.count_eq_one_of_mem (nodup_candidateDeclarators o _) hcandidate, fun hdirect => ?_, ?_⟩
  · obtain ⟨w, hassign, hwrites, hin⟩ := h.assigned
    obtain ⟨hctor, htypes⟩ := around_of_inConstructorOf hin (Or.inl hassign) howner
    refine expected_of_no_method ⟨w, h.attribution_eq_iff.2 ⟨hwrites, htypes, hctor⟩⟩ ?_
    intro w' hattr
    obtain ⟨hwrites', htypes', callable, hmethod⟩ := h.attribution_eq_iff.1 hattr
    obtain ⟨⟨ctor, hctor'⟩, -⟩ := around_of_inConstructorOf (hdirect w' hwrites' htypes')
      (kind_of_attribution hattr) howner
    rw [hctor'] at hmethod
    cases hmethod
  · intro w callable hwrites htypes hmethod
    have hattr := h.attribution_eq_iff.2 ⟨hwrites, htypes, callable, hmethod⟩
    refine ⟨?_, expected_of_method hattr⟩
    rcases (h.others w hwrites.writesNamed).2 with hin | hanonymous
    · obtain ⟨⟨ctor, hctor⟩, -⟩ := around_of_inConstructorOf hin (kind_of_attribution hattr) howner
      rw [hctor] at hmethod
      cases hmethod
    · exact hanonymous

/-- A class with a field that its constructor writes.  The constructor also creates an object of an
anonymous class with a field of the same name and some methods, which write to the field of the
current object. -/
def creatingClass (methods : List NodeKind) : Outline :=
  let field : Outline := .sketch .fieldDef none [.sketch .varDeclarator none [.sketchName "f"]]
  let writing : Outline := .sketch .exprStmt none
    [.sketch .assign (some "=")
      [.sketch .fieldAccess (some "f") [.sketch .thisRef none [], .sketchName "f"],
        .sketch .literal (some "1") []]]
  let members : List Outline :=
    methods.map fun kind => .sketch kind none [.sketch .block none [writing]]
  let creating : Outline := .sketch .exprStmt none
    [.sketch .creation none [.sketch .classBody none (field :: members)]]
  .sketch .classDef none
    [.sketchName "A", .sketch .classBody none
      [field, .sketch .ctorDef none [.sketch .block none [writing, creating]]]]

def creatingInput (methods : List NodeKind) : WalkInput where
  file := .ofPath "A.java" "" ""
  tree := (creatingClass methods).toTree ""
  resolver := fun _ => none

/-- Without a method in the anonymous class the field is reported.  With one it is not, although
only the constructor writes it. -/
theorem creatingInput_reported :
    [ActiveRule.mk (rule {}) .error][0]? = some ⟨rule {}, .error⟩ ∧
      OnlyConstructed {} (creatingInput []).tree 0 4 "f" ∧
      expected {} (creatingInput []).tree 4 = some (constructorOnly (creatingInput []).tree 4) ∧
      OnlyConstructed {} (creatingInput [.methodDef]).tree 0 4 "f" ∧
      InAnonymousMethod (creatingInput [.methodDef]).tree 23 "f" ∧
      expected {} (creatingInput [.methodDef]).tree 4 = none := by
  have hrule : [ActiveRule.mk (rule {}) .error][0]? = some ⟨rule {}, .error⟩ := rfl
  have hctor : InConstructorOf (creatingInput []).tree 9 0 := ⟨6, by decide +kernel⟩
  have hwrites : WritesThis (creatingInput []).tree 9 "f" := ⟨10, 11, by decide +kernel⟩
  have hone : ∀ w ∈ List.range (creatingInput []).tree.size,
      (creatingInput []).tree.kind w = .assign ∨ (creatingInput []).tree.kind w = .update →
        w = 9 := by decide +kernel
  have hplain : OnlyConstructed {} (creatingInput []).tree 0 4 "f" :=
    { declared := by decide +kernel
      named := by decide +kernel
      once := by decide +kernel
      assigned := ⟨9, by decide +kernel, hwrites, hctor⟩
      others := by
        rintro w ⟨target, ⟨hkind, -⟩, -⟩
        obtain rfl := hone w (List.mem_range.2 (lt_size_of_write hkind)) hkind
        exact ⟨hwrites, Or.inl hctor⟩ }
  have hfirstIn : InConstructorOf (creatingInput [.methodDef]).tree 9 0 := ⟨6, by decide +kernel⟩
  have hsecondIn : InAnonymousMethod (creatingInput [.methodDef]).tree 23 "f" :=
    ⟨20, 16, by decide +kernel⟩
  have hfirst : WritesThis (creatingInput [.methodDef]).tree 9 "f" :=
    ⟨10, 11, by decide +kernel⟩
  have hsecond : WritesThis (creatingInput [.methodDef]).tree 23 "f" :=
    ⟨24, 25, by decide +kernel⟩
  have htwo : ∀ w ∈ List.range (creatingInput [.methodDef]).tree.size,
      (creatingInput [.methodDef]).tree.kind w = .assign ∨
        (creatingInput [.methodDef]).tree.kind w = .update → w = 9 ∨ w = 23 := by decide +kernel
  have hwithMethod : OnlyConstructed {} (creatingInput [.methodDef]).tree 0 4 "f" :=
    { declared := by decide +kernel
      named := by decide +kernel
      once := by decide +kernel
      assigned := ⟨9, by decide +kernel, hfirst, hfirstIn⟩
      others := by
        rintro w ⟨target, ⟨hkind, -⟩, -⟩
        rcases htwo w (List.mem_range.2 (lt_size_of_write hkind)) hkind with rfl | rfl
        · exact ⟨hfirst, Or.inl hfirstIn⟩
        · exact ⟨hsecond, Or.inr hsecondIn⟩ }
  obtain ⟨-, -, hreported, -⟩ := onlyConstructed_reported hrule hplain
  obtain ⟨-, -, -, hmissed⟩ := onlyConstructed_reported hrule hwithMethod
  refine ⟨hrule, hplain, hreported fun w hthis _ => ?_, hwithMethod, hsecondIn,
    (hmissed 23 20 hsecond (by decide +kernel) (by decide +kernel)).2⟩
  obtain ⟨target, object, ⟨hkind, -⟩, -⟩ := hthis
  obtain rfl := hone w (List.mem_range.2 (lt_size_of_write hkind)) hkind
  exact hctor

end OnlyConstructed

end FinalFields

end SdkLint
