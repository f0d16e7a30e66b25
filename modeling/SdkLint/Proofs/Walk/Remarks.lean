import SdkLint.Proofs.Walk.Emission

/-!
# What rules say

In its calls a rule says things: it reports findings, and it fails.  Put in the order of their
places, the things that the rules of a walk say determine its violations: what the directives of the
file leave of each of them is listed.

Main definitions:

- `Remark`: a thing that a rule says, and `Remark.filtered`: what directives leave of it.
- `remarks`: the things that the rules of a walk say, in the order of their places.

Main results:

- Theorem `Remark.location_of_filtered`: what directives leave stays in its place.
- Theorem `violations_eq_filterMap_remarks`: the violations of a walk are what directives leave of
  what the rules say.
-/

namespace SdkLint

/-! ## Single remarks -/

/-- A thing that a rule says. -/
inductive Remark where
  /-- The rule reports a finding. -/
  | finding (r : ActiveRule) (finding : Finding)
  /-- The rule fails at a place. -/
  | failure (r : ActiveRule) (position : Position) (failure : Failure)

namespace Remark

variable (file : FileContext)

/-- The violation for a remark where nothing is allowed. -/
def violation : Remark → Violation
  | finding r f => r.reported file f
  | failure r position e => r.absorb file position e

/-- What the directives of a content leave of the violation for a remark.  A finding stays as it is
if it is not allowed, becomes a demand for a reason if its rule asks for one and the directive has
none, and is dropped otherwise.  A failure always stays as it is. -/
def filtered (content : List Char) (m : Remark) : Option Violation :=
  let v := m.violation file
  match m with
  | finding r _ =>
    match Directive.check content v.location.line v.rule v.code with
    | .denied => some v
    | .allowed reason =>
      if r.rule.requiresReason && reason.isNone then some (r.missingReason v.location) else none
  | failure .. => some v

/-- What directives leave of a violation stays in its place. -/
theorem location_of_filtered {content : List Char} {m : Remark} {v : Violation}
    (h : m.filtered file content = some v) : v.location = (m.violation file).location := by
  cases m with
  | failure r position e =>
      obtain rfl := Option.some.inj h
      rfl
  | finding r f =>
      simp only [filtered] at h
      split at h
      · obtain rfl := Option.some.inj h
        rfl
      · split at h
        · obtain rfl := Option.some.inj h
          rfl
        · cases h

/-- What becomes of a finding is what the directives of the file leave of it. -/
theorem filtered_finding (r : ActiveRule) (f : Finding) :
    (finding r f).filtered file file.content.toList = r.emit file f := by
  simp only [ActiveRule.emit, filtered]
  split <;> simp_all [violation, ActiveRule.reported, Finding.location]

end Remark

/-! ## The remarks of a walk -/

/-- The things that a rule says in one call: its findings, and then its failure. -/
def HookCall.remarks (rules : List ActiveRule) (t : Tree) (call : HookCall) : List Remark :=
  match rules[call.rule]? with
  | some r => call.verdict.findings.map (Remark.finding r) ++
      (call.verdict.failure.map (Remark.failure r (t.position call.hook.node))).toList
  | none => []

/-- The things that the rules of a walk say, in the order of their places. -/
def remarks (rules : List ActiveRule) (input : WalkInput) : List Remark :=
  ((walk rules input).calls.flatMap (HookCall.remarks rules input.tree)).mergeSort
    fun a b => (a.violation input.file).placedBefore (b.violation input.file)

/-- The violations that a call gives rise to are what directives leave of what its rule says. -/
theorem HookCall.violations_eq_filterMap_remarks (rules : List ActiveRule) (input : WalkInput)
    (call : HookCall) :
    call.violations rules input = (call.remarks rules input.tree).filterMap
      (Remark.filtered input.file input.file.content.toList) := by
  unfold HookCall.violations HookCall.remarks
  rcases rules[call.rule]? with _ | r
  · rfl
  · have hfindings : Remark.filtered input.file input.file.content.toList ∘ Remark.finding r =
        r.emit input.file :=
      funext (Remark.filtered_finding input.file r)
    simp only [ActiveRule.violationsOf, List.filterMap_append, List.filterMap_map, hfindings]
    rcases call.verdict.failure with _ | e <;> rfl

/-- The violations of a walk are what directives leave of what the rules say. -/
theorem violations_eq_filterMap_remarks (rules : List ActiveRule) (input : WalkInput) :
    (walk rules input).violations = (remarks rules input).filterMap
      (Remark.filtered input.file input.file.content.toList) := by
  calc
    (walk rules input).violations = Violation.sort (emission rules input) :=
      violations_eq_sort_emission rules input
    _ = Violation.sort (((walk rules input).calls.flatMap
          (HookCall.remarks rules input.tree)).filterMap
            (Remark.filtered input.file input.file.content.toList)) := by
      rw [emission, List.filterMap_flatMap,
        List.flatMap_congr fun call _ => call.violations_eq_filterMap_remarks rules input]
    _ = (remarks rules input).filterMap
          (Remark.filtered input.file input.file.content.toList) :=
      (Violation.filterMap_mergeSort (Remark.violation input.file) _
        (fun _ _ => Remark.location_of_filtered input.file) _).symm

end SdkLint
