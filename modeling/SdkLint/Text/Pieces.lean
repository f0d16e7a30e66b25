import SdkLint.Text.Blank

/-!
# Pieces of a text

Cutting a text at a separator, at a known beginning or end, and at an occurrence of another text.
All functions are structural on `List Char`; the ones on strings are wrappers that the rest of the
library uses.

Main definitions:

- `splitOn`: the pieces between the occurrences of a separating character; never empty.
- `dropPrefix?`, `dropSuffix?`: the rest after a known beginning, before a known end.
- `cutAt`: what stands before and after the first occurrence of a pattern.
- `replaceAll`: every occurrence of a pattern replaced, from left to right without overlap.
-/

namespace SdkLint.Text

/-! ## Separators -/

/-- The pieces between the occurrences of `sep`, in order.  A text without `sep` is one piece. -/
def splitOn (sep : Char) : List Char → List (List Char)
  | [] => [[]]
  | c :: cs =>
    if c = sep then [] :: splitOn sep cs
    else match splitOn sep cs with
      | [] => [[c]]
      | piece :: rest => (c :: piece) :: rest

/-- The pieces between the occurrences of `sep` in a string. -/
def splitString (sep : Char) (s : String) : List String :=
  (splitOn sep s.toList).map String.ofList

/-- What follows the last occurrence of `sep`, or the whole text if there is none. -/
def afterLast (sep : Char) (cs : List Char) : List Char :=
  (cs.reverse.takeWhile (· != sep)).reverse

/-- Texts joined with a separating text between them. -/
def join (sep : String) (pieces : List String) : String :=
  String.intercalate sep pieces

/-! ## Beginnings and ends -/

/-- What follows `beginning` in the text, if the text begins with it. -/
def dropPrefix? : (beginning : List Char) → List Char → Option (List Char)
  | [], cs => some cs
  | _ :: _, [] => none
  | p :: ps, c :: cs => if p = c then dropPrefix? ps cs else none

/-- What stands before `ending` in the text, if the text ends with it. -/
def dropSuffix? (ending cs : List Char) : Option (List Char) :=
  (dropPrefix? ending.reverse cs.reverse).map List.reverse

/-- Whether the string begins with `beginning`. -/
def startsWith (beginning s : String) : Bool :=
  beginning.toList.isPrefixOf s.toList

/-- Whether the string ends with `ending`. -/
def endsWith (ending s : String) : Bool :=
  ending.toList.isSuffixOf s.toList

/-- What stands before `ending` in the string, if the string ends with it. -/
def beforeSuffix? (ending s : String) : Option String :=
  (dropSuffix? ending.toList s.toList).map String.ofList

/-! ## Occurrences -/

/-- What stands before and after the first occurrence of `pattern`. -/
def cutAt (pattern : List Char) : List Char → Option (List Char × List Char)
  | [] => if pattern.isEmpty then some ([], []) else none
  | c :: cs =>
    match dropPrefix? pattern (c :: cs) with
    | some rest => some ([], rest)
    | none => (cutAt pattern cs).map fun (before, after) => (c :: before, after)

/-- Whether `pattern` occurs in the string. -/
def contains (pattern s : String) : Bool :=
  (cutAt pattern.toList s.toList).isSome

theorem cutAt_length {pattern cs before after : List Char}
    (h : cutAt pattern cs = some (before, after)) (hp : pattern ≠ []) :
    after.length < cs.length := by
  have drop : ∀ (p cs rest : List Char), dropPrefix? p cs = some rest →
      rest.length + p.length = cs.length := by
    intro p
    induction p with
    | nil => intro cs rest h; simp [dropPrefix?] at h; simp [h]
    | cons x p ih =>
      intro cs rest h
      cases cs with
      | nil => simp [dropPrefix?] at h
      | cons c cs =>
        simp only [dropPrefix?] at h
        split at h
        · have := ih _ _ h; simp only [List.length_cons]; omega
        · simp at h
  induction cs generalizing before after with
  | nil => simp [cutAt, hp] at h
  | cons c cs ih =>
    simp only [cutAt] at h
    split at h
    · rename_i rest hd
      have := drop _ _ _ hd
      have hpos : 0 < pattern.length := List.length_pos_iff.2 hp
      simp at h
      rw [← h.2]
      omega
    · obtain ⟨⟨b, a⟩, hc, he⟩ := Option.map_eq_some_iff.1 h
      simp at he
      have := ih hc
      rw [← he.2]
      simp only [List.length_cons]
      omega

/-- The text with every occurrence of a non-empty `pattern` replaced, scanning from the left without
overlap.  An empty pattern leaves the text as it is. -/
def replaceAll (pattern replacement cs : List Char) : List Char :=
  if _hp : pattern = [] then cs
  else match _h : cutAt pattern cs with
    | none => cs
    | some (before, after) => before ++ replacement ++ replaceAll pattern replacement after
termination_by cs.length
decreasing_by exact cutAt_length _h _hp

/-- `replaceAll` on strings. -/
def replace (pattern replacement s : String) : String :=
  String.ofList (replaceAll pattern.toList replacement.toList s.toList)

/-! ## Sizes -/

/-- Number of bytes that the text takes in UTF-8. -/
def byteSize (cs : List Char) : Nat :=
  cs.foldr (fun c size => c.utf8Size + size) 0

end SdkLint.Text
