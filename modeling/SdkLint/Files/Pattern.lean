import SdkLint.Files.Glob

/-!
# Selection patterns

The notation of the patterns that select files by their paths.  `?` stands for any character and `*`
for any text, slashes not excepted.  `**` stands for any number of folders and has to be a whole
component of the pattern; at the end it stands for everything.  `[…]` stands for one of some
characters and ranges of characters, `[!…]` for any other character; a `]` right at the beginning of
the brackets is one of the characters.

Main definitions:

- `ofString?`: the glob that a pattern denotes, if it is well formed.
- `excludes`: whether an exclusion pattern leaves out a path.
-/

namespace SdkLint.Pattern

open Glob

/-! ## Brackets -/

/-- The characters and ranges between brackets, in order. -/
def rangesOf : List Char → List (Char × Char)
  | first :: '-' :: last :: cs => (first, last) :: rangesOf cs
  | c :: cs => (c, c) :: rangesOf cs
  | [] => []

/-- What stands before and after the closing bracket.  The first character is never the closing
one. -/
def closeBracket : List Char → Option (List Char × List Char)
  | [] => none
  | c :: cs => (Text.cutAt [']'] cs).map fun (inside, rest) => (c :: inside, rest)

/-- Reads what follows an opening bracket: the piece, and what follows the closing bracket. -/
def readBracket : List Char → Option (Piece × List Char)
  | '!' :: cs => (closeBracket cs).map fun (inside, rest) => (.noneOf (rangesOf inside), rest)
  | cs => (closeBracket cs).map fun (inside, rest) => (.oneOf (rangesOf inside), rest)

theorem closeBracket_length {cs inside rest : List Char}
    (h : closeBracket cs = some (inside, rest)) : rest.length < cs.length := by
  cases cs with
  | nil => simp [closeBracket] at h
  | cons c cs =>
    simp only [closeBracket, Option.map_eq_some_iff] at h
    obtain ⟨⟨before, after⟩, hcut, heq⟩ := h
    have := Text.cutAt_length hcut (by simp)
    simp only [Prod.mk.injEq] at heq
    rw [← heq.2]
    simp only [List.length_cons]
    omega

theorem readBracket_length {cs rest : List Char} {p : Piece}
    (h : readBracket cs = some (p, rest)) : rest.length < cs.length := by
  unfold readBracket at h
  split at h <;> obtain ⟨⟨inside, after⟩, hclose, heq⟩ := Option.map_eq_some_iff.1 h <;>
    have := closeBracket_length hclose <;> simp only [Prod.mk.injEq] at heq <;> rw [← heq.2]
  · simp only [List.length_cons]
    omega
  · exact this

/-! ## Patterns -/

/-- Reads a pattern.  `atComponent` says whether a component of the pattern begins here. -/
def readPieces (atComponent : Bool) (cs : List Char) : Option (List Piece) :=
  match cs with
  | [] => some []
  | '*' :: '*' :: rest =>
    match rest with
    | [] | ['/'] => if atComponent then some [.run true] else none
    | '/' :: rest => if atComponent then (readPieces true rest).map (.folders :: ·) else none
    | _ => none
  | '*' :: rest => (readPieces false rest).map (.run true :: ·)
  | '?' :: rest => (readPieces false rest).map (.any true :: ·)
  | '[' :: rest =>
    match _h : readBracket rest with
    | none => none
    | some (piece, after) => (readPieces false after).map (piece :: ·)
  | c :: rest => (readPieces (c == '/') rest).map (.char c :: ·)
termination_by cs.length
decreasing_by
  all_goals simp_wf
  all_goals
    first
    | omega
    | have := readBracket_length _h
      omega

/-- The glob that a pattern denotes, if it is well formed. -/
def ofString? (pattern : String) : Option (List Piece) :=
  readPieces true pattern.toList

/-! ## Exclusion -/

/-- An exclusion pattern without the `**` components that something precedes or follows. -/
def bareName (pattern : String) : String :=
  Text.replace "/**" "" (Text.replace "**/" "" pattern)

/-- Whether an exclusion pattern leaves out a path given by its text and the names of its
components: if it matches the path, and also if all that is left of it besides `**` is the name of a
component. A pattern that is not well formed matches nothing. -/
def excludes (pattern path : String) (names : List String) : Bool :=
  let bare := bareName pattern
  ((ofString? pattern).any fun glob => matchesText glob path.toList) ||
    (!bare.isEmpty && !bare.toList.contains '*' && names.contains bare)

end SdkLint.Pattern
