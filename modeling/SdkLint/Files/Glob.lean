import SdkLint.Text.Pieces

/-!
# Globs

A glob is a list of pieces, each of which takes something from the beginning of a text; the glob
matches if its pieces can take the whole text between them.  How globs are written is another
matter: the patterns of a selection of files and the lines of an ignore file are two notations for
them.

Main definitions:

- `Piece.remainders`: what a piece may leave of a text.
- `matchesText`: whether some choice of remainders leaves nothing.
-/

namespace SdkLint.Glob

/-- One step of a glob. -/
inductive Piece where
  /-- This character. -/
  | char (c : Char)
  /-- Any one character, a slash only if `slash` says so. -/
  | any (slash : Bool)
  /-- Any text, slashes in it only if `slash` says so. -/
  | run (slash : Bool)
  /-- A character of one of the ranges, both ends included. -/
  | oneOf (ranges : List (Char × Char))
  /-- A character of none of the ranges. -/
  | noneOf (ranges : List (Char × Char))
  /-- Nothing, or everything up to some slash and the slash. -/
  | folders
deriving DecidableEq, Repr

/-- Whether a character lies in one of the ranges. -/
def inRanges (ranges : List (Char × Char)) (c : Char) : Bool :=
  ranges.any fun (first, last) => first ≤ c && c ≤ last

/-- What is left of a text after any beginning of it whose characters all pass a test. -/
def afterRun (passes : Char → Bool) : List Char → List (List Char)
  | [] => [[]]
  | c :: cs => (c :: cs) :: if passes c then afterRun passes cs else []

/-- What is left of a text after each of its slashes. -/
def afterSlashes : List Char → List (List Char)
  | [] => []
  | c :: cs => if c == '/' then cs :: afterSlashes cs else afterSlashes cs

/-- What is left of a text after its first character, if that passes a test. -/
def afterChar (passes : Char → Bool) : List Char → List (List Char)
  | [] => []
  | c :: cs => if passes c then [cs] else []

/-- What a piece may leave of a text. -/
def Piece.remainders : Piece → List Char → List (List Char)
  | char c, cs => afterChar (· == c) cs
  | any slash, cs => afterChar (fun c => slash || c != '/') cs
  | run slash, cs => afterRun (fun c => slash || c != '/') cs
  | oneOf ranges, cs => afterChar (inRanges ranges) cs
  | noneOf ranges, cs => afterChar (fun c => !inRanges ranges c) cs
  | folders, cs => cs :: afterSlashes cs

/-- Whether the pieces can take a whole text between them. -/
def matchesText : List Piece → List Char → Bool
  | [], cs => cs.isEmpty
  | p :: ps, cs => (p.remainders cs).any (matchesText ps)

end SdkLint.Glob
