import SdkLint.Analysis.Run
import SdkLint.Proofs.Text.Occurrences

/-!
# Patterns for folders

There are two patterns for a folder with some name: one for the folder of that name in the root, and
one for all folders of that name below the root.  As globs they tell them apart.  As exclusion
patterns they do not: the bare name of both is the name of the folder, and an exclusion pattern also
leaves out every path with a component that is its bare name.

Main definitions:

- `Pattern.IsName`: a name without characters that mean something in patterns or paths.
- `Pattern.inRoot`, `Pattern.anywhere`: the two patterns.
- `Selection.isExcluded`: an exclusion pattern leaves out a path.

Main results:

- Theorem `Pattern.matches_inRoot_iff`: as a glob the first one matches what lies in the folder of
  that name in the root.
- Theorem `Pattern.excludes_inRoot_iff`: it leaves out the paths with a component of the name.
- Theorem `Pattern.excludes_anywhere_iff`: so does the second one.
- Theorem `Pattern.excludes_anywhere_eq`: the two leave out the same paths.
- Theorem `Analysis.discover_inRoot`: what an analysis looks at whose only exclusion pattern is the
  first one.
-/

namespace SdkLint

/-! ## Components of a path -/

namespace Path

/-- The components of a path as they are written. -/
def names (path : String) : List String :=
  (components path).map Component.text

theorem text_ofPiece (piece : List Char) : (ofPiece piece).text = String.ofList piece := by
  rw [ofPiece]
  split
  · rename_i hparent
    rw [eq_of_beq hparent]
    rfl
  · rfl

/-- The names are what opens the path, if it is a component of its own, and the pieces between
slashes. -/
theorem names_eq (path : String) : names path =
    (parts path).1.toList.map Component.text ++
      ((Text.splitOn '/' path.toList).filter fun piece => !isVoid piece).map String.ofList := by
  have hpieces : (parts path).2.filter (fun piece => !isVoid piece) =
      (Text.splitOn '/' path.toList).filter fun piece => !isVoid piece := by
    unfold parts
    split
    case h_1 rest hpath => simp [hpath, Text.splitOn, isVoid]
    case h_2 hpath => simp [hpath, Text.splitOn, isVoid]
    case h_3 rest hpath => simp [hpath, Text.splitOn, isVoid]
    case h_4 => rfl
  have htext : Component.text ∘ ofPiece = String.ofList := funext text_ofPiece
  rw [names, components, List.map_append, List.map_map, htext, hpieces]

/-- A piece between slashes is a component unless it is void. -/
theorem mem_names_of_piece {path : String} {piece : List Char}
    (hpiece : piece ∈ Text.splitOn '/' path.toList) (hvoid : isVoid piece = false) :
    String.ofList piece ∈ names path := by
  rw [names_eq]
  refine List.mem_append_right _ (List.mem_map_of_mem (List.mem_filter.2 ⟨hpiece, ?_⟩))
  rw [hvoid]
  rfl

/-- A path opens with what stands before its first slash. -/
theorem head?_names {path name : String} {rest : List Char} (hempty : name ≠ "")
    (hslash : '/' ∉ name.toList) (hpath : path.toList = name.toList ++ '/' :: rest) :
    (names path).head? = some name := by
  by_cases hcurrent : name = "."
  · have hopening : (parts path).1 = some .current := by
      rw [parts, hpath, hcurrent]
      rfl
    rw [names_eq, hopening, hcurrent]
    rfl
  · have hdot : name.toList ≠ ['.'] := fun h => hcurrent (String.toList_inj.1 h)
    have hnil : name.toList ≠ [] := fun h => hempty (String.toList_eq_nil_iff.1 h)
    have hname : isVoid name.toList = false := by simp [isVoid, hdot, hnil]
    obtain ⟨c, cs, hchars⟩ := List.exists_cons_of_ne_nil hnil
    have hopening : (parts path).1 = none := by
      rw [hchars] at hpath hslash hdot
      rw [parts, hpath]
      split
      case h_1 hroot => simp_all
      case h_2 halone => simp_all
      case h_3 hcurrent => cases cs <;> simp_all
      case h_4 => rfl
    rw [names_eq, hopening, hpath, Text.splitOn_append hslash, Option.toList_none, List.map_nil,
      List.nil_append, List.filter_cons_of_pos (by rw [hname]; rfl), List.map_cons,
      String.ofList_toList, List.head?_cons]

end Path

/-! ## Globs -/

namespace Glob

/-- Characters take themselves from the beginning of a text. -/
theorem matchesText_chars_iff {cs text : List Char} {ps : List Piece} :
    matchesText (cs.map .char ++ ps) text ↔ ∃ rest, text = cs ++ rest ∧ matchesText ps rest := by
  induction cs generalizing text with
  | nil => simp
  | cons c cs ih =>
    cases text with
    | nil => simp [matchesText, Piece.remainders, afterChar]
    | cons d text =>
      by_cases hd : d = c
      · simp [matchesText, Piece.remainders, afterChar, hd, ih]
      · simp [matchesText, Piece.remainders, afterChar, hd]

theorem nil_mem_afterRun {passes : Char → Bool} {cs : List Char} (h : ∀ c ∈ cs, passes c = true) :
    [] ∈ afterRun passes cs := by
  induction cs with
  | nil => exact List.mem_singleton_self _
  | cons c cs ih =>
    rw [afterRun, if_pos (h c List.mem_cons_self)]
    exact List.mem_cons_of_mem _ (ih fun d hd => h d (List.mem_cons_of_mem _ hd))

theorem matchesText_everything (text : List Char) : matchesText [.run true] text = true :=
  List.any_eq_true.2 ⟨[], nil_mem_afterRun fun _ _ => rfl, rfl⟩

theorem mem_afterSlashes_iff {text rest : List Char} :
    rest ∈ afterSlashes text ↔ ∃ before, text = before ++ '/' :: rest := by
  induction text with
  | nil => simp [afterSlashes]
  | cons c text ih =>
    rw [afterSlashes]
    constructor
    · intro h
      split at h
      · rename_i hc
        rcases List.mem_cons.1 h with rfl | hrest
        · exact ⟨[], by rw [eq_of_beq hc]; rfl⟩
        · obtain ⟨before, rfl⟩ := ih.1 hrest
          exact ⟨c :: before, rfl⟩
      · obtain ⟨before, rfl⟩ := ih.1 h
        exact ⟨c :: before, rfl⟩
    · rintro ⟨before, hbefore⟩
      cases before with
      | nil =>
        obtain ⟨rfl, rfl⟩ : c = '/' ∧ text = rest := by simpa using hbefore
        exact List.mem_cons_self
      | cons d before =>
        obtain ⟨rfl, rfl⟩ : c = d ∧ text = before ++ '/' :: rest := by simpa using hbefore
        have hrest := ih.2 ⟨before, rfl⟩
        split
        · exact List.mem_cons_of_mem _ hrest
        · exact hrest

/-- Folders are taken from the beginning of a text up to a slash. -/
theorem matchesText_folders_iff {text : List Char} {ps : List Piece} :
    matchesText (.folders :: ps) text ↔
      matchesText ps text ∨ ∃ before rest, text = before ++ '/' :: rest ∧ matchesText ps rest := by
  rw [matchesText, Piece.remainders, List.any_cons, Bool.or_eq_true, List.any_eq_true]
  refine or_congr_right ⟨?_, ?_⟩
  · rintro ⟨rest, hmem, hmatches⟩
    obtain ⟨before, hbefore⟩ := mem_afterSlashes_iff.1 hmem
    exact ⟨before, rest, hbefore, hmatches⟩
  · rintro ⟨before, rest, hbefore, hmatches⟩
    exact ⟨rest, mem_afterSlashes_iff.2 ⟨before, hbefore⟩, hmatches⟩

end Glob

/-! ## The two patterns -/

namespace Pattern

open Glob

/-- A name that is not empty and without characters that mean something in patterns or paths. -/
structure IsName (name : String) : Prop where
  nonempty : name ≠ ""
  plain : ∀ c ∈ name.toList, c ∉ ['/', '*', '?', '[']

instance (name : String) : Decidable (IsName name) :=
  decidable_of_iff (name ≠ "" ∧ name.toList.all fun c => decide (c ∉ ['/', '*', '?', '[']))
    ⟨fun h => ⟨h.1, by simpa using h.2⟩, fun h => ⟨h.nonempty, by simpa using h.plain⟩⟩

/-- The pattern for what lies in the folder of a name in the root. -/
def inRoot (name : String) : String :=
  name ++ "/**"

/-- The pattern for what lies in any folder of a name. -/
def anywhere (name : String) : String :=
  "**/" ++ inRoot name

section

variable {name : String} (hname : IsName name)

include hname

theorem IsName.notMem {c : Char} (hc : c ∈ ['/', '*', '?', '[']) : c ∉ name.toList :=
  fun hmem => hname.plain c hmem hc

/-- A folder and everything in it is read as the name, the slash and any text. -/
theorem readPieces_inRoot (atComponent : Bool) :
    readPieces atComponent (inRoot name).toList =
      some (((name ++ "/").toList).map .char ++ [.run true]) := by
  have hchars : ∀ cs : List Char, (∀ c ∈ cs, c ∉ ['/', '*', '?', '[']) →
      ∀ atComponent, readPieces atComponent (cs ++ ['/', '*', '*']) =
        some ((cs ++ ['/']).map .char ++ [.run true]) := by
    intro cs hcs
    induction cs with
    | nil =>
      intro atComponent
      simp [readPieces]
    | cons c cs ih =>
      intro atComponent
      obtain ⟨hc, hcs⟩ := List.forall_mem_cons.1 hcs
      simp only [List.mem_cons, List.not_mem_nil, or_false, not_or] at hc
      rw [List.cons_append, readPieces, ih hcs] <;> simp_all
  simpa [inRoot] using hchars name.toList hname.plain atComponent

theorem ofString?_inRoot :
    ofString? (inRoot name) = some (((name ++ "/").toList).map .char ++ [.run true]) :=
  readPieces_inRoot hname true

/-- As a glob the pattern for the folder in the root matches what the name and a slash open. -/
theorem matches_inRoot_iff (path : String) :
    ((ofString? (inRoot name)).any fun glob => matchesText glob path.toList) ↔
      (name ++ "/").toList <+: path.toList := by
  rw [ofString?_inRoot hname, Option.any_some, matchesText_chars_iff]
  constructor
  · rintro ⟨rest, hpath, -⟩
    exact ⟨rest, hpath.symm⟩
  · rintro ⟨rest, hpath⟩
    exact ⟨rest, hpath.symm, matchesText_everything rest⟩

/-- What is left of both patterns besides `**` is the name. -/
theorem bareName_inRoot : bareName (inRoot name) = name := by
  have hstars : ¬ "**/".toList <:+: (inRoot name).toList := by
    -- The stars are the last characters, so that no slash comes after a star.
    have hpair : ¬ ['*', '/'] <:+: name.toList ++ ['/', '*', '*'] := by
      rw [Text.pair_infix_append_iff]
      rintro (hinside | hbehind | ⟨hlast, -⟩)
      · exact Text.not_pair_infix_of_notMem (hname.notMem (by simp)) hinside
      · revert hbehind
        decide
      · exact hname.notMem (by simp) (List.mem_of_getLast? hlast)
    intro hinside
    rw [inRoot, String.toList_append] at hinside
    exact hpair ((List.suffix_cons '*' ['*', '/']).isInfix.trans hinside)
  have hcut : Text.cutAt "/**".toList (inRoot name).toList = some (name.toList, []) := by
    have hslash : '/' ∉ name.toList := hname.notMem (by simp)
    rw [inRoot, String.toList_append]
    exact Text.cutAt_of_notMem hslash []
  have hkept : Text.replace "**/" "" (inRoot name) = inRoot name := by
    rw [Text.replace, Text.replaceAll_eq_self hstars, String.ofList_toList]
  rw [bareName, hkept, Text.replace, Text.replaceAll_of_cutAt (by decide) hcut]
  simp [Text.replaceAll_eq_self]

theorem bareName_anywhere : bareName (anywhere name) = name := by
  have hcut : Text.cutAt "**/".toList (anywhere name).toList =
      some ([], (inRoot name).toList) := by
    rw [anywhere, String.toList_append]
    exact Text.cutAt_of_notMem List.not_mem_nil _
  have hreplace : Text.replace "**/" "" (anywhere name) = Text.replace "**/" "" (inRoot name) := by
    rw [Text.replace, Text.replaceAll_of_cutAt (by decide) hcut]
    rfl
  rw [bareName, hreplace, ← bareName, bareName_inRoot hname]

/-- An exclusion pattern whose bare name is a name leaves out the paths that it matches and those
with a component of the name. -/
theorem excludes_iff_of_bareName {pattern : String} (hbare : bareName pattern = name)
    (path : String) (names : List String) : excludes pattern path names ↔
      ((ofString? pattern).any fun glob => matchesText glob path.toList) ∨ name ∈ names := by
  have hempty : name.isEmpty = false := by simpa using hname.nonempty
  have hstar : name.toList.contains '*' = false := by simpa using hname.notMem (c := '*') (by simp)
  rw [excludes, hbare, hempty, hstar, Bool.or_eq_true, Bool.not_false, Bool.true_and,
    Bool.true_and, List.contains_iff_mem]

/-- The pattern for the folder in the root leaves out the paths with a component of the name, in
whatever depth it stands. -/
theorem excludes_inRoot_iff (path : String) :
    excludes (inRoot name) path (Path.names path) ↔ name ∈ Path.names path := by
  rw [excludes_iff_of_bareName hname (bareName_inRoot hname), or_iff_right_iff_imp,
    matches_inRoot_iff hname]
  rintro ⟨rest, hpath⟩
  rw [String.toList_append, List.append_assoc] at hpath
  exact List.mem_of_head? (Path.head?_names hname.nonempty (hname.notMem (by simp)) hpath.symm)

/-- So does the pattern for all folders of the name, unless the name is the dot: that is no
component inside a path. -/
theorem excludes_anywhere_iff (hdot : name ≠ ".") (path : String) :
    excludes (anywhere name) path (Path.names path) ↔ name ∈ Path.names path := by
  have hglob : ofString? (anywhere name) =
      some (.folders :: (((name ++ "/").toList).map .char ++ [.run true])) := by
    have hread := readPieces_inRoot hname true
    rw [ofString?, anywhere, String.toList_append]
    obtain ⟨c, cs, hchars⟩ : ∃ c cs, (inRoot name).toList = c :: cs :=
      List.exists_cons_of_ne_nil (by simp [inRoot])
    rw [hchars] at hread ⊢
    simp [readPieces, hread]
  rw [excludes_iff_of_bareName hname (bareName_anywhere hname), or_iff_right_iff_imp, hglob,
    Option.any_some, matchesText_folders_iff]
  have hslash : '/' ∉ name.toList := hname.notMem (by simp)
  have hvoid : Path.isVoid name.toList = false := by
    have : name.toList ≠ ['.'] := fun h => hdot (String.toList_inj.1 h)
    simpa [Path.isVoid, this] using hname.nonempty
  intro hmatches
  -- In both cases the name is a piece between slashes.
  have hpiece : name.toList ∈ Text.splitOn '/' path.toList := by
    rcases hmatches with hroot | ⟨before, below, hpath, hbelow⟩
    · obtain ⟨rest, hpath, -⟩ := matchesText_chars_iff.1 hroot
      rw [hpath, String.toList_append, List.append_assoc]
      exact Text.splitOn_append hslash rest ▸ List.mem_cons_self
    · obtain ⟨rest, rfl, -⟩ := matchesText_chars_iff.1 hbelow
      rw [hpath, Text.splitOn_at_separator, String.toList_append, List.append_assoc]
      exact List.mem_append_right _ (Text.splitOn_append hslash rest ▸ List.mem_cons_self)
  rw [← String.ofList_toList (s := name)]
  exact Path.mem_names_of_piece hpiece hvoid

/-- As exclusion patterns the two leave out the same paths. -/
theorem excludes_anywhere_eq (hdot : name ≠ ".") (path : String) :
    excludes (anywhere name) path (Path.names path) =
      excludes (inRoot name) path (Path.names path) := by
  rw [Bool.eq_iff_iff, excludes_anywhere_iff hname hdot, excludes_inRoot_iff hname]

end

end Pattern

/-! ## What an analysis leaves out -/

namespace Selection

variable (s : Selection)

/-- The path of a file below the root, and the path as it is if it does not lie there. -/
def relative (path : String) : String :=
  (Path.relativeTo? s.root path).getD path

/-- An exclusion pattern leaves out a path. -/
def isExcluded (path : String) : Bool :=
  s.exclude.any fun pattern =>
    Pattern.excludes pattern (s.relative path) (Path.names (s.relative path))

theorem isExcluded_eq_excludes {s : Selection} {pattern : String} (h : s.exclude = [pattern])
    (path : String) :
    s.isExcluded path =
      Pattern.excludes pattern (s.relative path) (Path.names (s.relative path)) := by
  rw [isExcluded, h, List.any_cons, List.any_nil, Bool.or_false]

theorem passes_eq (only : List (List Glob.Piece)) (path : String) :
    s.passes only path = (!s.isExcluded path &&
      (only.isEmpty || only.any fun glob => Glob.matchesText glob (s.relative path).toList)) :=
  rfl

/-- The exclusion patterns leave out some of the files that there are without them, and decide
nothing else. -/
theorem discover_eq_filter (disk : Disk) :
    s.discover disk = ({ s with exclude := [] }.discover disk).map fun files : List FoundFile =>
      files.filter fun file => !s.isExcluded file.path := by
  have hpasses (only : List (List Glob.Piece)) (path : String) :
      s.passes only path = (!s.isExcluded path && { s with exclude := [] }.passes only path) := by
    rw [passes_eq, passes_eq]
    rfl
  unfold discover
  dsimp only
  split
  · rfl
  · split
    · rfl
    · split
      · rfl
      · simp only [Except.map, List.filter_filter, hpasses]
        congr 1
        exact List.filter_congr fun file _ => Bool.and_left_comm _ _ _

/-- Other exclusion patterns that leave out the same paths make no difference. -/
theorem discover_congr {s : Selection} {patterns : List String}
    (h : ∀ path, { s with exclude := patterns }.isExcluded path = s.isExcluded path)
    (disk : Disk) : { s with exclude := patterns }.discover disk = s.discover disk := by
  rw [discover_eq_filter, s.discover_eq_filter]
  simp only [h]

end Selection

/-- An analysis whose only exclusion pattern is the one for a folder in the root leaves out the
files on whose path below the root the name stands, in whatever depth, and no others: it looks at
the rest of what it looks at without the pattern.  The pattern for all folders of the name in its
place makes no difference, unless the name is the dot. -/
theorem Analysis.discover_inRoot (a : Analysis) {name : String} (hname : Pattern.IsName name)
    (hexclude : a.exclude = [Pattern.inRoot name]) :
    (∀ path, a.selection.isExcluded path ↔ name ∈ Path.names (a.selection.relative path)) ∧
      (∀ disk, a.selection.discover disk =
        ({ a with exclude := [] }.selection.discover disk).map fun files : List FoundFile =>
          files.filter fun file => name ∉ Path.names (a.selection.relative file.path)) ∧
      (name ≠ "." → ∀ disk, a.selection.discover disk =
        { a with exclude := [Pattern.anywhere name] }.selection.discover disk) := by
  have hexcludes (path : String) :=
    Selection.isExcluded_eq_excludes (s := a.selection) hexclude path
  have hexcluded (path : String) :
      a.selection.isExcluded path ↔ name ∈ Path.names (a.selection.relative path) := by
    rw [hexcludes]
    exact Pattern.excludes_inRoot_iff hname _
  refine ⟨hexcluded, fun disk => ?_, fun hdot disk => ?_⟩
  · rw [Selection.discover_eq_filter]
    refine congrArg (Except.map · _) (funext fun files => List.filter_congr fun file _ => ?_)
    rw [Bool.eq_iff_iff]
    simp [← hexcluded]
  · symm
    apply Selection.discover_congr (s := a.selection)
    intro path
    rw [hexcludes, Selection.isExcluded_eq_excludes rfl]
    exact Pattern.excludes_anywhere_eq hname hdot _

/-- An analysis that is to leave out the folder `gen` in its root.  All texts are read as empty
ones. -/
def generatedAnalysis : Analysis where
  root := "/repo"
  rules := []
  exclude := [Pattern.inRoot "gen"]
  only := []
  failOnParseError := false
  config := {}
  frontEnd := Java.frontEnd fun _ => .node { kind := "program", span := ⟨0, 0⟩, point := ⟨0, 0⟩ } []
  resolver := fun _ => none

/-- Files in the folder, in one of the same name further down, and in one of a similar name. -/
def generatedDisk : Disk where
  files :=
    [(["repo", "gen", "A.java"], .empty), (["repo", "src", "gen", "B.java"], .empty),
      (["repo", "src", "gen2", "C.java"], .empty)]

/-- The file further down is left out as well, although the pattern does not match its path, and the
pattern for all folders of the name leaves out no others. -/
theorem generatedAnalysis_discover :
    generatedAnalysis.exclude = [Pattern.inRoot "gen"] ∧
    ¬ ("gen" ++ "/").toList <+: "src/gen/B.java".toList ∧
    generatedAnalysis.selection.isExcluded "/repo/src/gen/B.java" ∧
    (generatedAnalysis.selection.discover generatedDisk).map
      (fun files : List FoundFile => files.map FoundFile.path) =
      .ok ["/repo/src/gen2/C.java"] ∧
    generatedAnalysis.selection.discover generatedDisk =
      { generatedAnalysis with
        exclude := [Pattern.anywhere "gen"] }.selection.discover generatedDisk := by
  obtain ⟨hexcluded, hdiscover, hanywhere⟩ :=
    Analysis.discover_inRoot generatedAnalysis (by decide : Pattern.IsName "gen") rfl
  refine ⟨rfl, by decide, (hexcluded _).2 (by decide +kernel), ?_, hanywhere (by decide) _⟩
  rw [hdiscover]
  decide +kernel

end SdkLint
