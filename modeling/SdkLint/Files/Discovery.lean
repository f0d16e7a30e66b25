import SdkLint.Config.Basic
import SdkLint.Files.Disk
import SdkLint.Files.IgnoreFile
import SdkLint.Files.Pattern

/-!
# Finding the files to look at

All files below a root that the front end handles are looked at, hidden ones too, unless an ignore
file or an exclusion pattern leaves them out or the selection is limited to some patterns.  Ignore
files count from the folder of a file upwards to the root of the file system; the nearest one that
says anything decides.  A folder that is ignored is not entered.

Main definitions:

- `IgnoreScope.isIgnored`: whether ignore files leave out something below a root.
- `discover`: the files to look at, or why they cannot be found.
-/

namespace SdkLint

/-! ## Ignore files -/

/-- The ignore files of one sort by the folders that they are for. -/
abbrev IgnoreTable := List (Place × IgnoreFile)

namespace IgnoreTable

/-- The ignore files on a disk, given where one lies in the folder that it is for. -/
def ofDisk (disk : Disk) (name : Place) : IgnoreTable :=
  (disk.files.filter fun (file, _) => name.isSuffixOf file).map fun (file, contents) =>
    (file.take (file.length - name.length), IgnoreFile.ofBytes contents)

/-- What the ignore files say about an entry of the disk: the one in its own folder first, then
those further up. -/
def verdict? (table : IgnoreTable) (entry : Place) (isFolder : Bool) : Option Bool :=
  (List.range entry.length).reverse.findSome? fun depth =>
    (table.lookup (entry.take depth)).bind fun file =>
      file.verdict? (Text.join "/" (entry.drop depth)).toList isFolder

end IgnoreTable

/-- The ignore files that count, sort by sort.  A sort is asked only where the ones before it say
nothing. -/
structure IgnoreScope where
  tables : List IgnoreTable

namespace IgnoreScope

/-- The ignore files on a disk; those of a version control system may be left aside. -/
def ofDisk (disk : Disk) (versionControl : Bool) : IgnoreScope :=
  let names := if versionControl then [[".ignore"], [".gitignore"], [".git", "info", "exclude"]]
    else [[".ignore"]]
  { tables := names.map (IgnoreTable.ofDisk disk) }

/-- Whether the ignore files leave out an entry of the disk. -/
def leavesOut (scope : IgnoreScope) (entry : Place) (isFolder : Bool) : Bool :=
  (scope.tables.findSome? fun table => table.verdict? entry isFolder).getD false

/-- Whether the ignore files leave out a file below a root, or a folder on the way to it.  The root
itself is never left out. -/
def isIgnored (scope : IgnoreScope) (root below : Place) : Bool :=
  (List.range below.length).any fun k =>
    scope.leavesOut (root ++ below.take (k + 1)) (k + 1 < below.length)

/-- Whether an ignore file in a folder above a root is malformed. -/
def malformedAbove (scope : IgnoreScope) (root : Place) : Bool :=
  scope.tables.any fun table => table.any fun (folder, file) =>
    folder.isPrefixOf root && folder.length < root.length && file.isMalformed

end IgnoreScope

/-! ## Discovery -/

/-- A file to look at. -/
structure FoundFile where
  path : String
  contents : ByteArray

instance : DecidableEq FoundFile
  | ⟨path, contents⟩, ⟨path', contents'⟩ =>
    if hpath : path = path' then
      match ByteArray.decEq contents contents' with
      | isTrue hcontents => isTrue (by rw [hpath, hcontents])
      | isFalse hcontents => isFalse fun h => hcontents (FoundFile.mk.inj h).2
    else isFalse fun h => hpath (FoundFile.mk.inj h).1

/-- Why the files to look at cannot be found. -/
inductive DiscoveryError where
  /-- A pattern that limits the selection is not well formed. -/
  | badPattern
  /-- The root does not exist, or what is to be ignored is not clear. -/
  | badRoot
deriving DecidableEq, Repr

/-- Which files are to be looked at. -/
structure Selection where
  /-- An absolute path. -/
  root : String
  exclude : List String
  only : List String
  respectGitignore : Bool
  /-- Whether the front end can read the file at a path. -/
  handles : String → Bool

namespace Selection

/-- Whether the patterns of a selection let a path pass. -/
def passes (s : Selection) (only : List (List Glob.Piece)) (path : String) : Bool :=
  let relative := (Path.relativeTo? s.root path).getD path
  let names := (Path.components relative).map Path.Component.text
  !(s.exclude.any fun pattern => Pattern.excludes pattern relative names) &&
    (only.isEmpty || only.any fun glob => Glob.matchesText glob relative.toList)

/-- The files to look at, in no particular order. -/
def discover (s : Selection) (disk : Disk) : Except DiscoveryError (List FoundFile) :=
  match s.only.mapM Pattern.ofString? with
  | none => .error .badPattern
  | some only =>
    match disk.locate? s.root with
    | none => .error .badRoot
    | some root =>
      let scope := IgnoreScope.ofDisk disk s.respectGitignore
      if disk.isFolder root && scope.malformedAbove root then .error .badRoot
      else
        let files := (disk.filesBelow root).filter fun (below, _) => !scope.isIgnored root below
        let found := files.map fun (below, contents) =>
          { path := below.foldl Path.join s.root, contents : FoundFile }
        .ok (found.filter fun file => s.handles file.path && s.passes only file.path)

end Selection

end SdkLint
