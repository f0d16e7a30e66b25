import SdkLint.Files.Path

/-!
# The contents of a file system

A `Disk` is what a run sees of the file system: the contents of files by their places.  A place is
the list of names from the root of the file system; the folders are those on the way to some file
and some that are listed on their own.

Main definitions:

- `Disk.file?`, `Disk.isFolder`: what is at a place.
- `Disk.locate?`: the place that an absolute path leads to.
- `Disk.filesBelow`: the files at and below a place.
-/

namespace SdkLint

/-- The names from the root of the file system to a file or folder. -/
abbrev Place := List String

/-- The place that an absolute path leads to, as far as its text tells. -/
def Place.ofPath (path : String) : Place :=
  (Path.components path).foldl
    (fun place component =>
      match component with
      | .normal name => place ++ [name]
      | .parent => place.dropLast
      | .root | .current => place)
    []

/-- A part of the contents of a file system. -/
structure Disk where
  files : List (Place × ByteArray) := []
  /-- Folders that need not hold a file. -/
  folders : List Place := []

namespace Disk

/-- The contents of the file at a place. -/
def file? (disk : Disk) (place : Place) : Option ByteArray :=
  disk.files.lookup place

/-- Whether there is a folder at a place. -/
def isFolder (disk : Disk) (place : Place) : Bool :=
  place.isEmpty || disk.folders.any place.isPrefixOf ||
    disk.files.any fun (file, _) => place.isPrefixOf file && place.length < file.length

/-- Whether there is anything at a place. -/
def hasEntry (disk : Disk) (place : Place) : Bool :=
  disk.isFolder place || (disk.file? place).isSome

/-- Writes a file. -/
def write (disk : Disk) (place : Place) (contents : ByteArray) : Disk :=
  { disk with files := (place, contents) :: disk.files.filter fun (file, _) => file != place }

/-! ## Paths -/

/-- One step along a path: only folders lead on. -/
def step (disk : Disk) (place : Option Place) (piece : List Char) : Option Place :=
  match place with
  | none => none
  | some place =>
    if !disk.isFolder place then none
    else if Path.isVoid piece then some place
    else if piece == ['.', '.'] then some place.dropLast
    else
      let next := place ++ [String.ofList piece]
      if disk.hasEntry next then some next else none

/-- The place that an absolute path leads to, if there is something. -/
def locate? (disk : Disk) (path : String) : Option Place :=
  (Path.parts path).2.foldl disk.step (some [])

/-- The contents of the file that an absolute path leads to. -/
def read? (disk : Disk) (path : String) : Option ByteArray :=
  (disk.locate? path).bind disk.file?

/-! ## Files below a place -/

/-- The files at or below a place: the names from there, and the contents. -/
def filesBelow (disk : Disk) (place : Place) : List (Place × ByteArray) :=
  (disk.files.filter fun (file, _) => place.isPrefixOf file).map fun (file, contents) =>
    (file.drop place.length, contents)

end Disk

end SdkLint
