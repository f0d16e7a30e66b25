import SdkLint.Files.Disk
import SdkLint.Java.Concrete

/-!
# Listings of concrete trees

The grammar of Java lies outside of this library.  What it says about a file stands in a listing
beside the file: the concrete tree in rows, one a line, with tabs between the depth, the two ends of
the byte range, the marks, the kind and, where there is one, the role.  Of the marks `a` stands for
anonymous, `m` for missing and `e`, in the first row, for an error somewhere in the tree; any other
means nothing.

Main definitions:

- `Concrete.ofListing?`: the tree that a listing describes.
- `grammarOfDisk`: the grammar that knows the texts with a listing.
-/

namespace SdkLint.Java

namespace Concrete

/-- A row and whether it is marked for an error. -/
def Row.ofLine? (line : String) : Option (Row × Bool) :=
  match Text.splitString '\t' line with
  | depth :: start :: stop :: marks :: kind :: role =>
    match depth.toNat?, start.toNat?, stop.toNat? with
    | some depth, some start, some stop =>
      let marks := marks.toList
      some
        ({ depth, kind, start, stop
           named := !marks.contains 'a'
           missing := marks.contains 'm'
           field := role.head? }, marks.contains 'e')
    | _, _, _ => none
  | _ => none

/-- The tree over `source` that a listing describes, if every line is a row and there is one. -/
def ofListing? (source listing : String) : Option Concrete :=
  let lines := (Text.splitString '\n' listing).filter fun line => !line.isEmpty
  (lines.mapM Row.ofLine?).bind fun rows =>
    ofRows? source (rows.map Prod.fst) (rows.head?.any Prod.snd)

/-- The tree of a text that the grammar cannot read at all. -/
def unread : Concrete :=
  .node { kind := "ERROR", span := ⟨0, 0⟩, point := ⟨0, 0⟩, hasError := true } []

end Concrete

/-- The place of the listing for the file at a place. -/
def listingPlace (file : Place) : Place :=
  file.dropLast ++ (file.getLast?.map fun name => name ++ ".cst").toList

/-- The grammar that knows the texts on a disk with a listing beside them. -/
def grammarOfDisk (disk : Disk) (source : String) : Concrete :=
  (disk.files.findSome? fun (file, contents) =>
    if contents == source.toUTF8 then
      ((disk.file? (listingPlace file)).bind String.fromUTF8?).bind (Concrete.ofListing? source)
    else none).getD .unread

end SdkLint.Java
