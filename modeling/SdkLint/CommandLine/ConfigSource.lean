import SdkLint.Config.Decode
import SdkLint.Files.Disk

/-!
# Where the configuration comes from

A configuration that is named counts; else the one in the folder that is checked, else the one that
the user shares between projects, else the standard one.

Main definitions:

- `World`: what a run of the program sees of its surroundings.
- `ConfigSource.find`: where the configuration is.
- `ConfigSource.load`: the configuration.
-/

namespace SdkLint.CommandLine

/-- What a run of the program sees of its surroundings. -/
structure World where
  disk : Disk
  /-- The absolute path of the folder that relative paths start at. -/
  folder : String
  /-- The path of the user's home. -/
  home : Option String := none
  /-- The path of the folder with the shared configuration, if it is not the one at home. -/
  configFolder : Option String := none
  /-- Whether output goes to a terminal. -/
  terminal : Bool := false

/-- The contents of the file at a path. -/
def World.read? (w : World) (path : String) : Option ByteArray :=
  w.disk.read? (Path.join w.folder path)

/-- Where a configuration comes from. -/
inductive ConfigSource where
  /-- It is named. -/
  | named (path : String)
  /-- It lies in the folder that is checked. -/
  | project (path : String)
  /-- It is shared between projects. -/
  | shared (path : String)
  /-- There is none. -/
  | standard
deriving DecidableEq, Repr

namespace ConfigSource

/-- Names of the configuration of a project; the first one that exists counts. -/
def projectNames : List String :=
  ["apilint.toml", ".apilint.toml"]

/-- The path of the shared configuration. -/
def sharedPath? (w : World) : Option String :=
  let folder := w.configFolder.or (w.home.map fun home => Path.join home ".apilint")
  folder.map fun folder => Path.join folder "config.toml"

/-- Where the configuration for a folder is. -/
def find (w : World) (folder : String) (named : Option String) : ConfigSource :=
  let exists_ (path : String) : Bool := (w.read? path).isSome
  match named with
  | some path => .named path
  | none =>
    match (projectNames.map (Path.join folder)).find? exists_ with
    | some path => .project path
    | none =>
      match (sharedPath? w).filter exists_ with
      | some path => .shared path
      | none => .standard

/-- The path of the configuration, if it has one. -/
def path? : ConfigSource → Option String
  | named path | project path | shared path => some path
  | standard => none

/-- The configuration; the path instead if it cannot be read. -/
def load (w : World) (source : ConfigSource) : Except String Config :=
  match source.path? with
  | none => .ok {}
  | some path =>
    match ((w.read? path).bind String.fromUTF8?).bind Config.parse? with
    | some config => .ok config
    | none => .error path

end ConfigSource

end SdkLint.CommandLine
