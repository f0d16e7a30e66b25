import SdkLint.CommandLine.Run

/-!
# What a run looks at

A run sees its surroundings as they were when it began.  `outlook` says which part of the file
system that has to cover: the folder that is checked, the ignore files above it, and the places
where the configuration may be.
-/

namespace SdkLint.CommandLine

/-- The names of ignore files in the folder that they are for. -/
def ignoreNames : List String :=
  [".ignore", ".gitignore", ".git/info/exclude"]

/-- The folders that an absolute path leads through, from the root of the file system on. -/
def foldersAlong (path : String) : List String :=
  let names := (Path.components path).map Path.Component.text
  (List.range (names.length - 1)).map fun n => (names.take (n + 1)).foldl Path.join ""

/-- The ignore files in the folders that an absolute path leads through. -/
def ignoreFilesAbove (path : String) : List String :=
  (foldersAlong path).flatMap fun folder => ignoreNames.map (Path.join folder)

/-- The absolute paths of the files, and of the folders with all that is in them, that a command
looks at. -/
def Invocation.outlook (w : World) (invocation : Invocation) : List String :=
  match invocation.command with
  | .listRules => []
  | .init _ => [Path.join w.folder initialConfigPath]
  | .check request =>
    let root := Path.join w.folder request.path
    let configs := invocation.config.toList ++ (ConfigSource.sharedPath? w).toList
    root :: ignoreFilesAbove root ++ configs.map (Path.join w.folder)

/-- The absolute paths of what a run with some arguments looks at. -/
def outlook (w : World) (arguments : List String) : List String :=
  match Invocation.ofArguments arguments with
  | .error _ => []
  | .ok invocation => invocation.outlook w

end SdkLint.CommandLine
