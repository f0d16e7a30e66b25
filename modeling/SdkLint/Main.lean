import SdkLint.CommandLine.Outlook
import SdkLint.Java.Listing

/-!
# The command line

Takes in the part of the file system that a run looks at, lets `CommandLine.run` say what comes of
it, and does that: prints the output and the complaint, writes the file, and ends with the status.
-/

open SdkLint

/-- Adds the file at a path, or the folder with all that is in it, to a disk.  Links inside of a
folder are not followed, and what cannot be read is left out. -/
partial def takeIn (disk : Disk) (path : String) : IO Disk := do
  let there := (← IO.currentDir) / path
  if ← there.isDir then
    let mut disk := { disk with folders := Place.ofPath path :: disk.folders }
    for entry in ← there.readDir do
      let sort := (← entry.path.symlinkMetadata).type
      if sort == .dir || sort == .file then
        disk ← takeIn disk (Path.join path entry.fileName)
    return disk
  else
    try
      return disk.write (Place.ofPath path) (← IO.FS.readBinFile there)
    catch _ =>
      return disk

/-- What a run with some arguments sees of its surroundings. -/
def surroundings (arguments : List String) : IO CommandLine.World := do
  let world : CommandLine.World :=
    { disk := {}
      folder := (← IO.currentDir).toString
      home := ← IO.getEnv "HOME"
      configFolder := ← IO.getEnv "APILINT_CONFIG_DIR"
      terminal := ← (← IO.getStdout).isTty }
  let mut disk : Disk := {}
  for path in CommandLine.outlook world arguments do
    for folder in CommandLine.foldersAlong path do
      if ← ((← IO.currentDir) / folder).isDir then
        disk := { disk with folders := Place.ofPath folder :: disk.folders }
    disk ← takeIn disk path
  return { world with disk }

def main (arguments : List String) : IO UInt32 := do
  let world ← surroundings arguments
  let outcome := CommandLine.run world (Java.grammarOfDisk world.disk) arguments
  match outcome.written with
  | some (path, contents) => IO.FS.writeFile path contents
  | none => pure ()
  IO.print outcome.output
  IO.eprint outcome.complaint
  return UInt32.ofNat outcome.status
