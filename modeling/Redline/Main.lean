import Redline.Command.Run
import Std.Data.HashMap
import Std.Time.DateTime.Timestamp

/-!
# The command line

The program takes the files that a command can see onto a disk, runs the command on that disk, and
then makes the same changes to the files. A command sees the working directory, what its arguments
name, and the configuration of its user. No parser and no search tool is linked: every source has an
empty tree, and a search for text or structure reports that its tool is missing.
-/

namespace Redline

/-- Directories that are not looked into. -/
def leftAside : List String := [".git", "node_modules"]

/-- The disk with a directory and what is below it. Links to directories are not followed. -/
partial def takeFolder (d : Disk) (p : Path) : IO Disk := do
  let found ← (IO.FS.DirEntry.path { root := p.toString, fileName := "." }).readDir
  let mut d := d.put p.parts .folder
  for e in found do
    let place := p.join e.fileName
    if (← e.path.symlinkMetadata).type matches .dir then
      if !leftAside.contains e.fileName then d ← takeFolder d place
    else if !(← e.path.isDir) then
      d := d.put place.parts (.file (← IO.FS.readBinFile e.path).toList)
  return d

/-- The disk with the directories above a place. -/
def withFoldersAbove (d : Disk) (place : List String) : Disk :=
  ((List.range place.length).drop 1).foldl (fun d n => d.put (place.take n) .folder) d

/-- The disk with what stands at a path, if something does. -/
def takePath (d : Disk) (p : Path) : IO Disk := do
  let p : Path :=
    { isAbsolute := true, parts := if p.isAbsolute then p.parts else d.working ++ p.parts }
  let p := p.normalize
  if d.exists_ p then return d
  let e : IO.FS.DirEntry := { root := p.parent.toString, fileName := p.name }
  if ← e.path.isDir then takeFolder (withFoldersAbove d p.parts) p
  else if ← e.path.pathExists then
    return (withFoldersAbove d p.parts).put p.parts (.file (← IO.FS.readBinFile e.path).toList)
  else return d

/-- Makes the files what they are on a disk, given the disk that was taken from them. -/
def giveBack (old new : Disk) : IO Unit := do
  let before := Std.HashMap.ofList old.entries
  let after := Std.HashMap.ofList new.entries
  for (place, entry) in new.entries do
    let p : Path := { isAbsolute := true, parts := place }
    match entry with
    | .folder => if !before.contains place then IO.FS.createDirAll p.toString
    | .file content =>
      if before[place]? != some entry then
        IO.FS.writeBinFile p.toString ⟨content.toArray⟩
  for (place, entry) in old.entries do
    if entry != .folder && !after.contains place then
      IO.FS.removeFile ({ isAbsolute := true, parts := place } : Path).toString

/-- The variables that hold settings, as far as they are set. -/
def settingVariables : IO (List (String × String)) := do
  let names := Config.groups.flatMap fun g =>
    let name := Config.variableStart ++ g.name
    name :: g.keys.map fun key => name ++ "__" ++ key
  names.filterMapM fun name => do
    return (← IO.getEnv name.toUpper).map (name, ·)

/-- The time of day. -/
def currentMoment : IO Moment := do
  return ⟨(← Std.Time.Timestamp.now).toNanosecondsSinceUnixEpoch.toInt / 1000⟩

/-- Runs a command line on the files. -/
def runOnFiles (args : List String) : IO UInt32 := do
  let working := (Path.ofString (← IO.currentDir).toString).parts
  let home := (← IO.getEnv "HOME").getD "/"
  let start : Disk := { working, entries := [] }
  let d ← takeFolder (withFoldersAbove start working) { isAbsolute := true, parts := working }
  let d ← args.foldlM (fun d a => takePath d (Path.ofString a)) d
  let d ← takePath d (Config.sharedFile home)
  let surroundings : Command.Surroundings :=
    { host := { locate := fun _ _ => none, execute := fun _ _ => none }
      parse := fun _ _ => default
      environment := ← settingVariables
      home
      now := ← currentMoment }
  let outcome := Command.run surroundings d args
  giveBack d outcome.disk
  IO.print outcome.reply.output
  match outcome.reply.escaped with
  | some m => IO.eprintln (m.sort ++ ": " ++ m.message)
  | none => pure ()
  return UInt32.ofNat outcome.reply.status

end Redline

/-- Runs the command line of the process. -/
def main (args : List String) : IO UInt32 :=
  Redline.runOnFiles args
