import Redline.Disk.Basic
import Redline.Excludes
import Redline.Glob.Basic

/-!
# Walking a directory

`walk` lists the files below a directory that match a pattern, by their relative paths: the files of
a directory in order of their names, then those of its subdirectories in the same order. Excluded
directories are not entered, nor, unless asked for, hidden files and directories listed.
-/

namespace Redline.Disk

/-- Whether a name marks something hidden. -/
def isHidden (name : String) : Bool :=
  name.toList.head? == some '.'

/-- Names in the order of their characters. -/
def sortNames (names : List String) : List String :=
  names.mergeSort fun a b => decide (a ≤ b)

/-- What a walk looks for. -/
structure WalkOptions where
  pattern : String
  exclude : List String
  includeHidden : Bool
  deriving DecidableEq, Repr

/-- The names of the files in a directory, in order. -/
def fileNames (d : Disk) (o : WalkOptions) (place : List String) : List String :=
  sortNames <| (d.children place).filterMap fun c =>
    match c.2 with
    | .file _ => if o.includeHidden || !isHidden c.1 then some c.1 else none
    | .folder => none

/-- The names of the directories in a directory that are entered, in order. -/
def folderNames (d : Disk) (o : WalkOptions) (place : List String) : List String :=
  sortNames <| (d.children place).filterMap fun c =>
    match c.2 with
    | .folder =>
      if !o.exclude.contains c.1 && (o.includeHidden || !isHidden c.1) then some c.1 else none
    | .file _ => none

/-- The files below `top` and `below`, at most `depth` directories down. -/
def walkFrom (d : Disk) (o : WalkOptions) (top : List String) (depth : Nat) (below : List String) :
    List String :=
  let files := (d.fileNames o (top ++ below)).map fun n => "/".intercalate (below ++ [n])
  let here := files.filter fun p => Glob.matchPath p o.pattern
  match depth with
  | 0 => here
  | depth + 1 =>
    here ++ (d.folderNames o (top ++ below)).flatMap fun n => d.walkFrom o top depth (below ++ [n])

/-- The number of parts of the longest path. -/
def depth (d : Disk) : Nat :=
  (d.entries.map fun e => e.1.length).foldl max 0

/-- The files below a directory that match, by their relative paths. -/
def walk (d : Disk) (o : WalkOptions) (root : Path) : List String :=
  match d.find root with
  | .at place =>
    match d.entryAt place with
    | some .folder => d.walkFrom o place d.depth []
    | _ => []
  | _ => []

end Redline.Disk
