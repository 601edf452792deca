import Redline.Disk.Walk
import Redline.FileRename.Basic
import Redline.Naming

/-!
# Planning file renames

`findRenames` plans a rename for every file whose name holds a text, whatever its case.
`checkRenames` sets the conflicting renames apart: to the same path, to the path of an earlier one,
or to a path that is taken. A target that differs from its source in case only is never taken.
-/

namespace Redline.FileRename

/-- What files to rename, and how. -/
structure Request where
  pattern : String
  replacement : String
  glob : String
  exclude : List String
  deriving Repr, Inhabited

/-- Whether a text occurs in another. -/
def occursIn (part whole : List Char) : Bool :=
  match whole with
  | [] => part.isEmpty
  | _ :: rest => part.isPrefixOf whole || occursIn part rest

/-- The directory of a relative path, with the slash after it, and the name. -/
def splitName (path : String) : String × String :=
  let back := path.toList.reverse
  (String.ofList (back.dropWhile (· != '/')).reverse,
    String.ofList (back.takeWhile (· != '/')).reverse)

/-- The path that a file would get; a new name that is an absolute path is taken as it is. -/
def renamed (r : Request) (path : String) : String :=
  let (folder, name) := splitName path
  let newName := Naming.newFileName name r.pattern r.replacement
  if newName.toList.head? = some '/' then newName else folder ++ newName

/-- Whether the name of a file holds the text. -/
def isAffected (r : Request) (path : String) : Bool :=
  occursIn (Text.toLower r.pattern).toList (Text.toLower (splitName path).2).toList

/-- The renames of the files below a root. -/
def find (r : Request) (d : Disk) (root : Path) : Except DiskFault (List FileOp) :=
  let files := d.walk { pattern := r.glob, exclude := r.exclude, includeHidden := false } root
  (files.filter (isAffected r)).mapM fun path => do
    let content ← d.read (root.join path)
    let newPath := renamed r path
    return { opId := .str (FileOp.idOf path newPath), oldPath := path, newPath
             checksum := fileChecksum content }

/-- Why a rename cannot be made with the others. -/
inductive Reason where
  | samePath
  | duplicateTarget
  | targetExists
  deriving DecidableEq, Repr

/-- The name of a reason. -/
def Reason.name : Reason → String
  | .samePath => "same_path"
  | .duplicateTarget => "duplicate_target"
  | .targetExists => "target_exists"

/-- A rename that cannot be made, with the path in its way if there is one. -/
structure Conflict where
  oldPath : String
  newPath : String
  reason : Reason
  existing : Option String
  deriving DecidableEq, Repr

/-- The document that reports a conflict. -/
def Conflict.toJson (c : Conflict) : Json :=
  .obj ([("oldPath", .str c.oldPath), ("newPath", .str c.newPath), ("reason", .str c.reason.name)]
    ++ match c.existing with
      | some p => [("existingPath", .str p)]
      | none => [])

/-- Renames split into conflicts and safe ones, in order. -/
structure Report where
  conflicts : List Conflict
  safe : List FileOp
  deriving Repr, Inhabited

/-- The document that reports the split. -/
def Report.toJson (r : Report) : Json :=
  .obj [("conflicts", .arr (r.conflicts.map Conflict.toJson)),
    ("safe", .arr (r.safe.map FileOp.toJson)), ("conflictCount", .int r.conflicts.length),
    ("safeCount", .int r.safe.length)]

/-- The source of the first rename to a path. -/
def firstSource (ops : List FileOp) (newPath : String) : String :=
  ((ops.find? (·.newPath == newPath)).map FileOp.oldPath).getD ""

/-- The conflict of a rename, if it has one. -/
def conflict? (ops : List FileOp) (d : Disk) (root : Path) (op : FileOp) : Option Conflict :=
  let first := firstSource ops op.newPath
  if op.newPath = op.oldPath then some ⟨op.oldPath, op.newPath, .samePath, none⟩
  else if first ≠ op.oldPath then some ⟨op.oldPath, op.newPath, .duplicateTarget, some first⟩
  else if !op.isCaseOnly && d.exists_ (root.join op.newPath) then
    some ⟨op.oldPath, op.newPath, .targetExists, some op.newPath⟩
  else none

/-- Splits renames into conflicts and safe ones. -/
def check (ops : List FileOp) (d : Disk) (root : Path) : Report :=
  { conflicts := ops.filterMap (conflict? ops d root)
    safe := ops.filter fun op => (conflict? ops d root op).isNone }

/-- A proposal with the safe renames. -/
def propose (r : Request) (d : Disk) (root : Path) (now : Moment) :
    Except DiskFault FileEditset := do
  let ops ← find r d root
  return { id := .str ("file-rename-" ++ Text.Numeral.ofInt now.milliseconds)
           operation := .str "file-rename"
           pattern := .str r.pattern
           replacement := .str r.replacement
           ops := (check ops d root).safe
           importEdits := []
           createdAt := .str now.text }

end Redline.FileRename
