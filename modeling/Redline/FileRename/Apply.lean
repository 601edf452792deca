import Redline.Disk.Basic
import Redline.FileRename.Basic

/-!
# Renaming files

Each file is checked against its checksum just before it is moved. A file that is gone or changed is
skipped; a failure concerns its own rename only.
-/

namespace Redline

/-- What became of a file editset. -/
structure FileApplyReport where
  applied : Nat
  skipped : Nat
  errors : List String
  dryRun : Bool
  deriving DecidableEq, Repr, Inhabited

/-- The document that reports it. -/
def FileApplyReport.toJson (r : FileApplyReport) : Json :=
  .obj [("applied", .int r.applied), ("skipped", .int r.skipped),
    ("errors", .ofStrings r.errors), ("dryRun", .bool r.dryRun)]

namespace FileOp

/-- What happened to the source of a rename since it was planned. -/
def drift? (op : FileOp) (d : Disk) (root : Path) : Option String :=
  match d.entry? (root.join op.oldPath) with
  | some (.file content) =>
    if fileChecksum content ≠ op.checksum then some (op.oldPath ++ ": checksum mismatch") else none
  | _ => some (op.oldPath ++ ": file no longer exists")

/-- What became of one rename. -/
inductive Fate where
  | skipped
  | failed (reason : String)
  | applied
  deriving DecidableEq, Repr

/-- Makes one rename; the directories on the way are made even if the move then fails. -/
def perform (op : FileOp) (root : Path) (dryRun : Bool) (d : Disk) : Disk × Fate :=
  let source := root.join op.oldPath
  let target := root.join op.newPath
  if (op.drift? d root).isSome then (d, .skipped)
  else if d.exists_ target && !op.isCaseOnly then
    (d, .failed (op.newPath ++ ": target already exists"))
  else if dryRun then (d, .applied)
  else
    match d.withFolders target.parent with
    | (d, some e) => (d, .failed (op.oldPath ++ ": " ++ e.message))
    | (d, none) =>
      match d.moveFile source target with
      | .error e => (d, .failed (op.oldPath ++ ": " ++ e.message))
      | .ok d => (d, .applied)

/-- Adds what became of a rename to a report. -/
def Fate.record (f : Fate) (r : FileApplyReport) : FileApplyReport :=
  match f with
  | .skipped => { r with skipped := r.skipped + 1 }
  | .failed reason => { r with errors := r.errors ++ [reason] }
  | .applied => { r with applied := r.applied + 1 }

end FileOp

namespace FileEditset

/-- The sources that drifted, in order. -/
def verify (e : FileEditset) (d : Disk) (root : Path) : List String :=
  e.ops.filterMap fun op => op.drift? d root

/-- The document that reports drift. -/
def verifyReport (drifted : List String) : Json :=
  .obj [("valid", .bool drifted.isEmpty), ("drifted", .ofStrings drifted)]

/-- Makes the next rename. -/
def applyStep (root : Path) (dryRun : Bool) (state : Disk × FileApplyReport) (op : FileOp) :
    Disk × FileApplyReport :=
  let (d, fate) := op.perform root dryRun state.1
  (d, fate.record state.2)

/-- Makes the renames in order: the disk afterwards, and the report. -/
def apply (e : FileEditset) (root : Path) (dryRun : Bool) (d : Disk) : Disk × FileApplyReport :=
  e.ops.foldl (applyStep root dryRun)
    (d, { applied := 0, skipped := 0, errors := [], dryRun })

end FileEditset

end Redline
