import Redline.FileRename.Basic
import Redline.Store

/-!
# File editsets as they are stored

File editsets are read and stored as editsets are: texts are handed back as they stand, and `check`
gives the file editset whose paths and checksums are texts.
-/

namespace Redline

/-- A rename as it is stored. -/
structure StoredFileOp where
  opId : Unread
  oldPath : Unread
  newPath : Unread
  checksum : Unread
  deriving Repr, BEq, Inhabited

/-- A file editset as it is stored. -/
structure StoredFileEditset where
  id : Unread
  operation : Unread
  pattern : Unread
  replacement : Unread
  ops : List StoredFileOp
  importEdits : List StoredEdit
  createdAt : Unread
  deriving Repr, BEq, Inhabited

namespace StoredFileOp

/-- The stored form of a rename. -/
def toJson (op : StoredFileOp) : Json :=
  .obj [("opId", op.opId), ("type", .str "rename"), ("oldPath", op.oldPath),
    ("newPath", op.newPath), ("checksum", op.checksum)]

/-- A rename from its stored form. -/
def ofJson (j : Json) : Except Mishap StoredFileOp := do
  let opId ← Record.field j "opId"
  let oldPath ← Record.field j "oldPath"
  let newPath ← Record.field j "newPath"
  let checksum ← Record.field j "checksum"
  return { opId, oldPath, newPath, checksum }

/-- A rename whose texts are texts. -/
def check (op : StoredFileOp) : Except Mishap FileOp := do
  let oldPath ← Record.text "oldPath" op.oldPath
  let newPath ← Record.text "newPath" op.newPath
  let checksum ← Record.text "checksum" op.checksum
  return { opId := op.opId, oldPath, newPath, checksum }

end StoredFileOp

namespace FileOp

/-- A rename as it is stored. -/
def stored (op : FileOp) : StoredFileOp :=
  { opId := op.opId
    oldPath := .str op.oldPath
    newPath := .str op.newPath
    checksum := .str op.checksum }

/-- A rename from its stored form. -/
def ofJson (j : Json) : Except Mishap FileOp := do
  (← StoredFileOp.ofJson j).check

end FileOp

namespace StoredFileEditset

/-- The stored form of a file editset. -/
def toJson (e : StoredFileEditset) : Json :=
  .obj [("id", e.id), ("operation", e.operation), ("pattern", e.pattern),
    ("replacement", e.replacement), ("fileOps", .arr (e.ops.map StoredFileOp.toJson)),
    ("importEdits", .arr (e.importEdits.map StoredEdit.toJson)), ("createdAt", e.createdAt)]

/-- A file editset from its stored form; renames and edits may be left out. -/
def ofJson (j : Json) : Except Mishap StoredFileEditset := do
  let id ← Record.field j "id"
  let operation := Record.fieldOr j "operation" (.str "file-rename")
  let pattern ← Record.field j "pattern"
  let replacement ← Record.field j "replacement"
  let ops ← (← Record.items (Record.fieldOr j "fileOps" (.arr []))).mapM StoredFileOp.ofJson
  let importEdits ←
    (← Record.items (Record.fieldOr j "importEdits" (.arr []))).mapM StoredEdit.ofJson
  return { id, operation, pattern, replacement, ops, importEdits
           createdAt := Record.fieldOr j "createdAt" (.str "") }

/-- A file editset whose texts are texts. -/
def check (e : StoredFileEditset) : Except Mishap FileEditset := do
  let ops ← e.ops.mapM StoredFileOp.check
  let importEdits ← e.importEdits.mapM StoredEdit.check
  return { id := e.id, operation := e.operation, pattern := e.pattern, replacement := e.replacement
           ops, importEdits, createdAt := e.createdAt }

/-- Stores a file editset. -/
def save (e : StoredFileEditset) (d : Disk) (p : Path) : Except DiskFault Disk :=
  Store.save d p e.toJson

/-- Reads a stored file editset. -/
def load (d : Disk) (p : Path) : Outcome StoredFileEditset :=
  Store.load ofJson d p

end StoredFileEditset

namespace FileEditset

/-- A file editset as it is stored. -/
def stored (e : FileEditset) : StoredFileEditset :=
  { id := e.id
    operation := e.operation
    pattern := e.pattern
    replacement := e.replacement
    ops := e.ops.map FileOp.stored
    importEdits := e.importEdits.map Edit.stored
    createdAt := e.createdAt }

/-- Stores a file editset. -/
def save (e : FileEditset) (d : Disk) (p : Path) : Except DiskFault Disk :=
  Store.save d p e.toJson

/-- Reads a stored file editset, whose texts must be texts. -/
def load (d : Disk) (p : Path) : Outcome FileEditset := do
  (← StoredFileEditset.load d p).check.mapError .mishap

end FileEditset

end Redline
