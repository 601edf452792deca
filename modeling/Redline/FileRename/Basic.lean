import Redline.Editset.Basic
import Redline.Text.Casing

/-!
# File renames

A file editset is the counterpart of an editset for file names: a list of planned renames, each with
the checksum of the file when it was found.
-/

namespace Redline

/-- A planned rename of a file; paths are relative to the root. -/
structure FileOp where
  opId : Unread
  oldPath : String
  newPath : String
  checksum : String
  deriving Repr, BEq, Inhabited

/-- A proposal to rename files. -/
structure FileEditset where
  id : Unread
  operation : Unread
  pattern : Unread
  replacement : Unread
  ops : List FileOp
  importEdits : List Edit
  createdAt : Unread
  deriving Repr, BEq, Inhabited

/-- The checksum of a file's content. -/
def fileChecksum (content : Bytes) : String :=
  Digest.short 16 content

namespace FileOp

/-- The identity of a rename. -/
def idOf (oldPath newPath : String) : String :=
  "file-" ++ Digest.ofText 8 (oldPath ++ ":" ++ newPath)

/-- Whether old and new path differ in case at most. -/
def isCaseOnly (op : FileOp) : Bool :=
  Text.toLower op.newPath == Text.toLower op.oldPath

/-- The stored form of a rename. -/
def toJson (op : FileOp) : Json :=
  .obj [("opId", op.opId), ("type", .str "rename"), ("oldPath", .str op.oldPath),
    ("newPath", .str op.newPath), ("checksum", .str op.checksum)]

end FileOp

namespace FileEditset

/-- The stored form of a file editset. -/
def toJson (e : FileEditset) : Json :=
  .obj [("id", e.id), ("operation", e.operation), ("pattern", e.pattern),
    ("replacement", e.replacement), ("fileOps", .arr (e.ops.map FileOp.toJson)),
    ("importEdits", .arr (e.importEdits.map Edit.toJson)), ("createdAt", e.createdAt)]

end FileEditset

end Redline
